import Mathlib.Algebra.BigOperators.Group.Finset.Piecewise
import Mathlib.Algebra.BigOperators.Group.Finset.Sigma
import SaltyOS.Lib.Prog
import SaltyOS.Vfs.Frame

/-!
# Reference counts

A pipe counts the descriptors of each of its ends, and a socket counts its descriptors. The counts
are compared with the slots of all clients. They agree as long as no slot of a pipe or of a socket is
copied or overwritten: the operations that do that do not touch the counts.
-/

namespace SaltyOS.Vfs

open Finset

/-- What is counted: an end of a pipe, or a socket. -/
inductive Ref where
  | readEnd (h : ℕ)
  | writeEnd (h : ℕ)
  | socket (h : ℕ)
  deriving DecidableEq, Repr

/-- What a slot refers to that is counted. -/
def ObjectSlot.ref (o : ObjectSlot) : Option Ref :=
  match o.backing with
  | .pipe h => some (if o.canRead then .readEnd h else .writeEnd h)
  | .unixSocket h => some (.socket h)
  | _ => none

/-- An end of a pipe. -/
def Ref.pipeEnd (h : ℕ) (isReadEnd : Bool) : Ref :=
  if isReadEnd then .readEnd h else .writeEnd h

/-- The count of an end of a pipe. -/
def PipeState.refcount (isReadEnd : Bool) (p : PipeState) : ℕ :=
  if isReadEnd then p.readRefcount else p.writeRefcount

namespace Tables

variable {o : ObjectSlot} {h : ℕ} {p p' : PipeState} {k k' : SocketState}

/-- The number of live slots of all clients that refer to something. -/
def refs (T : Tables) (r : Ref) : ℕ :=
  ((T.clients.toFinset ×ˢ range maxClientObjects).filter fun x => (T.objects x.1 x.2).ref = some r).card

/-- The count of something. What is released has the count zero. -/
def recorded (T : Tables) : Ref → ℕ
  | .readEnd h => (T.pipes h).elim 0 PipeState.readRefcount
  | .writeEnd h => (T.pipes h).elim 0 PipeState.writeRefcount
  | .socket h => (T.sockets h).elim 0 SocketState.refcount

/-- The counts are exact, and nothing is torn down that a slot refers to: no end of a pipe whose
waiting clients were sent away, and no socket that told its peer that it is closed, unless it was
shut down. -/
structure Exact (T : Tables) : Prop where
  counts : ∀ r, T.recorded r = T.refs r
  torn : ∀ x ∈ T.tornEnds, T.refs (.pipeEnd x.1 x.2) = 0
  closed : ∀ q k, T.sockets q = some k → k.peerClosed = true → ∃ h, k.closedBy = some h ∧
      (T.refs (.socket h) = 0 ∨ ∃ c, T.sockets h = some c ∧ c.shutWr = true)

/-- The count of an end of a pipe. -/
def endCount (T : Tables) (h : ℕ) (isReadEnd : Bool) : ℕ :=
  (T.pipes h).elim 0 (PipeState.refcount isReadEnd)

/-- The part of exactness that does not speak of slots. -/
structure Torn (T : Tables) : Prop where
  pipes_lt : ∀ h, T.nextPipe ≤ h → T.pipes h = none
  sockets_lt : ∀ h, T.nextSocket ≤ h → T.sockets h = none
  torn : ∀ x ∈ T.tornEnds, x.1 < T.nextPipe ∧ T.endCount x.1 x.2 = 0
  closed : ∀ q k, T.sockets q = some k → k.peerClosed = true →
    ∃ h, k.closedBy = some h ∧ h < T.nextSocket ∧ ∀ c, T.sockets h = some c → c.shutWr = true

/-- The counts agree with the slots. -/
def Balanced (T : Tables) : Prop := ∀ r, T.recorded r = T.refs r

variable {T : Tables}

theorem recorded_pipeEnd (T : Tables) (h : ℕ) (isReadEnd : Bool) :
  T.recorded (.pipeEnd h isReadEnd) = T.endCount h isReadEnd
  := by
  cases isReadEnd with
  | true => rfl
  | false => rfl

/-- What is balanced and torn down in time is exact. -/
theorem Exact.of_torn (hbal : T.Balanced) (htorn : T.Torn) :
  T.Exact
  := by
  refine ⟨hbal, ?_, ?_⟩
  · intro x hx
    rw [← hbal, recorded_pipeEnd]
    exact (htorn.torn x hx).2
  intro q k hq hclosed
  obtain ⟨h, hby, -, hshut⟩ := htorn.closed q k hq hclosed
  use h, hby
  cases hc : T.sockets h with
  | none =>
    left
    rw [← hbal]
    simp [recorded, hc]
  | some c => exact .inr ⟨c, rfl, hshut c hc⟩

/-! ## Counting slots -/

/-- The slots as a sum. -/
theorem refs_eq_sum (T : Tables) (r : Ref) :
  T.refs r = ∑ x ∈ T.clients.toFinset ×ˢ range maxClientObjects,
    if (T.objects x.1 x.2).ref = some r then 1 else 0
  := by
  unfold refs
  rw [card_filter]

section

variable (hb : b ∈ T.clients) (hfd : fd < maxClientObjects)
include hb hfd

/-- A slot is replaced: one slot fewer refers to what it referred to, and one more to what the new
slot refers to. -/
theorem refs_setObject (o : ObjectSlot) (r : Ref) :
  (T.setObject b fd o).refs r + (if (T.objects b fd).ref = some r then 1 else 0) =
    T.refs r + (if o.ref = some r then 1 else 0)
  := by
  have hmem : (b, fd) ∈ T.clients.toFinset ×ˢ range maxClientObjects := by
    simp [hb, hfd]
  have hrest : ∑ x ∈ (T.clients.toFinset ×ˢ range maxClientObjects).erase (b, fd),
      (if ((T.setObject b fd o).objects x.1 x.2).ref = some r then 1 else 0) =
      ∑ x ∈ (T.clients.toFinset ×ˢ range maxClientObjects).erase (b, fd),
      if (T.objects x.1 x.2).ref = some r then 1 else 0 := by
    apply sum_congr rfl
    intro x hx
    rw [objects_setObject, if_neg (ne_of_mem_erase hx)]
  rw [refs_eq_sum, refs_eq_sum]
  change ∑ x ∈ T.clients.toFinset ×ˢ range maxClientObjects, _ + _ = _
  rw [← add_sum_erase _ _ hmem, ← add_sum_erase (T.clients.toFinset ×ˢ _) _ hmem,
    hrest, objects_setObject, if_pos rfl]
  dsimp only
  omega

/-- A slot is replaced by one that refers to the same. -/
theorem refs_setObject_of_eq (ho : o.ref = (T.objects b fd).ref) (r : Ref) :
  (T.setObject b fd o).refs r = T.refs r
  := by
  have h := refs_setObject hb hfd o r
  rw [ho] at h
  omega

/-- A slot that refers to nothing is replaced. -/
theorem refs_setObject_of_none (hold : (T.objects b fd).ref = none) (o : ObjectSlot) (r : Ref) :
  (T.setObject b fd o).refs r = T.refs r + if o.ref = some r then 1 else 0
  := by
  have h := refs_setObject hb hfd o r
  rw [hold] at h
  simpa using h

end

/-! ## Counting the slots of a client -/

/-- The number of slots of one table that refer to something. -/
def rowRefs (row : ℕ → ObjectSlot) (r : Ref) : ℕ :=
  ∑ fd ∈ range maxClientObjects, if (row fd).ref = some r then 1 else 0

/-- The slots are counted client by client. -/
theorem refs_eq_sum_rows (T : Tables) (r : Ref) :
  T.refs r = ∑ b ∈ T.clients.toFinset, rowRefs (T.objects b) r
  := by
  rw [refs_eq_sum, sum_product]
  rfl

/-- A table without pipes and sockets. -/
theorem rowRefs_eq_zero {row : ℕ → ObjectSlot}
    (h : ∀ fd < maxClientObjects, (row fd).ref = none) (r : Ref) :
  rowRefs row r = 0
  := by
  apply sum_eq_zero
  intro fd hfd
  rw [h fd (mem_range.mp hfd), if_neg (by simp)]

theorem rowRefs_zeroed (r : Ref) :
  rowRefs (fun _ => .zeroed) r = 0
  := by
  apply rowRefs_eq_zero
  intro fd _
  rfl

/-- A new client has no descriptors. -/
theorem refs_addClient (hb : b ∉ T.clients) (r : Ref) :
  (T.addClient b).refs r = T.refs r
  := by
  have hclients : (T.addClient b).clients.toFinset = insert b T.clients.toFinset := by
    simp [addClient]
  have hrows : ∑ c ∈ T.clients.toFinset, rowRefs ((T.addClient b).objects c) r =
      ∑ c ∈ T.clients.toFinset, rowRefs (T.objects c) r := by
    apply sum_congr rfl
    intro c hc
    have hne : c ≠ b := fun h => hb (h ▸ List.mem_toFinset.mp hc)
    simp [addClient, hne]
  rw [refs_eq_sum_rows, refs_eq_sum_rows, hclients, sum_insert (by simpa using hb), hrows]
  simp [addClient, rowRefs_zeroed]

/-- The slots of a client are no longer counted. -/
theorem refs_removeClient (hb : b ∈ T.clients) (r : Ref) :
  (T.removeClient b).refs r + rowRefs (T.objects b) r = T.refs r
  := by
  have hclients : (T.removeClient b).clients.toFinset = T.clients.toFinset.erase b := by
    ext c
    simp [removeClient, and_comm]
  have hrows : ∑ c ∈ T.clients.toFinset.erase b, rowRefs ((T.removeClient b).objects c) r =
      ∑ c ∈ T.clients.toFinset.erase b, rowRefs (T.objects c) r := by
    apply sum_congr rfl
    intro c hc
    simp [removeClient, ne_of_mem_erase hc]
  rw [refs_eq_sum_rows, refs_eq_sum_rows, hclients, hrows, sum_erase_add _ _ (List.mem_toFinset.mpr hb)]

/-- A table without pipes and sockets becomes a copy of another one. -/
theorem refs_cloneObjects {parent child : ℕ}
    (hparent : ∀ fd < maxClientObjects, (T.objects parent fd).ref = none)
    (hchild : ∀ fd < maxClientObjects, (T.objects child fd).ref = none) (r : Ref) :
  (T.cloneObjects parent child).refs r = T.refs r
  := by
  rw [refs_eq_sum_rows, refs_eq_sum_rows]
  apply sum_congr rfl
  intro c _
  by_cases hc : c = child
  · subst hc
    rw [rowRefs_eq_zero hchild]
    apply rowRefs_eq_zero
    simpa [cloneObjects] using hparent
  · simp [cloneObjects, hc]

/-! ## The counts -/

/-- A pipe changes and keeps its counts. -/
theorem recorded_setPipe (hp : T.pipes h = some p) (hread : p'.readRefcount = p.readRefcount)
    (hwrite : p'.writeRefcount = p.writeRefcount) :
  (T.setPipe h p').recorded = T.recorded
  := by
  funext r
  cases r with
  | readEnd g =>
    by_cases hg : g = h
    · subst hg
      simp [recorded, setPipe, hp, hread]
    · simp [recorded, setPipe, hg]
  | writeEnd g =>
    by_cases hg : g = h
    · subst hg
      simp [recorded, setPipe, hp, hwrite]
    · simp [recorded, setPipe, hg]
  | socket g => rfl

/-- A socket changes and keeps its count. -/
theorem recorded_setSocket (hk : T.sockets h = some k) (hcount : k'.refcount = k.refcount) :
  (T.setSocket h k').recorded = T.recorded
  := by
  funext r
  cases r with
  | readEnd g => rfl
  | writeEnd g => rfl
  | socket g =>
    by_cases hg : g = h
    · subst hg
      simp [recorded, setSocket, hk, hcount]
    · simp [recorded, setSocket, hg]

/-- A new pipe starts with one reference for each end. -/
theorem recorded_addPipe (hT : T.Torn) (r : Ref) :
  T.addPipe.recorded r = T.recorded r + ((if some (Ref.readEnd T.nextPipe) = some r then 1 else 0) +
      if some (Ref.writeEnd T.nextPipe) = some r then 1 else 0)
  := by
  have hnone := hT.pipes_lt T.nextPipe le_rfl
  cases r with
  | readEnd g =>
    by_cases hg : g = T.nextPipe
    · subst hg
      simp [recorded, addPipe, hnone, PipeState.new]
    · simp [recorded, addPipe, hg, Ne.symm hg]
  | writeEnd g =>
    by_cases hg : g = T.nextPipe
    · subst hg
      simp [recorded, addPipe, hnone, PipeState.new]
    · simp [recorded, addPipe, hg, Ne.symm hg]
  | socket g => simp [recorded, addPipe]

/-- A new socket starts with one reference. -/
theorem recorded_addSocket (hT : T.Torn) (hk : k.refcount = 1) (r : Ref) :
  (T.addSocket k).recorded r = T.recorded r + if some (Ref.socket T.nextSocket) = some r then 1 else 0
  := by
  have hnone := hT.sockets_lt T.nextSocket le_rfl
  cases r with
  | readEnd g => simp [recorded, addSocket]
  | writeEnd g => simp [recorded, addSocket]
  | socket g =>
    by_cases hg : g = T.nextSocket
    · subst hg
      simp [recorded, addSocket, hnone, hk]
    · simp [recorded, addSocket, hg, Ne.symm hg]

/-- The count of the readers goes down by one. -/
theorem closeRead_counts (p : PipeState) :
  p.closeRead.1.readRefcount = p.readRefcount - 1 ∧ p.closeRead.1.writeRefcount = p.writeRefcount
  := by
  unfold PipeState.closeRead
  split_ifs with h
  · exact ⟨h.symm, rfl⟩
  · exact ⟨rfl, rfl⟩

theorem closeWrite_counts (p : PipeState) :
  p.closeWrite.1.readRefcount = p.readRefcount ∧ p.closeWrite.1.writeRefcount = p.writeRefcount - 1
  := by
  unfold PipeState.closeWrite
  split_ifs with h
  · exact ⟨rfl, h.symm⟩
  · exact ⟨rfl, rfl⟩

/-- Tearing an end down is noted next to the counts. -/
theorem recorded_tearEnd (T : Tables) (h count : ℕ) (isReadEnd : Bool) :
  (T.tearEnd h isReadEnd count).recorded = T.recorded
  := by
  unfold tearEnd
  split_ifs
  · funext r
    cases r with
    | readEnd g => rfl
    | writeEnd g => rfl
    | socket g => rfl
  · rfl

/-- A pipe that is released has the count zero at both ends. -/
theorem recorded_releaseClosed (hp : T.pipes h = some p) :
  (T.releaseClosed h p).recorded = T.recorded
  := by
  unfold releaseClosed
  split_ifs with hclosed
  · obtain ⟨hread, hwrite⟩ := (Bool.and_eq_true _ _).mp hclosed
    funext r
    cases r with
    | readEnd g =>
      by_cases hg : g = h
      · subst hg
        simp [recorded, releasePipe, hp, eq_of_beq hread]
      · simp [recorded, releasePipe, hg]
    | writeEnd g =>
      by_cases hg : g = h
      · subst hg
        simp [recorded, releasePipe, hp, eq_of_beq hwrite]
      · simp [recorded, releasePipe, hg]
    | socket g => rfl
  · rfl

/-- Closing an end of a pipe takes one from its count. -/
theorem recorded_closePipe (T : Tables) (h : ℕ) (isReadEnd : Bool) (r : Ref) :
  (T.closePipe h isReadEnd).recorded r =
    T.recorded r - if some (Ref.pipeEnd h isReadEnd) = some r then 1 else 0
  := by
  have hpipes : ∀ (p : PipeState) (e : Bool) (n : ℕ),
      ((T.setPipe h p).tearEnd h e n).pipes h = some p := by
    intro p e n
    unfold tearEnd
    split_ifs <;> simp [setPipe]
  unfold closePipe
  cases hp : T.pipes h with
  | none =>
    cases isReadEnd with
    | true =>
      by_cases hr : Ref.readEnd h = r
      · subst hr
        simp [recorded, hp]
      · simp [Ref.pipeEnd, hr]
    | false =>
      by_cases hr : Ref.writeEnd h = r
      · subst hr
        simp [recorded, hp]
      · simp [Ref.pipeEnd, hr]
  | some p =>
    cases isReadEnd with
    | true =>
      obtain ⟨hread, hwrite⟩ := closeRead_counts p
      simp only [if_true, recorded_releaseClosed (hpipes ..), recorded_tearEnd]
      cases r with
      | readEnd g =>
        by_cases hg : g = h
        · subst hg
          simp [recorded, setPipe, hp, hread, Ref.pipeEnd]
        · simp [recorded, setPipe, hg, Ne.symm hg, Ref.pipeEnd]
      | writeEnd g =>
        by_cases hg : g = h
        · subst hg
          simp [recorded, setPipe, hp, hwrite, Ref.pipeEnd]
        · simp [recorded, setPipe, hg, Ref.pipeEnd]
      | socket g => simp [recorded, setPipe, Ref.pipeEnd]
    | false =>
      obtain ⟨hread, hwrite⟩ := closeWrite_counts p
      simp only [Bool.false_eq_true, if_false, recorded_releaseClosed (hpipes ..), recorded_tearEnd]
      cases r with
      | readEnd g =>
        by_cases hg : g = h
        · subst hg
          simp [recorded, setPipe, hp, hread, Ref.pipeEnd]
        · simp [recorded, setPipe, hg, Ref.pipeEnd]
      | writeEnd g =>
        by_cases hg : g = h
        · subst hg
          simp [recorded, setPipe, hp, hwrite, Ref.pipeEnd]
        · simp [recorded, setPipe, hg, Ne.symm hg, Ref.pipeEnd]
      | socket g => simp [recorded, setPipe, Ref.pipeEnd]

/-- A socket that hangs up keeps the counts. -/
theorem recorded_hangUpPeer (T : Tables) (h : ℕ) (peer : Option ℕ) :
  (T.hangUpPeer h peer).recorded = T.recorded
  := by
  unfold hangUpPeer
  obtain _ | q := peer
  · rfl
  dsimp only
  cases hq : T.sockets q with
  | none => rfl
  | some k =>
    have hcount : (k.hangUp h).1.refcount = k.refcount := rfl
    exact recorded_setSocket hq hcount

/-- Closing a socket takes one from its count. -/
theorem recorded_closeSocket (T : Tables) (h : ℕ) (r : Ref) :
  (T.closeSocket h).recorded r = T.recorded r - if some (Ref.socket h) = some r then 1 else 0
  := by
  unfold closeSocket
  cases hk : T.sockets h with
  | none =>
    by_cases hr : Ref.socket h = r
    · subst hr
      simp [recorded, hk]
    · simp [hr]
  | some k =>
    dsimp only
    split_ifs with hlast hr hr
    · cases hr
      simp [recorded, setSocket, hk]
    · cases r with
      | readEnd g => rfl
      | writeEnd g => rfl
      | socket g =>
        have hg : g ≠ h := fun hg => hr (hg ▸ rfl)
        simp [recorded, setSocket, hg]
    · cases hr
      simp only [recorded, releaseSocket, Function.update_self, hk, Option.elim_none, Option.elim_some]
      omega
    · rw [← T.recorded_hangUpPeer h k.peerSocket]
      cases r with
      | readEnd g => rfl
      | writeEnd g => rfl
      | socket g =>
        have hg : g ≠ h := fun hg => hr (hg ▸ rfl)
        simp [recorded, releaseSocket, hg]

/-- Closing a slot takes one from the count of what it refers to. -/
theorem recorded_closeObject (T : Tables) (o : ObjectSlot) (r : Ref) :
  (T.closeObject o).recorded r = T.recorded r - if o.ref = some r then 1 else 0
  := by
  unfold closeObject ObjectSlot.ref
  cases o.backing with
  | unixSocket h => apply recorded_closeSocket
  | pipe h => apply recorded_closePipe
  | _ => rfl

/-! ## What is torn down -/

section

variable (hT : T.Torn)
include hT

/-- A pipe with a handle is a pipe that was allocated. -/
theorem Torn.lt_nextPipe (hp : T.pipes h = some p) :
  h < T.nextPipe
  := by
  by_contra hge
  rw [hT.pipes_lt h (Nat.le_of_not_lt hge)] at hp
  cases hp

theorem Torn.lt_nextSocket (hk : T.sockets h = some k) :
  h < T.nextSocket
  := by
  by_contra hge
  rw [hT.sockets_lt h (Nat.le_of_not_lt hge)] at hk
  cases hk

/-- A pipe changes and its counts do not grow. -/
theorem Torn.setPipe (hp : T.pipes h = some p) (hread : p'.readRefcount ≤ p.readRefcount)
    (hwrite : p'.writeRefcount ≤ p.writeRefcount) :
  (T.setPipe h p').Torn
  := by
  refine ⟨?_, hT.sockets_lt, ?_, hT.closed⟩
  · intro g hg
    rw [pipes_setPipe, if_neg (Nat.ne_of_gt (Nat.lt_of_lt_of_le (hT.lt_nextPipe hp) hg))]
    exact hT.pipes_lt g hg
  rintro ⟨g, e⟩ hx
  obtain ⟨hlt, hzero⟩ := hT.torn _ hx
  use hlt
  unfold endCount at hzero ⊢
  rw [pipes_setPipe]
  split_ifs with hg
  · subst hg
    rw [hp, Option.elim_some] at hzero
    cases e with
    | true => exact Nat.le_zero.mp (hread.trans_eq hzero)
    | false => exact Nat.le_zero.mp (hwrite.trans_eq hzero)
  · exact hzero

theorem Torn.tearEnd {count : ℕ} {isReadEnd : Bool} (hh : h < T.nextPipe)
    (hcount : T.endCount h isReadEnd = count) :
  (T.tearEnd h isReadEnd count).Torn
  := by
  unfold Tables.tearEnd
  split_ifs with hzero
  · refine ⟨hT.pipes_lt, hT.sockets_lt, ?_, hT.closed⟩
    intro x hx
    obtain hx | hx := List.mem_append.mp hx
    · exact hT.torn x hx
    · rw [List.mem_singleton.mp hx]
      exact ⟨hh, hcount.trans hzero⟩
  · exact hT

theorem Torn.releaseClosed (h : ℕ) (p : PipeState) :
  (T.releaseClosed h p).Torn
  := by
  unfold Tables.releaseClosed
  split_ifs
  · refine ⟨?_, hT.sockets_lt, ?_, hT.closed⟩
    · intro g hg
      rw [pipes_releasePipe, hT.pipes_lt g hg, ite_self]
    rintro ⟨g, e⟩ hx
    obtain ⟨hlt, hzero⟩ := hT.torn _ hx
    use hlt
    unfold endCount at hzero ⊢
    rw [pipes_releasePipe]
    split_ifs
    · rfl
    · exact hzero
  · exact hT

/-- An end is torn down with its last reference. -/
theorem Torn.closePipe (h : ℕ) (isReadEnd : Bool) :
  (T.closePipe h isReadEnd).Torn
  := by
  unfold Tables.closePipe
  rcases hp : T.pipes h with _ | p
  · exact hT
  have hlt := hT.lt_nextPipe hp
  split_ifs with hend
  · obtain ⟨hread, hwrite⟩ := closeRead_counts p
    apply Torn.releaseClosed
    apply Torn.tearEnd (hT.setPipe hp (by omega) (by omega)) hlt
    simp [endCount, pipes_setPipe, PipeState.refcount]
  · obtain ⟨hread, hwrite⟩ := closeWrite_counts p
    apply Torn.releaseClosed
    apply Torn.tearEnd (hT.setPipe hp (by omega) (by omega)) hlt
    simp [endCount, pipes_setPipe, PipeState.refcount]

theorem Torn.addPipe :
  T.addPipe.Torn
  := by
  refine ⟨?_, hT.sockets_lt, ?_, hT.closed⟩
  · intro g hg
    have hg' : T.nextPipe + 1 ≤ g := hg
    rw [pipes_addPipe, if_neg (by omega)]
    exact hT.pipes_lt g (by omega)
  rintro ⟨g, e⟩ hx
  obtain ⟨hlt, hzero⟩ := hT.torn _ hx
  use Nat.lt_succ_of_lt hlt
  unfold endCount at hzero ⊢
  rw [pipes_addPipe, if_neg (Nat.ne_of_lt hlt)]
  exact hzero

/-- What must hold of the sockets after a change, if every socket keeps what it was told by its peer
and stays shut down. -/
theorem Torn.of_sockets {T' : Tables} (hpipes : T'.pipes = T.pipes)
    (hnextPipe : T'.nextPipe = T.nextPipe) (htorn : T'.tornEnds = T.tornEnds)
    (hnext : T.nextSocket ≤ T'.nextSocket) (hlt : ∀ h, T'.nextSocket ≤ h → T'.sockets h = none)
    (hold : ∀ g < T.nextSocket, ∀ c, T'.sockets g = some c → ∃ c₀, T.sockets g = some c₀ ∧
      c.peerClosed = c₀.peerClosed ∧ c.closedBy = c₀.closedBy ∧
      (c₀.shutWr = true → c.shutWr = true))
    (hnew : ∀ g, T.nextSocket ≤ g → ∀ c, T'.sockets g = some c → c.peerClosed = false) :
  T'.Torn
  := by
  refine ⟨?_, hlt, ?_, ?_⟩
  · intro h hh
    rw [hpipes]
    exact hT.pipes_lt h (hnextPipe ▸ hh)
  · intro x hx
    obtain ⟨hxlt, hzero⟩ := hT.torn x (htorn ▸ hx)
    use hnextPipe ▸ hxlt
    unfold endCount at hzero ⊢
    rw [hpipes]
    exact hzero
  · intro q c hq hpeer
    by_cases hqlt : q < T.nextSocket
    · obtain ⟨c₀, hq₀, hpeer₀, hby₀, -⟩ := hold q hqlt c hq
      obtain ⟨h, hby, hhlt, hshut⟩ := hT.closed q c₀ hq₀ (hpeer₀ ▸ hpeer)
      use h, hby₀.trans hby, Nat.lt_of_lt_of_le hhlt hnext
      intro d hd
      obtain ⟨d₀, hd₀, -, -, hshut₀⟩ := hold h hhlt d hd
      exact hshut₀ (hshut d₀ hd₀)
    · rw [hnew q (Nat.le_of_not_lt hqlt) c hq] at hpeer
      cases hpeer

/-- A socket changes, keeps what it was told by its peer, and stays shut down. -/
theorem Torn.setSocket (hk : T.sockets h = some k) (hclosed : k'.peerClosed = k.peerClosed)
    (hby : k'.closedBy = k.closedBy) (hshut : k.shutWr = true → k'.shutWr = true) :
  (T.setSocket h k').Torn
  := by
  have hne : ∀ g, T.nextSocket ≤ g → g ≠ h := by
    intro g hg
    exact Nat.ne_of_gt (Nat.lt_of_lt_of_le (hT.lt_nextSocket hk) hg)
  refine Torn.of_sockets hT rfl rfl rfl le_rfl ?_ ?_ ?_
  · intro g hg
    rw [sockets_setSocket, if_neg (hne g hg)]
    exact hT.sockets_lt g hg
  · intro g hg c hc
    rw [sockets_setSocket] at hc
    split_ifs at hc with hgh
    · cases hc
      exact ⟨k, hgh ▸ hk, hclosed, hby, hshut⟩
    · exact ⟨c, hc, rfl, rfl, id⟩
  · intro g hg c hc
    rw [sockets_setSocket, if_neg (hne g hg), hT.sockets_lt g hg] at hc
    cases hc

theorem Torn.addSocket (hk : k.peerClosed = false) :
  (T.addSocket k).Torn
  := by
  refine Torn.of_sockets hT rfl rfl rfl (Nat.le_succ _) ?_ ?_ ?_
  · intro g hg
    have hg' : T.nextSocket + 1 ≤ g := hg
    rw [sockets_addSocket, if_neg (by omega)]
    exact hT.sockets_lt g (by omega)
  · intro g hg c hc
    rw [sockets_addSocket, if_neg (Nat.ne_of_lt hg)] at hc
    exact ⟨c, hc, rfl, rfl, id⟩
  · intro g hg c hc
    rw [sockets_addSocket] at hc
    split_ifs at hc with hgn
    · cases hc
      exact hk
    · rw [hT.sockets_lt g hg] at hc
      cases hc

theorem Torn.releaseSocket (h : ℕ) :
  (T.releaseSocket h).Torn
  := by
  refine Torn.of_sockets hT rfl rfl rfl le_rfl ?_ ?_ ?_
  · intro g hg
    rw [sockets_releaseSocket, hT.sockets_lt g hg, ite_self]
  · intro g hg c hc
    rw [sockets_releaseSocket] at hc
    split_ifs at hc with hgh
    exact ⟨c, hc, rfl, rfl, id⟩
  · intro g hg c hc
    rw [sockets_releaseSocket, hT.sockets_lt g hg, ite_self] at hc
    cases hc

/-- The peer of a socket that is shut down, or about to be released, is told so. -/
theorem Torn.hangUpPeer (hlt : h < T.nextSocket)
    (hshut : ∀ c, T.sockets h = some c → c.shutWr = true) (peer : Option ℕ) :
  (T.hangUpPeer h peer).Torn
  := by
  unfold Tables.hangUpPeer
  obtain _ | q := peer
  · exact hT
  dsimp only
  rcases hq : T.sockets q with _ | k
  · exact hT
  have hshut' : ∀ g c, (T.setSocket q (k.hangUp h).1).sockets g = some c →
      ∃ c₀, T.sockets g = some c₀ ∧ c.shutWr = c₀.shutWr := by
    intro g c hc
    rw [sockets_setSocket] at hc
    split_ifs at hc with hgq
    · cases hc
      exact ⟨k, hgq ▸ hq, rfl⟩
    · exact ⟨c, hc, rfl⟩
  refine ⟨hT.pipes_lt, ?_, hT.torn, ?_⟩
  · intro g hg
    rw [sockets_setSocket, if_neg (Nat.ne_of_gt (Nat.lt_of_lt_of_le (hT.lt_nextSocket hq) hg))]
    exact hT.sockets_lt g hg
  intro g c hc hpeer
  have hdone : ∀ x, (∀ d, T.sockets x = some d → d.shutWr = true) →
      ∀ d, (T.setSocket q (k.hangUp h).1).sockets x = some d → d.shutWr = true := by
    intro x hx d hd
    obtain ⟨d₀, hd₀, heq⟩ := hshut' x d hd
    rw [heq]
    exact hx d₀ hd₀
  rw [sockets_setSocket] at hc
  split_ifs at hc with hgq
  · cases hc
    exact ⟨h, rfl, hlt, hdone h hshut⟩
  · obtain ⟨x, hby, hxlt, hx⟩ := hT.closed g c hc hpeer
    exact ⟨x, hby, hxlt, hdone x hx⟩

/-- The last descriptor of a socket is closed: its peer is told so, and it is released. -/
theorem Torn.closeSocket (h : ℕ) :
  (T.closeSocket h).Torn
  := by
  unfold Tables.closeSocket
  rcases hk : T.sockets h with _ | k
  · exact hT
  dsimp only
  split_ifs
  · exact hT.setSocket hk rfl rfl id
  -- the socket is gone for its peer, which is why the order of the two steps does not matter
  have hcomm : (T.hangUpPeer h k.peerSocket).releaseSocket h =
      ((T.releaseSocket h).hangUpPeer h k.peerSocket).releaseSocket h := by
    unfold Tables.hangUpPeer
    obtain _ | q := k.peerSocket
    · simp [Tables.releaseSocket]
    by_cases hq : q = h
    · subst hq
      simp [Tables.releaseSocket, Tables.setSocket, hk]
    simp only [sockets_releaseSocket, if_neg hq]
    rcases hpeer : T.sockets q with _ | c
    · simp [Tables.releaseSocket]
    simp only [Tables.releaseSocket, Tables.setSocket]
    congr 1
    funext g
    by_cases hg : g = h
    · simp [hg]
    by_cases hgq : g = q
    · simp [hgq, hq]
    · simp [hg, hgq]
  rw [hcomm]
  apply Torn.releaseSocket
  apply (hT.releaseSocket h).hangUpPeer (hT.lt_nextSocket hk)
  intro c hc
  rw [sockets_releaseSocket, if_pos rfl] at hc
  cases hc

/-- Closing by the kind of the object. -/
theorem Torn.closeObject (o : ObjectSlot) :
  (T.closeObject o).Torn
  := by
  unfold Tables.closeObject
  cases o.backing with
  | unixSocket h => exact hT.closeSocket h
  | pipe h => exact hT.closePipe h o.canRead
  | epoll h => exact ⟨hT.pipes_lt, hT.sockets_lt, hT.torn, hT.closed⟩
  | _ => exact hT

end

/-! ## Slots that are still to be filled -/

/-- The counts agree with the slots, except that each thing in a list is counted once more. -/
structure Owes (T : Tables) (l : List Ref) : Prop where
  counts : ∀ r, T.recorded r = T.refs r + l.count r
  torn : T.Torn

/-- If nothing is owed then the counts are exact. -/
theorem Owes.exact (hT : T.Owes []) :
  T.Exact
  := by
  apply Exact.of_torn _ hT.torn
  intro r
  simpa using hT.counts r

variable {l : List Ref} {b fd : ℕ}

/-- The tables of descriptors change and nothing else. -/
theorem Owes.of_objects {l' : List Ref} (hT : T.Owes l) (clients : List ℕ)
    (objects : ℕ → ℕ → ObjectSlot)
    (hrefs : ∀ r, T.refs r + l.count r =
      Tables.refs { T with clients := clients, objects := objects } r + l'.count r) :
  Tables.Owes { T with clients := clients, objects := objects } l'
  := by
  refine ⟨?_, ⟨hT.torn.pipes_lt, hT.torn.sockets_lt, hT.torn.torn, hT.torn.closed⟩⟩
  intro r
  rw [← hrefs r, ← hT.counts r]
  cases r with
  | readEnd h => rfl
  | writeEnd h => rfl
  | socket h => rfl

/-- A slot is replaced by one that refers to the same. -/
theorem Owes.setObject (hT : T.Owes l) (hb : b ∈ T.clients) (hfd : fd < maxClientObjects)
    (ho : o.ref = (T.objects b fd).ref) :
  (T.setObject b fd o).Owes l
  := by
  apply hT.of_objects
  intro r
  have hrefs := refs_setObject_of_eq hb hfd ho r
  exact congrArg (· + l.count r) hrefs.symm

/-- A slot is filled. -/
theorem Owes.fill {r : Ref} (hT : T.Owes (r :: l)) (hb : b ∈ T.clients)
    (hfd : fd < maxClientObjects) (hold : (T.objects b fd).ref = none) (ho : o.ref = some r) :
  (T.setObject b fd o).Owes l
  := by
  apply hT.of_objects
  intro q
  have hrefs := refs_setObject_of_none hb hfd hold o q
  rw [ho] at hrefs
  change _ = (T.setObject b fd o).refs q + l.count q
  rw [hrefs, List.count_cons]
  simp only [Option.some.injEq, beq_iff_eq]
  omega

section

variable (hT : T.Owes l)
include hT

/-- A pipe is changed apart from its counts. -/
theorem Owes.setPipe (hp : T.pipes h = some p) (hread : p'.readRefcount = p.readRefcount)
    (hwrite : p'.writeRefcount = p.writeRefcount) :
  (T.setPipe h p').Owes l
  := by
  refine ⟨?_, hT.torn.setPipe hp hread.le hwrite.le⟩
  intro r
  rw [recorded_setPipe hp hread hwrite]
  exact hT.counts r

theorem Owes.setSocket (hk : T.sockets h = some k) (hcount : k'.refcount = k.refcount)
    (hclosed : k'.peerClosed = k.peerClosed) (hby : k'.closedBy = k.closedBy)
    (hshut : k.shutWr = true → k'.shutWr = true) :
  (T.setSocket h k').Owes l
  := by
  refine ⟨?_, hT.torn.setSocket hk hclosed hby hshut⟩
  intro r
  rw [recorded_setSocket hk hcount]
  exact hT.counts r

/-- The two ends are owed to the descriptors that are still to be made. -/
theorem Owes.addPipe :
  T.addPipe.Owes (.readEnd T.nextPipe :: .writeEnd T.nextPipe :: l)
  := by
  refine ⟨?_, hT.torn.addPipe⟩
  intro r
  rw [recorded_addPipe hT.torn, hT.counts r, List.count_cons, List.count_cons]
  change _ = T.refs r + _
  simp only [Option.some.injEq, beq_iff_eq]
  omega

/-- The socket is owed to the descriptor that is still to be made. -/
theorem Owes.addSocket (hk : k.refcount = 1) (hclosed : k.peerClosed = false) :
  (T.addSocket k).Owes (.socket T.nextSocket :: l)
  := by
  refine ⟨?_, hT.torn.addSocket hclosed⟩
  intro r
  rw [recorded_addSocket hT.torn hk, hT.counts r, List.count_cons]
  change _ = T.refs r + _
  simp only [Option.some.injEq, beq_iff_eq]
  omega

/-- The peer is marked only when this side has shut down or is gone. -/
theorem Owes.hangUpPeer (hlt : h < T.nextSocket)
    (hshut : ∀ c, T.sockets h = some c → c.shutWr = true) (peer : Option ℕ) :
  (T.hangUpPeer h peer).Owes l
  := by
  have hrefs : ∀ r, (T.hangUpPeer h peer).refs r = T.refs r := by
    intro r
    unfold Tables.hangUpPeer
    obtain _ | q := peer
    · rfl
    dsimp only
    cases T.sockets q with
    | none => rfl
    | some k => rfl
  refine ⟨?_, hT.torn.hangUpPeer hlt hshut peer⟩
  intro r
  rw [recorded_hangUpPeer, hrefs]
  exact hT.counts r

theorem Owes.addClient (hb : b ∉ T.clients) :
  (T.addClient b).Owes l
  := by
  apply hT.of_objects
  intro r
  exact congrArg (· + l.count r) (refs_addClient hb r).symm

/-- Descriptors that refer to no pipe and no socket can be copied freely. -/
theorem Owes.cloneObjects {parent child : ℕ}
    (hparent : ∀ fd < maxClientObjects, (T.objects parent fd).ref = none)
    (hchild : ∀ fd < maxClientObjects, (T.objects child fd).ref = none) :
  (T.cloneObjects parent child).Owes l
  := by
  apply hT.of_objects
  intro r
  exact congrArg (· + l.count r) (refs_cloneObjects hparent hchild r).symm

end

/-! ## Closing -/

/-- Closing an object does not clear its slot. -/
theorem refs_closeObject (T : Tables) (o : ObjectSlot) (r : Ref) :
  (T.closeObject o).refs r = T.refs r
  := by
  obtain ⟨hclients, hobjects⟩ := T.slots_closeObject o
  unfold refs
  rw [hclients, hobjects]

/-- A slot is closed. -/
theorem Owes.close (hT : T.Owes []) (hb : b ∈ T.clients) (hfd : fd < maxClientObjects) :
  ((T.closeObject (T.objects b fd)).setObject b fd .zeroed).Owes []
  := by
  obtain ⟨hclients, hobjects⟩ := T.slots_closeObject (T.objects b fd)
  have htorn := hT.torn.closeObject (T.objects b fd)
  refine ⟨?_, ⟨htorn.pipes_lt, htorn.sockets_lt, htorn.torn, htorn.closed⟩⟩
  intro r
  have hrefs := refs_setObject (T := T.closeObject (T.objects b fd)) (hclients ▸ hb) hfd .zeroed r
  rw [refs_closeObject, hobjects] at hrefs
  have hrecorded : ((T.closeObject (T.objects b fd)).setObject b fd .zeroed).recorded r =
      (T.closeObject (T.objects b fd)).recorded r := by
    cases r with
    | readEnd h => rfl
    | writeEnd h => rfl
    | socket h => rfl
  have hzero : ObjectSlot.zeroed.ref ≠ some r := by simp [ObjectSlot.zeroed, ObjectSlot.ref]
  rw [hrecorded, recorded_closeObject, hT.counts r, List.count_nil]
  rw [if_neg hzero] at hrefs
  omega

theorem Torn.closeRow (hT : T.Torn) (b n : ℕ) :
  (T.closeRow b n).Torn
  := by
  induction n with
  | zero => exact hT
  | succ n ih => exact ih.closeObject _

/-- Each slot of the row gives one reference back. -/
theorem recorded_closeRow (T : Tables) (b n : ℕ) (r : Ref) :
  (T.closeRow b n).recorded r =
    T.recorded r - ∑ fd ∈ range n, if (T.objects b fd).ref = some r then 1 else 0
  := by
  induction n with
  | zero => rfl
  | succ n ih =>
    rw [closeRow, recorded_closeObject, ih, sum_range_succ, Nat.sub_sub]

/-- A client exits: its slots are closed and then forgotten together. -/
theorem Owes.exit (hT : T.Owes []) (hb : b ∈ T.clients) :
  ((T.closeRow b maxClientObjects).removeClient b).Owes []
  := by
  obtain ⟨hclients, hobjects⟩ := T.slots_closeRow b maxClientObjects
  have htorn := hT.torn.closeRow b maxClientObjects
  refine ⟨?_, ⟨htorn.pipes_lt, htorn.sockets_lt, htorn.torn, htorn.closed⟩⟩
  intro r
  have hrefs := refs_removeClient (T := T.closeRow b maxClientObjects) (hclients ▸ hb) r
  have hsame : (T.closeRow b maxClientObjects).refs r = T.refs r := by
    unfold refs
    rw [hclients, hobjects]
  have hrecorded : ((T.closeRow b maxClientObjects).removeClient b).recorded r =
      (T.closeRow b maxClientObjects).recorded r := by
    cases r with
    | readEnd h => rfl
    | writeEnd h => rfl
    | socket h => rfl
  rw [hsame, hobjects] at hrefs
  rw [hrecorded, recorded_closeRow, hT.counts r, List.count_nil]
  change T.refs r + 0 - rowRefs (T.objects b) r = _
  omega

end Tables

end SaltyOS.Vfs
