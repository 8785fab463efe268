import SaltyOS.Tcp.SendRuns

/-!
# The identifiers of TCP sockets

What the operations do to the identifiers of the control blocks: a block keeps its identifier as long
as it is active, and a block becomes active only when it is given the next identifier.
-/

open Function

namespace SaltyOS.Tcp

/-- Whether a block is active, and its identifier. -/
def Tcb.ident (t : Tcb) : Bool × ℕ := (t.active, t.connId)

/-- A block keeps its identifier, or becomes inactive. -/
def Tcb.KeepsId (t t' : Tcb) : Prop := t'.active = true → t'.ident = t.ident

namespace Tcb.KeepsId

variable {t t' t'' : Tcb}

theorem of_ident (h : t'.ident = t.ident) :
  t.KeepsId t'
  := fun _ => h

theorem of_inactive (h : t'.active = false) :
  t.KeepsId t'
  := by
  intro hactive
  rw [h] at hactive
  cases hactive

theorem trans (h : t.KeepsId t') (h' : t'.KeepsId t'') :
  t.KeepsId t''
  := by
  intro hactive
  have hident := h' hactive
  have hactive' : t'.active = true := (congrArg Prod.fst hident).symm.trans hactive
  exact hident.trans (h hactive')

/-- A block that is given up keeps its identifier. -/
theorem closePreserveSocket (h : t'.ident = t.ident) (hactive : t.active = true) (err : Label) :
  t.KeepsId (t'.closePreserveSocket err)
  := by
  intro _
  have hid : t'.connId = t.connId := congrArg Prod.snd h
  change (true, t'.connId) = (t.active, t.connId)
  rw [hid, hactive]

end Tcb.KeepsId

namespace System

variable {s : System} {i : Fin maxTcpConns} {e : Event} {c d : Conn}

/-- A move of an event that gives no identifier. -/
theorem keepsId_move (htakes : e.takesId s = false) (h : Move s i e c d) :
  c.tcb.KeepsId d.tcb
  := by
  have hident {t t' : Tcb} (h : t'.core.owner = t.core.owner) : t.KeepsId t' :=
    .of_ident (congrArg (fun k => (k.1, k.2.2.1)) h)
  cases h with
  | quiet h => exact hident (congrArg Core.owner h.core)
  | reset => exact .of_inactive rfl
  | closed err hactive => exact .closePreserveSocket rfl hactive err
  | opened htakes' _ => cases htakes'.symm.trans htakes
  | child _ _ _ _ _ _ _ htakes' _ => cases htakes'.symm.trans htakes
  | send => exact hident (Conn.tcpSend_owner ..)
  | syn =>
    unfold Conn.answerSyn
    split_ifs
    · exact .of_ident (congrArg (fun k => (k.active, k.connId)) (Conn.reportConnect_sameCore _).core)
    · exact .of_ident rfl
  | ack => exact hident (Conn.processAck_owner ..)
  | finished _ _ _ hcore => exact .of_ident (congrArg (fun k => (k.active, k.connId)) hcore)
  | retransmit => exact hident (Conn.retransmit_owner _)
  | _ => exact .of_ident rfl

variable {t u : System}

/-! ## The identifiers of all blocks -/

/-- No block gets an identifier. -/
structure KeepsIds (s t : System) : Prop where
  next : t.nextConnId = s.nextConnId
  block : ∀ i, (s.tcbs i).KeepsId (t.tcbs i)

/-- An inactive block becomes active and gets the next identifier. -/
structure TakesId (s t : System) (j : Fin maxTcpConns) : Prop where
  next : t.nextConnId = s.allocConnId.nextConnId
  inactive : (s.tcbs j).active = false
  ident : (t.tcbs j).ident = (true, s.nextConnId)
  block : ∀ i, i ≠ j → (s.tcbs i).KeepsId (t.tcbs i)

namespace KeepsIds

theorem trans (h : KeepsIds s t) (h' : KeepsIds t u) :
  KeepsIds s u
  := ⟨h'.next.trans h.next, fun i => (h.block i).trans (h'.block i)⟩

/-- A block is changed and keeps its identifier. -/
theorem updateTcb (s : System) (i : Fin maxTcpConns) {f : Tcb → Tcb}
    (hf : (f (s.tcbs i)).ident = (s.tcbs i).ident) :
  KeepsIds s (s.updateTcb i f)
  := by
  refine ⟨rfl, (forall_update_iff s.tcbs fun j => (s.tcbs j).KeepsId).mpr ?_⟩
  exact ⟨.of_ident hf, fun _ _ => .of_ident rfl⟩

end KeepsIds

/-- An event that gives no identifier. -/
theorem keepsIds_exec {e : Event} (htakes : e.takesId s = false) :
  KeepsIds s (e.exec s)
  := by
  have hholds : Holds (fun i c => (s.tcbs i).KeepsId c.tcb) s e (e.exec s) := by
    refine holds_exec (fun i c d hm hc => hc.trans (keepsId_move htakes hm))
      ⟨fun i => .of_ident rfl, fun x hx => .inl hx, fun _ => rfl⟩ fun i c hc => hc
  exact ⟨hholds.next htakes, hholds.conn⟩

/-! ## Blocks that become active -/

/-- All blocks keep their identifiers and are as active as before. -/
structure SameIds (s t : System) : Prop where
  next : t.nextConnId = s.nextConnId
  ident : ∀ i, (t.tcbs i).ident = (s.tcbs i).ident

namespace SameIds

section

variable (s : System) (i : Fin maxTcpConns)

theorem setTcb {tcb : Tcb} (h : tcb.ident = (s.tcbs i).ident) :
  SameIds s (s.setTcb i tcb)
  := by
  refine ⟨rfl, (forall_update_iff s.tcbs fun j t => t.ident = (s.tcbs j).ident).mpr ?_⟩
  exact ⟨h, fun _ _ => rfl⟩

theorem updateTcb {f : Tcb → Tcb} (hf : (f (s.tcbs i)).ident = (s.tcbs i).ident) :
  SameIds s (s.updateTcb i f)
  := setTcb s i hf

theorem onBlock {f : Conn → Conn} (hf : (f (s.conn i)).tcb.ident = (s.tcbs i).ident) :
  SameIds s (s.onBlock i f)
  := by
  have hset := setTcb s i hf
  refine ⟨pushAll_nextConnId _ i _, fun j => ?_⟩
  unfold System.onBlock
  rw [finish_tcbs]
  exact hset.ident j

end

end SameIds

namespace TakesId

variable {j : Fin maxTcpConns}

/-- What happens after an identifier was taken. -/
theorem trans (h : TakesId s t j) (h' : SameIds t u) :
  TakesId s u j
  := by
  use h'.next.trans h.next, h.inactive, (h'.ident j).trans h.ident
  intro i hi
  exact (h.block i hi).trans (.of_ident (h'.ident i))

/-- What happens before an identifier is taken. -/
theorem before (h : KeepsIds s t) (hactive : (s.tcbs j).active = false) (h' : TakesId t u j) :
  TakesId s u j
  := by
  refine ⟨?_, hactive, ?_, fun i hi => (h.block i).trans (h'.block i hi)⟩
  · rw [h'.next]
    unfold allocConnId
    rw [h.next]
  · rw [h'.ident, h.next]

/-- A block becomes active. -/
theorem updateTcb (hinactive : (s.tcbs j).active = false) {f : Tcb → Tcb}
    (hf : (f (s.tcbs j)).ident = (true, s.nextConnId)) :
  TakesId s (s.allocConnId.updateTcb j f) j
  := by
  refine ⟨rfl, hinactive, ?_, ?_⟩
  · change (update s.tcbs j (f (s.tcbs j)) j).ident = _
    rw [update_self]
    exact hf
  · intro i hi
    change (s.tcbs i).KeepsId (update s.tcbs j (f (s.tcbs j)) i)
    rw [update_of_ne hi]
    exact .of_ident rfl

end TakesId

/-- What an event does to the identifiers. -/
def IdStep (s t : System) (takes : Bool) : Prop :=
  KeepsIds s t ∨ takes = true ∧ ∃ j, TakesId s t j

theorem takesId_handleNetAccept {connId : ℕ} {armPending : Bool}
    (htakes : Event.takesId s (.accept connId armPending) = true) :
  ∃ j, TakesId s (s.handleNetAccept connId armPending) j
  := by
  obtain ⟨hfree, hany⟩ := Bool.and_eq_true_iff.mp htakes
  obtain ⟨j, hj⟩ := Option.isSome_iff_exists.mp hfree
  obtain ⟨i, hi, hlisten⟩ := (Option.any_eq_true _ _).mp hany
  have hinactive := inactive_of_findFreeTcb hj
  have hij : j ≠ i := by
    rintro rfl
    rw [active_of_findTcbByConnId hi] at hinactive
    cases hinactive
  rcases hbacklog : (s.tcbs i).backlog with _ | ⟨pending, rest⟩
  · simp [hbacklog] at hlisten
  have hstate : (s.tcbs i).state = .listen := by simpa [hbacklog] using hlisten
  have htake : TakesId s (s.newCall.acceptFirst i j pending rest s.nextCall) j := by
    have hcall : KeepsIds s s.newCall := ⟨rfl, fun _ => .of_ident rfl⟩
    have hrest : KeepsIds s (s.newCall.updateTcb i fun t => { t with backlog := rest }) :=
      hcall.trans (.updateTcb s.newCall i rfl)
    apply TakesId.before hrest hinactive
    apply TakesId.updateTcb
    · change (update s.tcbs i _ j).active = false
      rw [update_of_ne hij]
      exact hinactive
    · rfl
  have haccept : TakesId s (s.newCall.tcpAccept connId s.nextCall) j := by
    unfold tcpAccept
    rw [show s.newCall.findTcbByConnId connId = some i from hi]
    dsimp only
    have hlisten : ¬ (s.newCall.tcbs i).state ≠ .listen := not_not.mpr hstate
    rw [if_neg hlisten, show (s.newCall.tcbs i).backlog = _ from hbacklog,
      show s.newCall.findFreeTcb = _ from hj]
    exact htake
  unfold handleNetAccept setPendingAccept
  split_ifs
  · split
    · exact ⟨j, haccept⟩
    · exact ⟨j, haccept.trans (.updateTcb _ _ rfl)⟩
  · exact ⟨j, haccept⟩

theorem takesId_handleSegment {ipSrc ipDst : ℕ} {hdr : Header} {payload : List Byte} {isn : Seq}
    {now : ℕ} (htakes : Event.takesId s (.segment ipSrc ipDst hdr payload isn now) = true) :
  ∃ j, TakesId s (s.handleSegment ipSrc ipDst hdr payload isn now) j
  := by
  obtain ⟨hfree, hany⟩ := Bool.and_eq_true_iff.mp htakes
  obtain ⟨hfree, hnone⟩ := Bool.and_eq_true_iff.mp hfree
  obtain ⟨j, hj⟩ := Option.isSome_iff_exists.mp hfree
  obtain ⟨i, hi, hflags⟩ := (Option.any_eq_true _ _).mp hany
  obtain ⟨⟨⟨hrst, hack⟩, hsyn⟩, hpending⟩ : ((hdr.flags.rst = false ∧ hdr.flags.ack = false) ∧
      hdr.flags.syn = true) ∧ (s.tcbs i).pendingAccept.isSome = true := by simpa using hflags
  have hchild : TakesId s (s.allocConnId.updateTcb j fun t =>
      { childTcb (s.tcbs i) t s.nextConnId ipSrc hdr.srcPort hdr.seq isn (s.tcbs i).pendingAccept with
        sndWnd := hdr.window }) j :=
    .updateTcb (inactive_of_findFreeTcb hj) rfl
  use j
  unfold handleSegment handleListen
  rw [Option.isNone_iff_eq_none.mp hnone, hi]
  simp only [hrst, hack, hsyn, hpending, hj, Bool.false_eq_true, if_false, not_true_eq_false, if_true]
  exact (hchild.trans (.onBlock _ j rfl)).trans (.updateTcb _ i rfl)

theorem takesId_exec {e : Event} (htakes : e.takesId s = true) :
  ∃ j, TakesId s (e.exec s) j
  := by
  cases e with
  | socket =>
    obtain ⟨j, hj⟩ := Option.isSome_iff_exists.mp htakes
    use j
    unfold Event.exec tcpSocket
    rw [hj]
    exact .updateTcb (inactive_of_findFreeTcb hj) rfl
  | accept => exact takesId_handleNetAccept htakes
  | segment => exact takesId_handleSegment htakes
  | _ => cases htakes

/-- What every event does to the identifiers. -/
theorem idStep_exec (s : System) (e : Event) :
  IdStep s (e.exec s) (Event.takesId s e)
  := by
  cases htakes : e.takesId s with
  | false => exact .inl (keepsIds_exec htakes)
  | true => exact .inr ⟨rfl, takesId_exec htakes⟩

end System

end SaltyOS.Tcp
