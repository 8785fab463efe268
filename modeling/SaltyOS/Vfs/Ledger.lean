import SaltyOS.Vfs.Frame

/-!
# Waiting callers

A request is answered at once, or its caller is saved in a reply slot and a record of the waiting
client is kept: at a pipe, at a socket, with the sleeping clients, with the readers of a terminal, or
with the clients of the network server. This module says when the records and the saved callers
agree, and what an operation may do to both: a record goes away together with a message to its slot,
or it is lost.
-/

open Function

namespace SaltyOS.Vfs

/-! ## The kernel -/

namespace Kernel

/-- A message to the caller that was saved in the slot of a waiter. -/
def send (K : Kernel) (w : Waiter) (reply : Reply) : Kernel :=
  match K.saved w.slot with
  | none => K
  | some c =>
    { K with
      saved := update K.saved w.slot none
      delivered := K.delivered ++ [(c, reply)] }

/-- Several messages. -/
def sendAll (K : Kernel) (messages : List (Waiter × Reply)) : Kernel :=
  messages.foldl (fun L m => L.send m.1 m.2) K

/-- The numbers of the requests that were answered. -/
def answered (K : Kernel) : List ℕ := K.delivered.map fun x => x.1.request

/-- The saved callers with their slots. -/
def waiting (K : Kernel) : Multiset Waiter :=
  (Multiset.range capReplyLimit).filterMap fun i =>
    (K.saved i).map fun c => { slot := i, badge := c.badge, request := c.request }

variable {K : Kernel} {w : Waiter}

/-- The callers that are saved, with their slots. -/
theorem mem_waiting :
  w ∈ K.waiting ↔ w.slot < capReplyLimit ∧ K.saved w.slot = some w.caller
  := by
  simp only [waiting, Multiset.mem_filterMap, Multiset.mem_range, Option.map_eq_some_iff]
  constructor
  · rintro ⟨i, hi, c, hc, rfl⟩
    exact ⟨hi, hc⟩
  · rintro ⟨hlt, hsaved⟩
    exact ⟨w.slot, hlt, w.caller, hsaved, rfl⟩

/-- A slot saves one caller. -/
theorem nodup_waiting (K : Kernel) :
  K.waiting.Nodup
  := by
  apply Multiset.Nodup.filterMap _ _ (Multiset.nodup_range _)
  intro i j w hi hj
  obtain ⟨c, -, rfl⟩ := Option.map_eq_some_iff.mp hi
  obtain ⟨d, -, hd⟩ := Option.map_eq_some_iff.mp hj
  exact (congrArg Waiter.slot hd).symm

/-- Each slot holds one caller. -/
theorem nodup_slot (K : Kernel) :
  (K.waiting.map fun w => w.slot).Nodup
  := by
  apply Multiset.Nodup.map_on _ K.nodup_waiting
  intro v hv w hw hslot
  have hsaved := (mem_waiting.mp hv).2
  rw [hslot, (mem_waiting.mp hw).2] at hsaved
  cases v
  cases w
  cases hslot
  cases hsaved
  rfl

/-- The caller in a slot changes. -/
theorem waiting_of_update {L : Kernel} (hlt : w.slot < capReplyLimit) (hsaved : L.saved w.slot = none)
    (hupdate : K.saved = update L.saved w.slot (some w.caller)) :
  K.waiting = w ::ₘ L.waiting
  := by
  have hnot : w ∉ L.waiting := by
    intro hw
    rw [mem_waiting, hsaved] at hw
    cases hw.2
  apply (Multiset.Nodup.ext K.nodup_waiting (Multiset.nodup_cons.mpr ⟨hnot, L.nodup_waiting⟩)).mpr
  intro v
  rw [Multiset.mem_cons, mem_waiting, mem_waiting, hupdate, update_apply]
  split_ifs with hv
  · constructor
    · rintro ⟨-, hcaller⟩
      left
      cases v
      cases w
      cases hv
      cases hcaller
      rfl
    · rintro (rfl | ⟨-, hv'⟩)
      · exact ⟨hlt, rfl⟩
      · rw [hv, hsaved] at hv'
        cases hv'
  · constructor
    · exact .inr
    · rintro (rfl | hv')
      · exact absurd rfl hv
      · exact hv'

/-- A message to a saved caller. -/
theorem send_of_mem (hw : w ∈ K.waiting) (reply : Reply) :
  K.waiting = w ::ₘ (K.send w reply).waiting ∧ (K.send w reply).answered = K.answered ++ [w.request] ∧
    (K.send w reply).caller = K.caller ∧ (K.send w reply).requests = K.requests ∧
    ∀ i, K.saved i = none → (K.send w reply).saved i = none
  := by
  obtain ⟨hlt, hsaved⟩ := mem_waiting.mp hw
  have hsend : K.send w reply = { K with
      saved := update K.saved w.slot none
      delivered := K.delivered ++ [(w.caller, reply)] } := by
    simp only [send, hsaved]
  rw [hsend]
  refine ⟨waiting_of_update hlt (update_self ..) ?_, ?_, rfl, rfl, ?_⟩
  · rw [update_idem, ← hsaved, update_eq_self]
  · simp [answered, Waiter.caller]
  intro i hi
  dsimp only
  rw [update_apply, hi, ite_self]

end Kernel

/-! ## Records -/

/-- The clients that wait at a pipe. -/
def PipeState.waiters (p : PipeState) : Multiset Waiter :=
  (p.recvWaiters.map fun r => r.waiter : Multiset Waiter) + p.writeWaiters.map fun w => w.waiter

/-- The clients that wait at a socket. -/
def SocketState.waiters (k : SocketState) : Multiset Waiter :=
  (k.acceptWaiter.toList : Multiset Waiter) + k.recvWaiter.toList +
    k.pending.reduceOption.map fun p => p.waiter

/-- The clients that wait at pipes and sockets. -/
def Tables.waiters (T : Tables) : Multiset Waiter :=
  Cells.holdings PipeState.waiters T.nextPipe T.pipes +
    Cells.holdings SocketState.waiters T.nextSocket T.sockets

/-- The clients that sleep, or that wait for terminals or for the network. -/
def State.sleepers (s : State) : Multiset Waiter :=
  (s.pollWaiters.map fun w => w.waiter : Multiset Waiter) + s.ptyPending.map (fun r => r.waiter) +
    s.inetPending.reduceOption.map fun op => op.waiter

/-- All clients that wait. -/
def State.records (s : State) : Multiset Waiter := s.toTables.waiters + s.sleepers

/-- No client waits for an end of a pipe that is gone. -/
def PipeState.Sane (p : PipeState) : Prop :=
  (p.readRefcount = 0 → p.writeWaiters = []) ∧ (p.writeRefcount = 0 → p.recvWaiters = [])

/-- The count of the connections that wait to be accepted is right. -/
def SocketState.Sane (k : SocketState) : Prop :=
  k.pending.length = initialPendingConn ∧ k.pendingCount = k.pending.reduceOption.length ∧
    k.backlog ≤ initialPendingConn

/-- Handles that were not given yet are not in use, and every pipe and every socket is in order. -/
structure Tables.Sane (T : Tables) : Prop where
  pipes_lt : ∀ h, T.nextPipe ≤ h → T.pipes h = none
  sockets_lt : ∀ h, T.nextSocket ≤ h → T.sockets h = none
  pipe : ∀ h p, T.pipes h = some p → p.Sane
  socket : ∀ h k, T.sockets h = some k → k.Sane

namespace Tables

variable {T : Tables} {h : ℕ}
variable {p : PipeState} {k : SocketState}

section

variable (hT : T.Sane)
include hT

/-- A pipe in the table has a number that was given. -/
theorem Sane.lt_nextPipe (hp : T.pipes h = some p) :
  h < T.nextPipe
  := by
  by_contra hge
  rw [hT.pipes_lt h (Nat.le_of_not_lt hge)] at hp
  cases hp

theorem Sane.lt_nextSocket (hk : T.sockets h = some k) :
  h < T.nextSocket
  := by
  by_contra hge
  rw [hT.sockets_lt h (Nat.le_of_not_lt hge)] at hk
  cases hk

/-- A pipe is replaced by one that is sane too, or released. -/
theorem Sane.updatePipe (hp : T.pipes h = some p) {x : Option PipeState}
    (hsane : ∀ p' ∈ x, p.Sane → p'.Sane) :
  Sane { T with pipes := update T.pipes h x }
  := by
  refine ⟨?_, hT.sockets_lt, ?_, hT.socket⟩
  · intro g hg
    dsimp only
    rw [update_of_ne (Nat.ne_of_gt (Nat.lt_of_lt_of_le (hT.lt_nextPipe hp) hg))]
    exact hT.pipes_lt g hg
  intro g q hq
  dsimp only at hq
  rw [update_apply] at hq
  split_ifs at hq
  · exact hsane q hq (hT.pipe h p hp)
  · exact hT.pipe g q hq

theorem Sane.updateSocket (hk : T.sockets h = some k) {x : Option SocketState}
    (hsane : ∀ k' ∈ x, k.Sane → k'.Sane) :
  Sane { T with sockets := update T.sockets h x }
  := by
  refine ⟨hT.pipes_lt, ?_, hT.pipe, ?_⟩
  · intro g hg
    dsimp only
    rw [update_of_ne (Nat.ne_of_gt (Nat.lt_of_lt_of_le (hT.lt_nextSocket hk) hg))]
    exact hT.sockets_lt g hg
  intro g c hc
  dsimp only at hc
  rw [update_apply] at hc
  split_ifs at hc
  · exact hsane c hc (hT.socket h k hk)
  · exact hT.socket g c hc

/-- A new pipe has no waiters. -/
theorem Sane.addPipe :
  T.addPipe.Sane
  := by
  refine ⟨?_, hT.sockets_lt, ?_, hT.socket⟩
  · intro g hg
    have hg' : T.nextPipe + 1 ≤ g := hg
    rw [pipes_addPipe, if_neg (Nat.ne_of_gt hg')]
    exact hT.pipes_lt g (Nat.le_of_succ_le hg')
  intro g q hq
  rw [pipes_addPipe] at hq
  split_ifs at hq
  · cases hq
    exact ⟨fun _ => rfl, fun _ => rfl⟩
  · exact hT.pipe g q hq

theorem Sane.addSocket (hk : k.Sane) :
  (T.addSocket k).Sane
  := by
  refine ⟨hT.pipes_lt, ?_, hT.pipe, ?_⟩
  · intro g hg
    have hg' : T.nextSocket + 1 ≤ g := hg
    rw [sockets_addSocket, if_neg (Nat.ne_of_gt hg')]
    exact hT.sockets_lt g (Nat.le_of_succ_le hg')
  intro g c hc
  rw [sockets_addSocket] at hc
  split_ifs at hc
  · cases hc
    exact hk
  · exact hT.socket g c hc

/-- The records of the old pipe go and those of the new one come. -/
theorem waiters_updatePipe (hp : T.pipes h = some p) (x : Option PipeState) :
  waiters { T with pipes := update T.pipes h x } + p.waiters = T.waiters + x.elim 0 PipeState.waiters
  := by
  have hupdate := Cells.holdings_update (w := PipeState.waiters) (f := T.pipes) (hT.lt_nextPipe hp) x
  rw [hp] at hupdate
  unfold waiters
  rw [add_right_comm, add_right_comm _ _ (x.elim 0 PipeState.waiters)]
  exact congrArg (· + _) hupdate

/-- The records of the old socket go and those of the new one come. -/
theorem waiters_updateSocket (hk : T.sockets h = some k) (x : Option SocketState) :
  waiters { T with sockets := update T.sockets h x } + k.waiters =
    T.waiters + x.elim 0 SocketState.waiters
  := by
  have hupdate := Cells.holdings_update (w := SocketState.waiters) (f := T.sockets)
    (hT.lt_nextSocket hk) x
  rw [hk] at hupdate
  unfold waiters
  rw [add_assoc, add_assoc]
  exact congrArg (_ + ·) hupdate

end

theorem waiters_addPipe (T : Tables) :
  T.addPipe.waiters = T.waiters
  := by
  have hsucc := Cells.holdings_succ (w := PipeState.waiters) (n := T.nextPipe) (f := T.pipes)
    (some .new)
  exact congrArg (· + _) (hsucc.trans (add_zero _))

theorem waiters_addSocket (T : Tables) (hk : k.waiters = 0) :
  (T.addSocket k).waiters = T.waiters
  := by
  have hsucc := Cells.holdings_succ (w := SocketState.waiters) (n := T.nextSocket)
    (f := T.sockets) (some k)
  rw [Option.elim_some, hk, add_zero] at hsucc
  exact congrArg (_ + ·) hsucc

end Tables

/-! ## Saved callers and records -/

/-- What is kept while an event is handled: whether no record of a client is lost, unless the client
is gone, the requests that were answered, the current caller and the number of requests. -/
structure Due where
  careful : Prop
  gone : Caller → Prop
  answered : List ℕ
  caller : Option Caller
  requests : ℕ

/-- The current caller was answered or saved. -/
def Due.done (d : Due) : Due := { d with caller := none }

namespace State

variable {d : Due} {s t : State} {h : ℕ} {p : PipeState} {k : SocketState} {w : Waiter}
  {m : List (Waiter × Reply)} {l e e' : Multiset Waiter}

theorem sendAll_eq (s : State) (messages : List (Waiter × Reply)) :
  s.sendAll messages = { s with toKernel := s.toKernel.sendAll messages }
  := by
  induction messages generalizing s with
  | nil => rfl
  | cons m messages ih =>
    have hsend : s.send m.1 m.2 = { s with toKernel := s.toKernel.send m.1 m.2 } := by
      unfold send Kernel.send
      cases s.saved m.1.slot with
      | none => rfl
      | some c => rfl
    change (s.send m.1 m.2).sendAll messages = _
    rw [ih, hsend]
    rfl

/-- The tables are in order, the saved callers are those of the records and of the records that were
lost, and every request was answered once, or its caller is saved or is the current one. The records
`e` are not part of the state yet, or not any more. -/
structure Booked (d : Due) (e : Multiset Waiter) (s : State) : Prop where
  sane : s.Sane
  slot : s.nextReplySlot < capReplyLimit
  range : ∀ i, capReplyLimit ≤ i → s.saved i = none
  waiting : ∃ lost, s.waiting = s.records + e + lost ∧ (d.careful → ∀ w ∈ lost, d.gone w.caller)
  once : (s.answered : Multiset ℕ) + s.waiting.map (fun w => w.request) +
    (s.caller.map fun c => c.request).toList = Multiset.range s.requests
  answered : d.answered ⊆ s.answered
  caller : s.caller = d.caller
  requests : s.requests = d.requests

theorem booked_initial :
  Booked { careful := True, gone := fun _ => False, answered := [], caller := none, requests := 0 } 0
    initial
  := by
  refine ⟨⟨fun _ _ => rfl, fun _ _ => rfl, nofun, nofun⟩, by decide, fun _ _ => rfl, ⟨0, ?_, nofun⟩, ?_,
    List.Subset.refl _, rfl, rfl⟩
  · rfl
  · rfl

/-- The requests that were answered up to now. -/
theorem Booked.since (hs : Booked d e s) :
  Booked { d with answered := s.answered } e s
  := ⟨hs.sane, hs.slot, hs.range, hs.waiting, hs.once, List.Subset.refl _, hs.caller, hs.requests⟩

/-- Records may be lost. -/
theorem Booked.forget (hs : Booked d e s) :
  Booked { d with careful := False, answered := s.answered } e s
  := by
  obtain ⟨lost, hlost, -⟩ := hs.waiting
  exact ⟨hs.sane, hs.slot, hs.range, ⟨lost, hlost, nofun⟩, hs.once, List.Subset.refl _, hs.caller,
    hs.requests⟩

section

variable (hs : Booked d e s)
include hs

/-- Every record is that of a saved caller. -/
theorem Booked.mem_waiting (hw : w ∈ s.records + e) :
  w ∈ s.waiting
  := by
  obtain ⟨lost, hlost, -⟩ := hs.waiting
  rw [hlost]
  exact Multiset.mem_add.mpr (.inl hw)

/-- A saved caller was not answered, and is not saved twice. -/
theorem Booked.nodup :
  (s.answered : Multiset ℕ).Nodup ∧ (s.waiting.map fun w => w.request).Nodup ∧
    ∀ w ∈ s.waiting, w.request < s.requests ∧ w.request ∉ s.answered
  := by
  have honce := Multiset.nodup_range s.requests
  rw [← hs.once] at honce
  obtain ⟨honce, -, -⟩ := Multiset.nodup_add.mp honce
  obtain ⟨hanswered, hwaiting, hdisjoint⟩ := Multiset.nodup_add.mp honce
  refine ⟨hanswered, hwaiting, fun w hw => ?_⟩
  have hmem : w.request ∈ s.waiting.map fun w => w.request := Multiset.mem_map_of_mem _ hw
  refine ⟨?_, fun hdone => Multiset.disjoint_left.mp hdisjoint (Multiset.mem_coe.mpr hdone) hmem⟩
  rw [← Multiset.mem_range, ← hs.once]
  exact Multiset.mem_add.mpr (.inl (Multiset.mem_add.mpr (.inr hmem)))

/-- The records move, and nobody gets a message. -/
theorem Booked.move (hsane : s.Sane → t.Sane) (hnext : t.nextReplySlot = s.nextReplySlot)
    (hrecords : s.Sane → t.records + e' = s.records + e) (hkernel : t.toKernel = s.toKernel) :
  Booked d e' t
  := by
  refine ⟨hsane hs.sane, hnext ▸ hs.slot, ?_, ?_, ?_, ?_, ?_, ?_⟩
  all_goals rw [hkernel]
  · exact hs.range
  · rw [hrecords hs.sane]
    exact hs.waiting
  · exact hs.once
  · exact hs.answered
  · exact hs.caller
  · exact hs.requests

/-- The slots, the clients or the event queues change. -/
theorem Booked.of_slots (hpipes : t.pipes = s.pipes) (hnextPipe : t.nextPipe = s.nextPipe)
    (hsockets : t.sockets = s.sockets) (hnextSocket : t.nextSocket = s.nextSocket)
    (hsleepers : t.sleepers = s.sleepers) (hnext : t.nextReplySlot = s.nextReplySlot)
    (hkernel : t.toKernel = s.toKernel) :
  Booked d e t
  := by
  apply hs.move _ hnext _ hkernel
  · rintro ⟨hpipes', hsockets', hpipe, hsocket⟩
    rw [← hpipes, ← hnextPipe] at hpipes'
    rw [← hsockets, ← hnextSocket] at hsockets'
    rw [← hpipes] at hpipe
    rw [← hsockets] at hsocket
    exact ⟨hpipes', hsockets', hpipe, hsocket⟩
  · intro _
    unfold records Tables.waiters
    rw [hpipes, hnextPipe, hsockets, hnextSocket, hsleepers]

theorem Booked.setObject (b fd : ℕ) (o : ObjectSlot) :
  Booked d e (s.setObject b fd o)
  := hs.of_slots rfl rfl rfl rfl rfl rfl rfl

/-- A pipe changes or goes away, and the clients that wait at it move. -/
theorem Booked.updatePipe {x : Option PipeState} (hp : s.pipes h = some p)
    (hsane : ∀ p' ∈ x, p.Sane → p'.Sane) (hw : x.elim 0 PipeState.waiters + e' = p.waiters + e) :
  Booked d e' { s with pipes := update s.pipes h x }
  := by
  refine hs.move (fun hs => hs.updatePipe hp hsane) rfl (fun hs => ?_) rfl
  exact Cells.add_balance (Tables.waiters_updatePipe hs hp x) hw

/-- A socket changes or goes away, and the clients that wait at it move. -/
theorem Booked.updateSocket {x : Option SocketState} (hk : s.sockets h = some k)
    (hsane : ∀ k' ∈ x, k.Sane → k'.Sane)
    (hw : x.elim 0 SocketState.waiters + e' = k.waiters + e) :
  Booked d e' { s with sockets := update s.sockets h x }
  := by
  refine hs.move (fun hs => hs.updateSocket hk hsane) rfl (fun hs => ?_) rfl
  exact Cells.add_balance (Tables.waiters_updateSocket hs hk x) hw

theorem Booked.setPipe {p' : PipeState} (hp : s.pipes h = some p) (hsane : p.Sane → p'.Sane)
    (hw : p'.waiters + e' = p.waiters + e) :
  Booked d e' (s.setPipe h p')
  := by
  refine hs.updatePipe (x := some p') hp ?_ hw
  rintro _ ⟨⟩
  exact hsane

theorem Booked.setSocket {k' : SocketState} (hk : s.sockets h = some k) (hsane : k.Sane → k'.Sane)
    (hw : k'.waiters + e' = k.waiters + e) :
  Booked d e' (s.setSocket h k')
  := by
  refine hs.updateSocket (x := some k') hk ?_ hw
  rintro _ ⟨⟩
  exact hsane

theorem Booked.addPipe :
  Booked d e s.addPipe
  := by
  refine hs.move (t := s.addPipe) Tables.Sane.addPipe rfl (fun _ => ?_) rfl
  exact congrArg (· + _ + _) s.toTables.waiters_addPipe

theorem Booked.addSocket (hk : k.Sane) (hw : k.waiters = 0) :
  Booked d e (s.addSocket k)
  := by
  refine hs.move (t := s.addSocket k) (fun hs => hs.addSocket hk) rfl (fun _ => ?_) rfl
  exact congrArg (· + _ + _) (s.toTables.waiters_addSocket hw)

end

/-- Some records are lost. -/
theorem Booked.drop (hs : Booked d (l + e) s)
    (hl : d.careful → ∀ w ∈ l, w.request < d.requests → d.gone w.caller) :
  Booked d e s
  := by
  obtain ⟨lost, hwaiting, hlost⟩ := hs.waiting
  refine ⟨hs.sane, hs.slot, hs.range, ⟨l + lost, ?_, ?_⟩, hs.once, hs.answered, hs.caller, hs.requests⟩
  · rw [hwaiting]
    abel
  intro hd w hw
  obtain hw | hw := Multiset.mem_add.mp hw
  · apply hl hd w hw
    rw [← hs.requests]
    refine (hs.nodup.2.2 w (hs.mem_waiting ?_)).1
    exact Multiset.mem_add.mpr (.inr (Multiset.mem_add.mpr (.inl hw)))
  · exact hlost hd w hw

/-- The record of a client goes away together with a message. -/
theorem Booked.send (hs : Booked d (w ::ₘ e) s) (reply : Reply) :
  Booked d e (s.send w reply)
  := by
  have hw : w ∈ s.waiting := hs.mem_waiting (Multiset.mem_add.mpr (.inr (Multiset.mem_cons_self w e)))
  obtain ⟨hwaiting, hanswered, hcaller, hrequests, hrange⟩ := Kernel.send_of_mem hw reply
  have hsend : s.send w reply = { s with toKernel := s.toKernel.send w reply } :=
    sendAll_eq s [(w, reply)]
  rw [hsend]
  refine ⟨hs.sane, hs.slot, fun i hi => hrange i (hs.range i hi), ?_, ?_, ?_, ?_, ?_⟩
  · obtain ⟨lost, hlost, hgone⟩ := hs.waiting
    refine ⟨lost, ?_, hgone⟩
    rw [hwaiting, Multiset.add_cons, Multiset.cons_add] at hlost
    exact Multiset.cons_inj_right w |>.mp hlost
  · have honce := hs.once
    rw [hwaiting, Multiset.map_cons, Multiset.add_cons] at honce
    rw [hanswered, hcaller, hrequests, ← honce, ← Multiset.coe_add, Multiset.coe_singleton,
      ← Multiset.singleton_add]
    abel
  · rw [hanswered]
    exact fun n hn => List.mem_append_left _ (hs.answered hn)
  · exact hcaller.trans hs.caller
  · exact hrequests.trans hs.requests

theorem Booked.sendAll (hs : Booked d ((m.map fun x => x.1 : List Waiter) + e) s) :
  Booked d e (s.sendAll m)
  := by
  induction m generalizing s with
  | nil =>
    rw [List.map_nil, Multiset.coe_nil, zero_add] at hs
    exact hs
  | cons x m ih =>
    rw [List.map_cons, ← Multiset.cons_coe, Multiset.cons_add] at hs
    exact ih (hs.send x.2)

/-! ## Sleeping clients -/

section

variable (hs : Booked d e s)
include hs

/-- Some records are removed from a list. -/
theorem Booked.filter {α : Type*} {f : α → Waiter} {xs : List α} (chosen : α → Bool)
    (htables : t.toTables = s.toTables) (hnext : t.nextReplySlot = s.nextReplySlot)
    (hkernel : t.toKernel = s.toKernel) {r : Multiset Waiter}
    (hsleepers : s.sleepers = (xs.map f : List Waiter) + r)
    (hsleepers' : t.sleepers = ((xs.filter fun x => !chosen x).map f : List Waiter) + r) :
  Booked d (((xs.filter chosen).map f : List Waiter) + e) t
  := by
  refine hs.move (fun hs => htables ▸ hs) hnext (fun _ => ?_) hkernel
  have hperm := (List.filter_append_perm chosen xs).map f
  rw [List.map_append] at hperm
  unfold records
  rw [htables, hsleepers, hsleepers', ← Multiset.coe_eq_coe.mpr hperm, ← Multiset.coe_add]
  abel

theorem Booked.dismiss (chosen : PollWaiter → Bool) (reply : PollWaiter → Reply) :
  Booked d e (s.dismiss chosen reply)
  := by
  apply Booked.sendAll
  rw [List.map_map]
  exact hs.filter chosen rfl rfl rfl (add_assoc ..) (add_assoc ..)

theorem Booked.wakeAll (ready : Readiness) (chosen : PollWaiter → Bool)
    (told : PollWaiter → Watch → Events) :
  Booked d e (s.wakeAll ready chosen told)
  := by
  apply Booked.dismiss
  exact hs.of_slots rfl rfl rfl rfl rfl rfl rfl

theorem Booked.wakePollWaitersPipe (h : ℕ) (isReadEnd : Bool) (revents : Events) :
  Booked d e (s.wakePollWaitersPipe h isReadEnd revents)
  := by
  unfold State.wakePollWaitersPipe
  generalize s.pipeFds h isReadEnd = fds
  induction fds generalizing s with
  | nil => exact hs
  | cons x fds ih => exact ih (hs.wakeAll ..)

end

/-- The record of a client that goes to sleep. -/
theorem Booked.addPoller {w : PollWaiter} (hs : Booked d (w.waiter ::ₘ e) s) :
  Booked d e (s.addPoller w)
  := by
  refine hs.move (t := s.addPoller w) id rfl (fun _ => ?_) rfl
  simp only [records, sleepers, State.addPoller, List.map_append, ← Multiset.coe_add, List.map_cons,
    List.map_nil, Multiset.coe_singleton, ← Multiset.singleton_add]
  abel

/-- A client goes to sleep. -/
theorem Booked.sleep {w : PollWaiter} (hs : Booked d (w.waiter ::ₘ e) s) (ready : Readiness)
    (mem : Bool) :
  Booked d e (s.sleep ready mem w).state
  := by
  unfold State.sleep
  split_ifs
  · exact hs.send _
  · exact hs.addPoller.wakeAll ..
  · exact hs.addPoller

end State

end SaltyOS.Vfs
