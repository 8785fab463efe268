import Mathlib.Order.Interval.Finset.Nat
import SaltyOS.Vfs.Edits
import SaltyOS.Vfs.LedgerOps

/-!
# Every request is answered

In every run the records of the waiting clients name different reply slots, each of which holds the
caller of the record, and no request gets two replies. If no record is lost, then every saved caller
has a record. The clients that exited are left out.
-/

namespace SaltyOS.Vfs

open Function Multiset State

namespace State

variable {d : Due} {e : Multiset Waiter} {s t : State} {b : ℕ} {ext : External} {r : Request}
  {o : Outcome}

/-! ## Requests -/

/-- The requests that lose no record: a caller that has to wait at a pipe finds room in the queue, no
other client waits to accept or to receive at a socket when one more has to wait, nobody waits to
receive from a socket that is closed, and nobody waits at a pipe with a name that is removed. -/
def AnswerCareful (s : State) (b : ℕ) : Request → Prop
  | .read fd _ =>
    ∀ o, s.resolveFd b fd = some o →
      (∀ h p, o.backing = .pipe h → s.pipes h = some p → p.buf.len = 0 → o.nonblocking = false →
        p.recvWaiters.length < pipeWaiters) ∧
      ∀ h k, o.backing = .unixSocket h → s.sockets h = some k → k.buf.len = 0 → k.recvWaiter = none
  | .write fd _ =>
    ∀ o h p, s.resolveFd b fd = some o → o.backing = .pipe h → s.pipes h = some p →
      p.buf.free = 0 → o.nonblocking = false → p.writeWaiters.length < pipeWaiters
  | .recvmsg fd _ =>
    ∀ h k, s.unixSocketHandle b fd = some h → s.sockets h = some k → k.buf.len = 0 → k.recvWaiter = none
  | .accept fd =>
    ∀ h k, s.unixSocketHandle b fd = some h → s.sockets h = some k →
      k.pending.takeSlot (fun _ => true) = none → k.acceptWaiter = none
  | .close fd =>
    ∀ h k, s.unixSocketHandle b fd = some h → s.sockets h = some k → k.refcount ≤ 1 →
      k.recvWaiter = none
  | .removeFifo h =>
    ∀ p, s.pipes h = some p → p.recvWaiters = [] ∧ p.writeWaiters = []
  | _ => True

/-- The rest of a request settles the record of the caller that was saved. -/
theorem Wait.booked {next : State → Waiter → Outcome} (h : s.Wait b r next)
    (hd : d.careful → s.AnswerCareful b r) {w : Waiter} (ht : t.toTables = s.toTables)
    (hs : Booked d (w ::ₘ e) t) :
  Booked d e (next t w).state
  := by
  cases h with
  | @accept fd h k hh hk htake =>
    refine hs.setWaiter (k := k) k.acceptWaiter (ht ▸ hk) (fun hsane => hsane) ?_ fun hP =>
      hd hP h k hh hk htake
    simp only [SocketState.waiters, Option.toList_some, coe_singleton]
    abel
  | connect hc hk hne hroom => exact hs.queueConn (ht ▸ hc) (ht ▸ hk) hne hroom
  | @receive r fd n h k hr hh hk hempty =>
    refine hs.setWaiter (k := k) k.recvWaiter (ht ▸ hk) (fun hsane => hsane) ?_ fun hP => ?_
    · simp only [SocketState.waiters, Option.toList_some, coe_singleton]
      abel
    obtain rfl | rfl := hr
    · obtain ⟨o, ho, hsocket⟩ := Option.bind_eq_some_iff.mp hh
      refine (hd hP o ho).2 h k ?_ hk hempty
      unfold ObjectSlot.unixSocketHandle at hsocket
      split at hsocket
      next g hg => exact hg.trans (congrArg Backing.unixSocket (Option.some.inj hsocket))
      · cases hsocket
    · exact hd hP h k hh hk hempty
  | terminal ptyId maxCount deadline =>
    refine hs.move id rfl (fun _ => ?_) rfl
    simp only [records, sleepers, deferred, List.map_append, ← coe_add, List.map_cons,
      List.map_nil, coe_singleton, ← singleton_add]
    abel
  | network connId opType wait =>
    split
    · exact hs.allocPending
    next hwait => exact hs.answerInet fun hpending => hwait (.inr hpending)

section

variable (hs : Booked d 0 s) (hd : d.careful → s.AnswerCareful b r)
include hs hd

theorem SmallAct.handles (h : s.SmallAct b ext r o) :
  Handles d o
  := by
  cases h with
  | answer reply => exact hs.handles
  | wait h => exact hs.park fun t w ht hw => h.booked (d := d.done) hd ht hw
  | pipe hfd hfd' => exact ((hs.addPipe.setObject ..).setObject ..).handles
  | mkfifo => exact hs.addPipe.handles
  | socket hfd => exact ((hs.addSocket SocketState.sane_new rfl).setObject ..).handles
  | setSocket reply state boundIno backlog buf shutRd hk hbacklog =>
    apply Booked.handles
    refine hs.setSocket hk ?_ rfl
    exact fun hsane => ⟨hsane.1, hsane.2.1, hbacklog hsane.2.2⟩
  | accept hk htake => exact hs.takePending hk htake b ext.mem
  | connect hc hpath hk hne hw =>
    exact (hs.connectNow hc (Option.filter_eq_some_iff.mp hk).1 hne hw b).handles
  | @shutdown fd how h k shutRd hk =>
    apply Booked.handles
    apply Booked.hangUpPeer
    exact hs.setSocket hk (fun hsane => hsane) rfl
  | sockpair hfd hfd' =>
    apply Booked.handles
    exact (((hs.addAccepted _ b).addAccepted s.nextSocket b).setObject ..).setObject ..
  | @arrive r q peer data limit reply values hq =>
    exact (hs.arriveAt hq peer.pendingCaps data limit reply).handles
  | _ => exact Booked.handles (hs.of_slots rfl rfl rfl rfl rfl rfl rfl)

/-- Every handler answers its request, or saves the caller. -/
theorem Act.handles (h : s.Act b ext r o) :
  Handles d o
  := by
  cases h with
  | small h => exact h.handles hs hd
  | removeFifo =>
    apply Booked.handles
    apply hs.releasePipe
    intro _ hP p hp
    obtain ⟨hrecv, hwrite⟩ := hd hP p hp
    simp [PipeState.waiters, hrecv, hwrite]
  | replace hr ho hnew hne => exact (hs.setObject ..).handles
  | cloneFds ht =>
    apply Booked.handles
    exact (hs.resolveClient ht).of_slots rfl rfl rfl rfl rfl rfl rfl
  | @read fd requested h o p ho hh hp hlen =>
    obtain ⟨reply, hreply⟩ := p.reply_readNow (PipeState.readCount p.buf.len requested)
    rw [hreply]
    exact ((hs.readNow hp _).wakePollWaitersPipe ..).handles
  | @readWait fd requested h o p ho hh hp hempty hopen hblock =>
    refine hs.park fun t w ht hw => hw.read (ht ▸ hp) hempty hopen requested fun hP => ?_
    exact (hd hP o ho).1 h p hh hp (Nat.eq_zero_of_not_pos hempty) (Bool.eq_false_of_not_eq_true hblock)
  | @write fd h data o p ho hh hp hlen =>
    obtain ⟨reply, hreply⟩ := p.reply_writeNow (data.take 144)
    rw [hreply]
    exact ((hs.writeNow hp _).wakePollWaitersPipe ..).handles
  | @writeWait fd h data o p ho hh hp hopen hfull hblock =>
    refine hs.park fun t w ht hw => hw.write (ht ▸ hp) hopen hfull data fun hP => ?_
    exact hd hP o h p ho hh hp hfull (Bool.eq_false_of_not_eq_true hblock)
  | sendmsg hq => exact (hs.arriveAt hq ..).handles
  | @recvmsg fd maxData h k hh hk =>
    apply Booked.handles
    apply Booked.installCaps
    exact hs.setSocket hk (fun hsane => hsane) rfl
  | @close fd o ho =>
    apply Booked.handles
    apply Booked.setObject
    unfold preClose
    rw [ho]
    apply hs.closeObject
    intro hP h k hh hk hlast w hw
    rw [hd hP h k (Option.bind_eq_some_iff.mpr ⟨o, ho, hh⟩) hk hlast] at hw
    cases hw
  | poll hwait => exact hs.park fun t w ht hw => hw.sleep _ _
  | epollWait hx hwait => exact hs.park fun t w ht hw => hw.sleep _ _

end

/-! ## The exit of a client -/

/-- The clients that wait to receive from the sockets of a client are that client. -/
def ExitCareful (s : State) (b : ℕ) : Prop :=
  ∀ fd h k w, s.unixSocketHandle b fd = some h → s.sockets h = some k → k.recvWaiter = some w →
    w.badge = b

/-- Nobody starts to wait when something is closed. -/
theorem recvWaiter_closeObject (T : Tables) (o : ObjectSlot) {g : ℕ} {k' : SocketState} {w : Waiter}
    (hk' : (T.closeObject o).sockets g = some k') (hw : k'.recvWaiter = some w) :
  ∃ k, T.sockets g = some k ∧ k.recvWaiter = some w
  := by
  have hpeer : ∀ h peer, (T.hangUpPeer h peer).sockets g = some k' →
      ∃ k, T.sockets g = some k ∧ k.recvWaiter = some w := by
    intro h peer hpeer
    unfold Tables.hangUpPeer at hpeer
    split at hpeer
    · exact ⟨k', hpeer, hw⟩
    split at hpeer
    · exact ⟨k', hpeer, hw⟩
    rw [Tables.sockets_setSocket] at hpeer
    split_ifs at hpeer
    · cases hpeer
      cases hw
    · exact ⟨k', hpeer, hw⟩
  unfold Tables.closeObject at hk'
  cases ho : o.backing with
  | unixSocket h =>
    rw [ho] at hk'
    dsimp only at hk'
    unfold Tables.closeSocket at hk'
    cases hk : T.sockets h with
    | none =>
      rw [hk] at hk'
      exact ⟨k', hk', hw⟩
    | some k =>
      rw [hk] at hk'
      dsimp only at hk'
      split_ifs at hk'
      · rw [Tables.sockets_setSocket] at hk'
        split_ifs at hk' with hg
        · subst hg
          cases hk'
          exact ⟨k, hk, hw⟩
        · exact ⟨k', hk', hw⟩
      · rw [Tables.sockets_releaseSocket] at hk'
        split_ifs at hk'
        exact hpeer _ _ hk'
  | pipe h =>
    obtain ⟨pipes, tornEnds, heq⟩ := T.closePipe_eq h o.canRead
    rw [ho] at hk'
    dsimp only at hk'
    rw [heq] at hk'
    exact ⟨k', hk', hw⟩
  | _ =>
    rw [ho] at hk'
    exact ⟨k', hk', hw⟩

theorem ExitCareful.closeObject (hs : s.ExitCareful b) (o : ObjectSlot) :
  (s.closeObject o).ExitCareful b
  := by
  intro fd h k w hh hk hw
  rw [toTables_closeObject] at hh hk
  obtain ⟨k₀, hk₀, hw₀⟩ := recvWaiter_closeObject s.toTables o hk hw
  refine hs fd h k₀ w ?_ hk₀ hw₀
  unfold Tables.unixSocketHandle Tables.resolveFd at hh ⊢
  rw [(s.toTables.slots_closeObject o).2] at hh
  exact hh

theorem Booked.removeClient (hs : Booked d e s) (b : ℕ) :
  Booked d e (s.removeClient b)
  := hs.of_slots rfl rfl rfl rfl rfl rfl rfl

section

variable (hs : Booked d e s) (hd : d.careful → s.ExitCareful b)
  (hgone : d.careful → ∀ c : Caller, c.badge = b → c.request < d.requests → d.gone c)
include hs hd hgone

theorem Booked.preClose (fd : ℕ) :
  Booked d e (s.preClose b fd)
  := by
  unfold State.preClose
  rcases ho : s.resolveFd b fd with _ | o
  · exact hs
  apply hs.closeObject
  intro hP h k hh hk _ w hw
  refine hgone hP w.caller (hd hP fd h k w ?_ hk hw)
  unfold Tables.unixSocketHandle
  rw [ho]
  exact hh

theorem Booked.cleanup (fds : List ℕ) :
  Booked d e (fds.foldl (fun t fd => t.preClose b fd) s)
  := by
  induction fds generalizing s with
  | nil => exact hs
  | cons fd fds ih =>
    refine ih (hs.preClose hd hgone fd) fun hP => ?_
    show (s.preClose b fd).ExitCareful b
    unfold State.preClose
    cases s.resolveFd b fd with
    | none => exact hd hP
    | some o => exact (hd hP).closeObject o

theorem Booked.clientExit :
  Booked d e (s.clientExit b)
  := by
  unfold State.clientExit
  split_ifs
  · have hclean : Booked d e ((s.clearPtyPending b).cleanupClientObjects b) := by
      apply (hs.clearPtyPending b).cleanup _ hgone
      intro hP fd h k w
      rw [toTables_clearPtyPending]
      exact hd hP fd h k w
    exact hclean.removeClient b
  · exact hs

end

/-! ## Events -/

/-- The current caller gets a reply. -/
theorem Booked.replyTo {c : Caller} (hs : Booked d 0 s) (hc : d.caller = some c) (reply : Reply) :
  Booked d.done 0 (s.replyTo reply)
  := by
  rw [← hs.caller] at hc
  have honce := hs.once
  unfold State.replyTo
  rw [hc] at honce ⊢
  refine ⟨hs.sane, hs.slot, hs.range, hs.waiting, ?_, ?_, rfl, hs.requests⟩
  · refine Eq.trans ?_ honce
    simp only [Kernel.answered, List.map_append, List.map_cons, List.map_nil, ← coe_add,
      coe_singleton, Option.map_some, Option.toList_some, Option.map_none,
      Option.toList_none, coe_nil]
    exact (add_zero _).trans (add_right_comm ..)
  · intro n hn
    unfold Kernel.answered
    rw [List.map_append]
    exact List.mem_append_left _ (hs.answered hn)

/-- The end of a request. -/
theorem Handles.finish {c : Caller} (h : Handles d o) (hc : d.caller = some c) :
  Booked d.done 0 o.finish
  := by
  unfold Outcome.finish
  obtain ⟨reply, hreply, hs⟩ | hs := h
  · rw [hreply]
    exact hs.replyTo hc reply
  have hcaller : o.state.caller = none := hs.caller
  split
  · exact hs
  unfold State.replyTo
  rw [hcaller]
  exact hs

/-- A request arrives. -/
theorem Booked.receive (hs : Booked d e s) (hc : d.caller = none) (b : ℕ) :
  Booked { d with caller := some { badge := b, request := d.requests }, requests := d.requests + 1 } e
    (s.receive b)
  := by
  have honce := hs.once
  rw [hs.caller, hc] at honce
  refine ⟨hs.sane, hs.slot, hs.range, hs.waiting, ?_, hs.answered, ?_, ?_⟩
  · refine Eq.trans ?_ (range_succ s.requests).symm
    rw [← honce, ← singleton_add, add_comm {_}]
    exact congrArg (· + _) (add_zero _).symm
  · change some _ = some _
    rw [hs.requests]
  · exact congrArg (· + 1) hs.requests

/-- The events that lose no record of a client that is alive. -/
def AnswerCarefulEvent (s : State) : Event → Prop
  | .request b mem _ r => ∀ t, (s.receive b).resolveClient b mem = some t → t.AnswerCareful b r
  | .exit b => s.ExitCareful b
  | _ => True

/-- A request of a client that is registered. -/
theorem answerCarefulEvent_of_mem {mem : Bool} {ext : External} {r : Request} (hb : b ∈ s.clients)
    (h : (s.receive b).AnswerCareful b r) :
  s.AnswerCarefulEvent (.request b mem ext r)
  := by
  intro t ht
  have hsame : (s.receive b).resolveClient b mem = some (s.receive b) := if_pos hb
  cases hsame.symm.trans ht
  exact h

section

variable {fd h : ℕ} (hfd : (s.resolveFd b fd).map (·.backing) = some (.unixSocket h))
include hfd

/-- A read from a socket to which nobody waits to receive. -/
theorem answerCareful_read {requested : ℕ} (hk : (s.sockets h).bind (·.recvWaiter) = none) :
  s.AnswerCareful b (.read fd requested)
  := by
  intro o ho
  rw [ho, Option.map_some] at hfd
  have hbacking := Option.some.inj hfd
  refine ⟨?_, ?_⟩
  · intro g p hg
    rw [hbacking] at hg
    cases hg
  intro g k hg hsocket _
  rw [hbacking] at hg
  cases hg
  rw [hsocket] at hk
  exact hk

/-- A write to a socket. -/
theorem answerCareful_write {data : List Byte} :
  s.AnswerCareful b (.write fd data)
  := by
  intro o g p ho hg
  rw [ho, Option.map_some, hg] at hfd
  cases hfd

end

end State

/-! ## Runs -/

/-- The server, and for every client the number of the first request after its last exit. -/
structure Census where
  state : State
  exits : ℕ → ℕ

namespace Census

/-- Nobody exited yet. -/
def initial : Census where
  state := .initial
  exits := fun _ => 0

/-- The client of a caller exited after the request. -/
def Left (v : Census) (c : Caller) : Prop := c.request < v.exits c.badge

/-- What an event does. -/
def exec (v : Census) (e : Event) : Census where
  state := v.state.exec e
  exits :=
    match e with
    | .exit b => update v.exits b v.state.requests
    | _ => v.exits

/-- What several events do. -/
def execAll (v : Census) (events : List Event) : Census := events.foldl exec v

/-- A step that meets a condition on the state and the event. -/
def StepOf (C : State → Event → Prop) (v u : Census) : Prop :=
  ∃ e, C v.state e ∧ u = v.exec e

/-- A list of events is a run. -/
theorem run_execAll {C : State → Event → Prop} {v : Census} {events : List Event}
    (h : v.state.Follows C events) :
  Relation.ReflTransGen (StepOf C) v (v.execAll events)
  := by
  induction events generalizing v with
  | nil => rfl
  | cons e events ih => exact Relation.ReflTransGen.head ⟨e, h.1, rfl⟩ (ih h.2)

/-- Every request was answered once, or its caller is saved in one slot. A slot of a client that is
alive is named by one record, which is that of the request. No two records name the same slot. -/
def Answered (v : Census) : Prop :=
  (v.state.records.map fun w => w.slot).Nodup ∧ ∀ n < v.state.requests,
      (v.state.answered.count n = 1 ∧ ∀ i c, v.state.saved i = some c → c.request ≠ n) ∨
      (v.state.answered.count n = 0 ∧ ∃ i c, v.state.saved i = some c ∧ c.request = n ∧
          (∀ j d, v.state.saved j = some d → d.request = n → j = i) ∧
          (v.Left c ∨ ∃ w, v.state.records.filter (fun w => w.slot = i) = {w} ∧ w.caller = c))

end Census

namespace State

/-- Whatever happens, the records agree with the saved callers. -/
theorem Booked.exec (hs : Booked d 0 s) (hc : d.caller = none) {v : Event}
    (hv : d.careful → s.AnswerCarefulEvent v)
    (hgone : d.careful → ∀ b, v = .exit b → ∀ c : Caller, c.badge = b → c.request < d.requests →
      d.gone c) :
  ∃ n ≥ d.requests, Booked { d with requests := n } 0 (s.exec v)
  := by
  have hrequest : ∀ b : ℕ, ∀ o : Outcome, Handles { d with
        caller := some { badge := b, request := d.requests }, requests := d.requests + 1 } o →
      ∃ n ≥ d.requests, Booked { d with requests := n } 0 o.finish := by
    intro b o ho
    have hfinish := ho.finish rfl
    unfold Due.done at hfinish
    rw [← hc] at hfinish
    exact ⟨d.requests + 1, Nat.le_succ _, hfinish⟩
  have hsame : ∀ t, Booked d 0 t → ∃ n ≥ d.requests, Booked { d with requests := n } 0 t :=
    fun t ht => ⟨d.requests, le_rfl, ht⟩
  cases v with
  | request b mem ext r =>
    have hreceive := hs.receive hc b
    unfold State.exec
    dsimp only
    cases ht : (s.receive b).resolveClient b mem with
    | none => exact hrequest b _ hreceive.handles
    | some t =>
      exact hrequest b _ (Act.handles (hreceive.resolveClient ht) (fun hP => hv hP t ht)
        (t.act_handle b ext r))
  | register b target mem =>
    have hreceive := hs.receive hc b
    unfold State.exec
    dsimp only
    cases ht : (s.receive b).resolveClient target mem with
    | none => exact hrequest b _ hreceive.handles
    | some t => exact hrequest b _ (hreceive.resolveClient ht).handles
  | exit b => exact hsame _ (hs.clientExit hv fun hd => hgone hd b rfl)
  | exec b => exact hsame _ (hs.clearPtyPending b)
  | pollTimer now => exact hsame _ (hs.dismiss _ _)
  | ptyTimer now => exact hsame _ (hs.expirePtyTimeouts now)
  | ptyNotification ready ptyId collected => exact hsame _ ((hs.collect ptyId collected).wakeAll ..)
  | netsrvCallback b connId opType answer =>
    exact hrequest b _ ((hs.receive hc b).netsrvCallback connId opType answer)

/-- Whatever happens, every request was answered once, or its caller is saved in one slot, and records
name saved callers only. -/
theorem accounted_of_events (events : List Event) :
  let s := initial.execAll events
  (s.answered : Multiset ℕ) + s.waiting.map (fun w => w.request) = Multiset.range s.requests ∧
    s.records ≤ s.waiting
  := by
  -- the invariant does not say here which records are lost
  have hrun : ∀ s n, Booked ⟨False, fun _ => False, [], none, n⟩ 0 s →
      ∃ n, Booked ⟨False, fun _ => False, [], none, n⟩ 0 (s.execAll events) := by
    induction events with
    | nil => exact fun s n hs => ⟨n, hs⟩
    | cons e events ih =>
      intro s n hs
      obtain ⟨m, -, hm⟩ := hs.exec rfl False.elim False.elim
      exact ih _ m hm
  obtain ⟨n, hs⟩ := hrun _ _ booked_initial.forget
  obtain ⟨lost, hlost, -⟩ := hs.waiting
  have honce := hs.once
  rw [hs.caller] at honce
  exact ⟨(add_zero _).symm.trans honce, Multiset.le_iff_exists_add.mpr ⟨lost, by rw [hlost, add_zero]⟩⟩

end State

namespace Census

variable {v : Census}

/-- What is kept between two events: no record of a client is lost before the client exits. -/
def due (v : Census) : Due :=
  { careful := True, gone := v.Left, answered := [], caller := none, requests := v.state.requests }

/-- What holds between two events. -/
structure Idle (v : Census) : Prop where
  booked : State.Booked v.due 0 v.state
  exits_le : ∀ b, v.exits b ≤ v.state.requests

theorem idle_initial :
  initial.Idle
  := by
  have hs := booked_initial
  refine ⟨⟨hs.sane, hs.slot, hs.range, ?_, hs.once, hs.answered, rfl, rfl⟩, fun _ => le_rfl⟩
  obtain ⟨lost, hlost, hgone⟩ := hs.waiting
  exact ⟨lost, hlost, fun _ w hw => (hgone trivial w hw).elim⟩

theorem Idle.exec (hv : v.Idle) {e : Event} (he : v.state.AnswerCarefulEvent e) :
  (v.exec e).Idle
  := by
  obtain ⟨hsane, hslot, hrange, ⟨lost, hlost, hgone⟩, honce, hanswered, hcaller, hrequests⟩ := hv.booked
  -- a client that has left stays away from its old requests
  have hleft : ∀ c, v.Left c → (v.exec e).Left c := by
    intro c hc
    cases e with
    | exit b =>
      change c.request < update v.exits b v.state.requests c.badge
      rw [update_apply]
      split_ifs
      · exact hc.trans_le (hv.exits_le c.badge)
      · exact hc
    | _ => exact hc
  have hs : State.Booked { v.due with gone := (v.exec e).Left } 0 v.state :=
    ⟨hsane, hslot, hrange, ⟨lost, hlost, fun hd w hw => hleft _ (hgone hd w hw)⟩, honce, hanswered,
      hcaller, hrequests⟩
  obtain ⟨n, hn, hbooked⟩ := hs.exec rfl (fun _ => he) (by
    rintro - b rfl c rfl hlt
    change c.request < update v.exits c.badge v.state.requests c.badge
    rw [update_self]
    exact hlt)
  obtain rfl : (v.exec e).state.requests = n := hbooked.requests
  refine ⟨hbooked, fun b => ?_⟩
  have hle := (hv.exits_le b).trans hn
  cases e with
  | exit c =>
    change update v.exits c v.state.requests b ≤ _
    rw [update_apply]
    split_ifs
    · exact hn
    · exact hle
  | _ => exact hle

/-- Records that name different slots: a record is the only one of its slot. -/
theorem filter_slot_eq {R : Multiset Waiter} (hR : (R.map fun w => w.slot).Nodup) {w : Waiter} (hw : w ∈ R) :
  R.filter (fun v => v.slot = w.slot) = {w}
  := by
  obtain ⟨S, rfl⟩ := exists_cons_of_mem hw
  rw [map_cons, nodup_cons] at hR
  rw [filter_cons_of_pos (p := fun v : Waiter => v.slot = w.slot) S rfl]
  have hnone : S.filter (fun v => v.slot = w.slot) = 0 := by
    apply filter_eq_nil.mpr
    intro v hv heq
    exact hR.1 (heq ▸ mem_map_of_mem (fun w : Waiter => w.slot) hv)
  rw [hnone]
  rfl

/-- Every request is answered or waits. -/
theorem Idle.answered (hv : v.Idle) :
  v.Answered
  := by
  have hs := hv.booked
  obtain ⟨hanswered, hnodup, hfresh⟩ := hs.nodup
  obtain ⟨lost, hlost, hgone⟩ := hs.waiting
  have hslots := v.state.nodup_slot
  rw [hlost, add_zero, map_add] at hslots
  have hrecords := (nodup_add.mp hslots).1
  have hwaiting : ∀ i c, v.state.saved i = some c →
      { slot := i, badge := c.badge, request := c.request } ∈ v.state.waiting := by
    intro i c hi
    refine Kernel.mem_waiting.mpr ⟨Nat.lt_of_not_le fun hge => ?_, hi⟩
    rw [hs.range i hge] at hi
    cases hi
  refine ⟨hrecords, fun n hn => ?_⟩
  have hmem := mem_range.mpr hn
  rw [← hs.once, hs.caller] at hmem
  obtain hdone | hwait := mem_add.mp ((mem_add.mp hmem).resolve_right nofun)
  · left
    use List.count_eq_one_of_mem hanswered hdone
    rintro i c hi rfl
    exact (hfresh _ (hwaiting i c hi)).2 hdone
  right
  obtain ⟨w, hw, rfl⟩ := mem_map.mp hwait
  refine ⟨List.count_eq_zero.mpr (hfresh w hw).2, w.slot, w.caller, (Kernel.mem_waiting.mp hw).2, rfl,
    ?_, ?_⟩
  · intro j c hj hc
    exact congrArg Waiter.slot (inj_on_of_nodup_map hnodup _ (hwaiting j c hj) _ hw hc)
  · rw [hlost, add_zero] at hw
    obtain hw | hw := mem_add.mp hw
    · exact .inr ⟨w, filter_slot_eq hrecords hw, rfl⟩
    · exact .inl (hgone trivial w hw)

/-- In every run in which no record of a client that is alive is lost, every request is answered
once, or its caller is saved and has one record. -/
theorem answered_of_careful_run {v : Census}
    (h : Relation.ReflTransGen (StepOf State.AnswerCarefulEvent) initial v) :
  v.Answered
  := by
  have hv : v.Idle := by
    refine invariant_of_run (I := Idle) ?_ idle_initial h
    rintro u w hu ⟨e, he, rfl⟩
    exact hu.exec he
  exact hv.answered

/-- The requests that open a pair of sockets, wait at one of them and are woken. -/
def wakeReader : List Event :=
  [.request 7 true .quiet .sockpair, .request 7 true .quiet (.read 0 1),
    .request 7 true .quiet (.write 1 [5])]

/-- The reader that waited at a socket got its reply. -/
theorem answered_of_wakeReader :
  (initial.execAll wakeReader).state.answered = [0, 1, 2] ∧ (initial.execAll wakeReader).Answered
  := by
  use by decide
  apply answered_of_careful_run
  apply run_execAll
  refine ⟨fun _ _ => trivial, ?_, ?_, trivial⟩
  · apply answerCarefulEvent_of_mem (by decide)
    apply answerCareful_read (h := 0)
    · decide
    · decide
  · apply answerCarefulEvent_of_mem (by decide)
    apply answerCareful_write (h := 1)
    decide

/-- Two threads of a client read from the same socket. The record of the first one is replaced by
that of the second one, and no record names the slot of the first one any more. -/
theorem not_answered :
  ¬(initial.execAll [.request 7 true .quiet .sockpair, .request 7 true .quiet (.read 0 1),
    .request 7 true .quiet (.read 0 1)]).Answered
  := by
  rintro ⟨-, h⟩
  obtain ⟨hcount, -⟩ | ⟨-, i, c, -, -, hunique, hleft | ⟨w, hrecord, -⟩⟩ := h 1 (by decide)
  · revert hcount
    decide
  · cases hleft
  have hi := hunique 32 { badge := 7, request := 1 } (by decide) rfl
  subst hi
  have hcard := congrArg card hrecord
  rw [card_singleton] at hcard
  revert hcard
  decide

end Census

end SaltyOS.Vfs
