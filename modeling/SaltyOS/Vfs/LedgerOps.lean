import SaltyOS.Vfs.Ledger

/-!
# Requests and waiting callers

Every handler answers its request at once, or saves the caller and keeps a record of the client. Some
handlers lose the record of a client: a caller that was saved finds the queue of a pipe full, a
client that waits at a socket is replaced by another one, a socket is closed while a client waits to
receive from it, and a pipe with a name is removed.
-/

namespace SaltyOS.Vfs

open Function Multiset PipeState List

variable {p : PipeState}

theorem coe_map_of_perm {α : Type} {l l' : List α} {x : α} (h : l.Perm (x :: l')) (f : α → Waiter) :
  (l.map f : Multiset Waiter) = {f x} + (l'.map f : Multiset Waiter)
  := coe_eq_coe.mpr (h.map f)

/-! ## Pipes and sockets -/

/-- A writer that is woken leaves the queue. -/
theorem PipeState.waiters_readNow (p : PipeState) (count : ℕ) :
  p.waiters = (p.readNow count).pipe.waiters + ((p.readNow count).sends.map fun x => x.1 : List Waiter)
  := by
  unfold readNow
  cases hw : p.writeWaiters with
  | nil => simp [waiters, hw]
  | cons w ws =>
    simp only [waiters, hw, List.map_cons, List.map_nil, ← Multiset.cons_coe, ← Multiset.singleton_add]
    abel

theorem PipeState.Sane.readNow (hp : p.Sane) (count : ℕ) :
  (p.readNow count).pipe.Sane
  := by
  unfold PipeState.readNow
  rcases hw : p.writeWaiters with _ | ⟨w, ws⟩
  · exact ⟨fun _ => rfl, hp.2⟩
  refine ⟨?_, hp.2⟩
  intro hzero
  rw [hp.1 hzero] at hw
  cases hw

/-- A reader that is woken leaves the queue. -/
theorem PipeState.waiters_writeNow (p : PipeState) (data : List Byte) :
  p.waiters = (p.writeNow data).pipe.waiters +
    ((p.writeNow data).sends.map fun x => x.1 : List Waiter)
  := by
  unfold writeNow
  cases hr : p.recvWaiters with
  | nil => simp [waiters, hr]
  | cons r rs =>
    simp only [waiters, hr, List.map_cons, List.map_nil, ← Multiset.cons_coe, ← Multiset.singleton_add]
    abel

theorem PipeState.Sane.writeNow (hp : p.Sane) (data : List Byte) :
  (p.writeNow data).pipe.Sane
  := by
  unfold PipeState.writeNow
  rcases hr : p.recvWaiters with _ | ⟨r, rs⟩
  · exact ⟨hp.1, fun _ => rfl⟩
  use hp.1
  intro hzero
  rw [hp.2 hzero] at hr
  cases hr

theorem PipeState.reply_readNow (p : PipeState) (count : ℕ) :
  ∃ reply, (p.readNow count).reply = some reply
  := by
  unfold readNow
  split <;> exact ⟨_, rfl⟩

theorem PipeState.reply_writeNow (p : PipeState) (data : List Byte) :
  ∃ reply, (p.writeNow data).reply = some reply
  := by
  unfold writeNow
  split <;> exact ⟨_, rfl⟩

/-- All writers are woken by the last reader that goes. -/
theorem PipeState.waiters_closeRead (p : PipeState) :
  p.waiters = p.closeRead.1.waiters + (p.closeRead.2.map fun x => x.1 : List Waiter)
  := by
  unfold closeRead
  split_ifs
  · simp [waiters, comp_def]
  · simp [waiters]

theorem PipeState.Sane.closeRead (hp : p.Sane) :
  p.closeRead.1.Sane
  := by
  unfold PipeState.closeRead
  split_ifs with hlast
  · exact ⟨fun _ => rfl, hp.2⟩
  · exact ⟨fun hzero => absurd hzero hlast, hp.2⟩

/-- All readers are woken by the last writer that goes. -/
theorem PipeState.waiters_closeWrite (p : PipeState) :
  p.waiters = p.closeWrite.1.waiters + (p.closeWrite.2.map fun x => x.1 : List Waiter)
  := by
  unfold closeWrite
  split_ifs
  · simp [waiters, comp_def, add_comm]
  · simp [waiters]

theorem PipeState.Sane.closeWrite (hp : p.Sane) :
  p.closeWrite.1.Sane
  := by
  unfold PipeState.closeWrite
  split_ifs with hlast
  · exact ⟨hp.1, fun _ => rfl⟩
  · exact ⟨hp.1, fun hzero => absurd hzero hlast⟩

/-- Nobody waits at a pipe with both ends closed. -/
theorem PipeState.Sane.waiters_of_isClosed (hp : p.Sane) (h : p.isClosed = true) :
  p.waiters = 0
  := by
  obtain ⟨hread, hwrite⟩ := Bool.and_eq_true_iff.mp h
  simp [waiters, hp.1 (eq_of_beq hread), hp.2 (eq_of_beq hwrite)]

/-- A receiver that is woken leaves the socket. -/
theorem SocketState.waiters_arrive (k : SocketState) (data : List Byte) (limit : ℕ)
    (reply : List Byte → Reply) :
  k.waiters = (k.arrive data limit reply).1.waiters +
    ((k.arrive data limit reply).2.map fun x => x.1 : List Waiter)
  := by
  unfold arrive
  rcases hw : k.recvWaiter with _ | w
  · simp [waiters, hw]
  split_ifs
  · simp [waiters, hw]
  simp only [waiters, hw, Option.toList_some, Option.toList_none, List.map_cons, List.map_nil,
    coe_singleton, Multiset.coe_nil]
  abel

/-- A receiver is woken when the peer goes. -/
theorem SocketState.waiters_hangUp (k : SocketState) (h : ℕ) :
  k.waiters = (k.hangUp h).1.waiters + ((k.hangUp h).2.map fun x => x.1 : List Waiter)
  := by
  unfold hangUp
  simp only [waiters, Option.toList_none, Multiset.coe_nil, List.map_map, comp_def, List.map_id']
  abel

/-- A socket that is released answers all but its receiver. -/
theorem SocketState.waiters_farewell (k : SocketState) :
  k.waiters = (k.farewell.map fun x => x.1 : List Waiter) + (k.recvWaiter.toList : Multiset Waiter)
  := by
  unfold farewell
  simp only [waiters, List.map_map, comp_def, List.map_id', ← Multiset.coe_add]
  abel

theorem SocketState.sane_new :
  SocketState.new.Sane
  := ⟨rfl, rfl, Nat.zero_le _⟩

/-- There is room for a connection in the queue of a listening socket. -/
theorem SocketState.Sane.putSlot_ne_none {k : SocketState} (hk : k.Sane)
    (hroom : ¬k.pendingCount ≥ k.backlog) (p : PendingConn) :
  k.pending.putSlot p ≠ none
  := by
  intro hnone
  obtain ⟨hlength, hcount, hbacklog⟩ := hk
  have hfull := length_reduceOption_of_putSlot_eq_none hnone
  omega

/-! ## Operations -/

namespace State

variable {d : Due} {e : Multiset Waiter} {s t : State} {b h : ℕ} {p p' : PipeState}
  {messages : List (Waiter × Reply)} {c k : SocketState} {w : Waiter}

/-- The request is answered, or its caller was saved. -/
def Handles (d : Due) (o : Outcome) : Prop :=
  (∃ reply, o.reply = some reply ∧ Booked d 0 o.state) ∨ Booked d.done 0 o.state

/-- The request is answered. -/
theorem Booked.handles {reply : Reply} (hs : Booked d 0 s) :
  Handles d { state := s, reply := some reply }
  := .inl ⟨reply, rfl, hs⟩

/-- The next reply slot is another one. -/
theorem Booked.allocReplySlot (hs : Booked d e s) :
  Booked d e s.allocReplySlot
  := by
  refine ⟨hs.sane, ?_, hs.range, hs.waiting, hs.once, hs.answered, hs.caller, hs.requests⟩
  unfold State.allocReplySlot
  dsimp only
  split_ifs with hwrap
  · decide
  · exact Nat.lt_of_not_le hwrap

/-- The caller is saved in the next reply slot. -/
theorem Booked.saveCaller {c : Caller} (hs : Booked d e s) (hc : s.caller = some c)
    (hslot : s.saved s.nextReplySlot = none) :
  Booked d.done (s.newWaiter c ::ₘ e) (s.allocReplySlot.saveCaller c s.nextReplySlot)
  := by
  have hwaiting : (s.allocReplySlot.saveCaller c s.nextReplySlot).waiting =
      s.newWaiter c ::ₘ s.waiting :=
    Kernel.waiting_of_update (w := s.newWaiter c) hs.slot hslot rfl
  refine ⟨hs.sane, hs.allocReplySlot.slot, ?_, ?_, ?_, hs.answered, rfl, hs.requests⟩
  · intro i hi
    exact (update_of_ne (Nat.ne_of_gt (hs.slot.trans_le hi)) _ _).trans (hs.range i hi)
  · obtain ⟨lost, hlost, hgone⟩ := hs.waiting
    refine ⟨lost, ?_, hgone⟩
    rw [hwaiting, hlost, Multiset.add_cons, Multiset.cons_add]
    rfl
  · have honce := hs.once
    rw [hc] at honce
    rw [hwaiting, Multiset.map_cons, Multiset.add_cons, Multiset.cons_add]
    refine Eq.trans ?_ honce
    rw [Option.map_some, Option.toList_some, coe_singleton, ← Multiset.singleton_add, add_comm {_}]
    exact congrArg (· + _) (add_zero _)

/-- The caller is saved. -/
theorem Booked.park (hs : Booked d 0 s) {next : State → Waiter → Outcome}
    (hnext : ∀ t w, t.toTables = s.toTables → Booked d.done (w ::ₘ 0) t →
      Booked d.done 0 (next t w).state) :
  Handles d (s.park next)
  := by
  obtain h | ⟨c, hc, hslot, h⟩ := s.park_cases next
  · rw [h]
    exact hs.allocReplySlot.handles
  · rw [h]
    exact .inr (hnext _ _ rfl (hs.saveCaller hc hslot))

/-! ## Pipes -/

/-- A reader waits at a pipe. -/
theorem Booked.read (hs : Booked d (w ::ₘ e) s) (hp : s.pipes h = some p)
    (hempty : ¬0 < p.buf.len) (hopen : p.writeRefcount ≠ 0) (requested : ℕ)
    (hcareful : d.careful → p.recvWaiters.length < pipeWaiters) :
  Booked d e (s.setPipe h (p.read requested false w).pipe)
  := by
  unfold PipeState.read
  rw [if_neg hempty, if_neg hopen, if_neg Bool.false_ne_true]
  split_ifs with hfull
  · have hset := hs.setPipe hp id rfl
    exact Booked.drop (l := {w}) hset fun hd => absurd (hcareful hd) (Nat.not_lt.mpr hfull)
  apply hs.setPipe hp
  · exact fun hsane => ⟨hsane.1, fun hzero => absurd hzero hopen⟩
  simp only [PipeState.waiters, defer, pushRecvWaiter, map_append,
    List.map_cons, List.map_nil, ← Multiset.coe_add, coe_singleton,
    ← Multiset.singleton_add]
  abel

/-- A writer waits at a pipe. -/
theorem Booked.write (hs : Booked d (w ::ₘ e) s) (hp : s.pipes h = some p)
    (hopen : p.readRefcount ≠ 0) (hfull : p.buf.free = 0) (data : List Byte)
    (hcareful : d.careful → p.writeWaiters.length < pipeWaiters) :
  Booked d e (s.setPipe h (p.write data false w).pipe)
  := by
  unfold PipeState.write
  rw [if_neg hopen, if_pos hfull, if_neg Bool.false_ne_true]
  split_ifs with hqueue
  · have hset := hs.setPipe hp id rfl
    exact Booked.drop (l := {w}) hset fun hd => absurd (hcareful hd) (Nat.not_lt.mpr hqueue)
  apply hs.setPipe hp
  · exact fun hsane => ⟨fun hzero => absurd hzero hopen, hsane.2⟩
  simp only [PipeState.waiters, defer, pushWriteWaiter, map_append,
    List.map_cons, List.map_nil, ← Multiset.coe_add, coe_singleton,
    ← Multiset.singleton_add]
  abel

section

variable (hs : Booked d e s)
include hs

/-- A pipe changes, and some clients that wait at it get messages. -/
theorem Booked.setPipe_sendAll (hp : s.pipes h = some p) (hsane : p.Sane → p'.Sane)
    (hw : p.waiters = p'.waiters + (messages.map fun x => x.1 : List Waiter)) :
  Booked d e ((s.setPipe h p').sendAll messages)
  := by
  apply Booked.sendAll
  apply hs.setPipe hp hsane
  rw [hw, add_assoc]

/-- A writer that waits may be answered when bytes are read. -/
theorem Booked.readNow (hp : s.pipes h = some p) (count : ℕ) :
  Booked d e ((s.setPipe h (p.readNow count).pipe).sendAll (p.readNow count).sends)
  := hs.setPipe_sendAll hp (fun hsane => hsane.readNow _) (p.waiters_readNow count)

/-- A reader that waits may be answered when bytes are written. -/
theorem Booked.writeNow (hp : s.pipes h = some p) (data : List Byte) :
  Booked d e ((s.setPipe h (p.writeNow data).pipe).sendAll (p.writeNow data).sends)
  := hs.setPipe_sendAll hp (fun hsane => hsane.writeNow _) (p.waiters_writeNow data)

/-- A pipe is released, with the clients that wait at it. -/
theorem Booked.releasePipe (h : ℕ) (hl : s.Sane → d.careful → ∀ p, s.pipes h = some p → p.waiters = 0) :
  Booked d e (s.releasePipe h)
  := by
  cases hp : s.pipes h with
  | none =>
    have hsame : update s.pipes h none = s.pipes := by rw [← hp, update_eq_self]
    exact hs.of_slots (t := s.releasePipe h) hsame rfl rfl rfl rfl rfl rfl
  | some p =>
    have hrelease : Booked d (p.waiters + e) (s.releasePipe h) :=
      hs.updatePipe (x := none) hp nofun (zero_add _)
    apply hrelease.drop
    intro hd w hw
    rw [hl hs.sane hd p hp] at hw
    cases hw

/-- The last descriptor of an end of a pipe is closed. -/
theorem Booked.tearEnd (hp : s.pipes h = some p) (hsane : p.Sane → p'.Sane)
    (hw : p.waiters = p'.waiters + (messages.map fun x => x.1 : List Waiter)) (isReadEnd : Bool) :
  Booked d e ((s.setPipe h p').tearEnd h isReadEnd messages)
  := by
  have hset := hs.setPipe_sendAll hp hsane hw
  rw [sendAll_eq] at hset
  unfold State.tearEnd
  rw [sendAll_eq]
  exact hset.of_slots rfl rfl rfl rfl rfl rfl rfl

/-- An end of a pipe is closed: the clients at the other end get messages if it was the last
descriptor of the end. -/
theorem Booked.closeEnd (hp : s.pipes h = some p) (hsane : p.Sane → p'.Sane)
    (hw : p.waiters = p'.waiters + (messages.map fun x => x.1 : List Waiter)) {count : ℕ}
    (hcount : count ≠ 0 → messages = []) (isReadEnd other : Bool) (revents : Events) :
  Booked d e (State.releaseClosed (if count = 0 then
        ((s.setPipe h p').tearEnd h isReadEnd messages).wakePollWaitersPipe h other revents
      else s.setPipe h p') h p')
  := by
  generalize hu : (if count = 0 then _ else _ : State) = u
  have hset : Booked d e u := by
    rw [← hu]
    split_ifs with hlast
    · exact (hs.tearEnd hp hsane hw _).wakePollWaitersPipe ..
    apply hs.setPipe hp hsane
    rw [hw, hcount hlast]
    exact congrArg (· + e) (add_zero _).symm
  have hpipes : u.pipes h = some p' := by
    rw [← hu, toTables_tearEnd]
    unfold Tables.tearEnd
    split_ifs <;> exact update_self ..
  unfold releaseClosed
  split_ifs with hclosed
  · -- nobody waits at a pipe with both ends closed
    refine hset.releasePipe h fun hs _ q hq => ?_
    cases hpipes.symm.trans hq
    exact (hs.pipe h p' hpipes).waiters_of_isClosed hclosed
  · exact hset

/-- The clients that are woken by closing an end are answered. -/
theorem Booked.closePipe (h : ℕ) (isReadEnd : Bool) :
  Booked d e (s.closePipe h isReadEnd)
  := by
  unfold State.closePipe
  rcases hp : s.pipes h with _ | p
  · exact hs
  dsimp only
  split
  · apply hs.closeEnd hp (fun hsane => hsane.closeRead) p.waiters_closeRead
    unfold PipeState.closeRead
    split_ifs with hlast
    · exact fun hne => absurd rfl hne
    · exact fun _ => rfl
  · apply hs.closeEnd hp (fun hsane => hsane.closeWrite) p.waiters_closeWrite
    unfold PipeState.closeWrite
    split_ifs with hlast
    · exact fun hne => absurd rfl hne
    · exact fun _ => rfl

/-! ## Sockets -/

theorem Booked.resolveClient {mem : Bool} (ht : s.resolveClient b mem = some t) :
  Booked d e t
  := by
  unfold State.resolveClient at ht
  split_ifs at ht
  · cases ht
    exact hs
  · cases ht
    exact hs.of_slots rfl rfl rfl rfl rfl rfl rfl

theorem Booked.addAccepted (peer badge : ℕ) :
  Booked d e (s.addSocket (accepted peer badge))
  := hs.addSocket SocketState.sane_new rfl

/-- An accepted socket is created and another socket becomes its peer. -/
theorem Booked.connect (hc : s.sockets h = some c) (badge badge' : ℕ) :
  Booked d e ((s.addSocket (accepted h badge)).setSocket h (c.connect s.nextSocket badge'))
  := by
  have hc' : (s.addSocket (accepted h badge)).sockets h = some c := by
    change (s.toTables.addSocket _).sockets h = some c
    rw [Tables.sockets_addSocket, if_neg (Nat.ne_of_lt (hs.sane.lt_nextSocket hc))]
    exact hc
  exact (hs.addAccepted h badge).setSocket hc' id rfl

end

/-- The rest of an accept settles the record of the connection that was taken. -/
theorem Booked.acceptPending {p : PendingConn} (hs : Booked d (p.waiter ::ₘ 0) s) (b : ℕ) (mem : Bool) :
  Handles d (s.acceptPending b mem p)
  := by
  unfold State.acceptPending
  split
  · exact (hs.send _).handles
  rcases hc : s.sockets p.socket with _ | c
  · exact (hs.send _).handles
  have hconnect := hs.connect hc p.waiter.badge b
  dsimp only
  split
  · refine Booked.handles (Booked.send ?_ _)
    refine hconnect.updateSocket (x := none) (k := accepted p.socket p.waiter.badge) ?_ nofun rfl
    change (Tables.setSocket (s.toTables.addSocket _) _ _).sockets s.nextSocket = _
    rw [Tables.sockets_setSocket, if_neg (Nat.ne_of_gt (hs.sane.lt_nextSocket hc)),
      Tables.sockets_addSocket, if_pos rfl]
  · exact ((hconnect.setObject ..).send _).handles

/-- A connection is taken from the queue and accepted. -/
theorem Booked.takePending {r : PendingConn × List (Option PendingConn)} (hs : Booked d 0 s)
    (hk : s.sockets h = some k) (htake : k.pending.takeSlot (fun _ => true) = some r) (b : ℕ)
    (mem : Bool) :
  Handles d ((s.setSocket h
    { k with pending := r.2, pendingCount := k.pendingCount - 1 }).acceptPending b mem r.1)
  := by
  have hperm := perm_of_takeSlot htake
  refine Booked.acceptPending (hs.setSocket hk ?_ ?_) b mem
  · intro hsane
    refine ⟨(length_of_takeSlot htake).trans hsane.1, ?_, hsane.2.2⟩
    have hlength := hperm.length_eq
    rw [hsane.2.1, hlength]
    rfl
  · have hcoe := coe_map_of_perm hperm fun p => p.waiter
    simp only [SocketState.waiters, hcoe, ← Multiset.singleton_add]
    abel

/-- The client that waits to accept gets its reply. -/
theorem Booked.giveAccepted (hs : Booked d (w ::ₘ e) s) (srv : ℕ) :
  Booked d e (s.giveAccepted w srv)
  := by
  unfold State.giveAccepted
  split
  · exact (hs.setObject ..).send _
  · exact hs.send _

/-- A connection finds a client that waits to accept. -/
theorem Booked.connectNow {l : ℕ} (hs : Booked d e s) (hc : s.sockets h = some c)
    (hl : s.sockets l = some k) (hne : l ≠ h) (hw : k.acceptWaiter = some w) (b : ℕ) :
  Booked d e ((s.connectNow b h c l k w).giveAccepted w s.nextSocket)
  := by
  have hl' : ((s.addSocket (accepted h b)).setSocket h
      (c.connect s.nextSocket w.badge)).sockets l = some k := by
    change (Tables.setSocket (s.toTables.addSocket _) _ _).sockets l = some k
    rw [Tables.sockets_setSocket, if_neg hne, Tables.sockets_addSocket,
      if_neg (Nat.ne_of_lt (hs.sane.lt_nextSocket hl))]
    exact hl
  apply Booked.giveAccepted
  refine (hs.connect hc b w.badge).setSocket hl' (fun hsane => hsane) ?_
  simp only [SocketState.waiters, hw, Option.toList_some, Option.toList_none,
    coe_singleton, Multiset.coe_nil, ← Multiset.singleton_add]
  abel

/-- A connection waits in the queue of a listening socket. -/
theorem Booked.queueConn {l : ℕ} (hs : Booked d (w ::ₘ e) s) (hc : s.sockets h = some c)
    (hk : s.sockets l = some k) (hne : l ≠ h) (hroom : ¬k.pendingCount ≥ k.backlog) :
  Booked d e (s.queueConn h c l k w)
  := by
  have hset : Booked d (w ::ₘ e) (s.setSocket h { c with state := .connecting }) :=
    hs.setSocket hc (fun hsane => hsane) rfl
  have hk' : (s.setSocket h { c with state := .connecting }).sockets l = some k := by
    change (s.toTables.setSocket h _).sockets l = some k
    rw [Tables.sockets_setSocket, if_neg hne]
    exact hk
  unfold State.queueConn
  cases hput : k.pending.putSlot { waiter := w, socket := h } with
  | none => exact absurd hput ((hs.sane.socket l k hk).putSlot_ne_none hroom _)
  | some pending =>
    have hperm := perm_of_putSlot hput
    apply hset.setSocket hk'
    · intro hsane
      refine ⟨(length_of_putSlot hput).trans hsane.1, ?_, hsane.2.2⟩
      rw [hperm.length_eq, length_cons, hsane.2.1]
    · have hcoe := coe_map_of_perm hperm fun p => p.waiter
      simp only [SocketState.waiters, hcoe, ← Multiset.singleton_add]
      abel

/-- A client waits to accept or to receive. The client that waited before is forgotten. -/
theorem Booked.setWaiter (old : Option Waiter) {k' : SocketState} (hs : Booked d (w ::ₘ e) s)
    (hk : s.sockets h = some k) (hsane : k.Sane → k'.Sane)
    (hw : k'.waiters + (old.toList : Multiset Waiter) = k.waiters + {w})
    (hcareful : d.careful → old = none) :
  Booked d e (s.setSocket h k')
  := by
  have hset : Booked d ((old.toList : Multiset Waiter) + e) (s.setSocket h k') := by
    apply hs.setSocket hk hsane
    rw [← add_assoc, hw, add_assoc, Multiset.singleton_add]
  apply hset.drop
  intro hd w hw
  rw [hcareful hd] at hw
  cases hw

section

variable (hs : Booked d e s)
include hs

/-- The clients that are woken at the peer are answered. -/
theorem Booked.hangUpPeer (h : ℕ) (peer : Option ℕ) :
  Booked d e (s.hangUpPeer h peer)
  := by
  unfold State.hangUpPeer
  obtain _ | q := peer
  · exact hs
  dsimp only
  rcases hk : s.sockets q with _ | k
  · exact hs
  apply Booked.sendAll
  refine hs.setSocket hk id ?_
  rw [k.waiters_hangUp h, add_assoc]

/-- Bytes arrive at a socket, possibly with descriptors. -/
theorem Booked.arriveAt {q : ℕ} {peer : SocketState} (hq : s.sockets q = some peer)
    (caps data limit : _) (reply : List Byte → Reply) :
  Booked d e (s.arriveAt q { peer with pendingCaps := caps } data limit reply)
  := by
  have hw : peer.waiters = _ :=
    SocketState.waiters_arrive { peer with pendingCaps := caps } data limit reply
  obtain ⟨buf, recvWaiter, harrive⟩ := arrive_eq { peer with pendingCaps := caps } data limit reply
  apply Booked.sendAll
  apply hs.setSocket hq
  · rw [harrive]
    exact id
  · rw [hw, add_assoc]

theorem Booked.installCaps (b : ℕ) (caps : List ℕ) :
  Booked d e (s.installCaps b caps).1
  := by
  induction caps generalizing s with
  | nil => exact hs
  | cons packed caps ih =>
    unfold State.installCaps
    split
    · exact ih hs
    split
    · exact ih hs
    · exact ih (hs.setObject ..)

end

/-! ## Closing -/

theorem sockets_hangUpPeer (T : Tables) (h : ℕ) (peer : Option ℕ) {g : ℕ} (hk : T.sockets g = some k) :
  ∃ k', (T.hangUpPeer h peer).sockets g = some k' ∧ k'.acceptWaiter = k.acceptWaiter ∧
    k'.pending = k.pending ∧ (k'.recvWaiter = k.recvWaiter ∨ k'.recvWaiter = none)
  := by
  unfold Tables.hangUpPeer
  obtain _ | q := peer
  · exact ⟨k, hk, rfl, rfl, .inl rfl⟩
  dsimp only
  rcases hq : T.sockets q with _ | c
  · exact ⟨k, hk, rfl, rfl, .inl rfl⟩
  rw [Tables.sockets_setSocket]
  split_ifs with hg
  · subst hg
    cases hk.symm.trans hq
    exact ⟨_, rfl, rfl, rfl, .inr rfl⟩
  · exact ⟨k, hk, rfl, rfl, .inl rfl⟩

section

variable (hs : Booked d e s)
include hs

/-- A socket is closed. If it is released, then the record of the client that waits to receive from
it is lost. -/
theorem Booked.closeSocket (h : ℕ)
    (hcareful : d.careful → ∀ k, s.sockets h = some k → k.refcount ≤ 1 → ∀ w,
      k.recvWaiter = some w → w.request < d.requests → d.gone w.caller) :
  Booked d e (s.closeSocket h)
  := by
  unfold State.closeSocket
  rcases hk : s.sockets h with _ | k
  · exact hs
  dsimp only
  split_ifs with hmore
  · exact hs.setSocket hk (fun hsane => hsane) rfl
  have hhang := hs.hangUpPeer h k.peerSocket
  obtain ⟨k', hk', haccept, hpending, hrecv⟩ := sockets_hangUpPeer s.toTables h k.peerSocket hk
  rw [← toTables_hangUpPeer] at hk'
  have hfarewell : k.farewell = k'.farewell := by
    unfold SocketState.farewell
    rw [haccept, hpending]
  -- the messages may as well be sent after the socket was released
  have hrelease : Booked d ((k'.recvWaiter.toList : Multiset Waiter) + e)
      (((s.hangUpPeer h k.peerSocket).releaseSocket h).sendAll k.farewell) := by
    apply Booked.sendAll
    apply hhang.updateSocket (x := none) hk' nofun
    rw [hfarewell, k'.waiters_farewell, Option.elim_none, zero_add, add_assoc]
  rw [sendAll_eq] at hrelease ⊢
  refine Booked.drop hrelease fun hd w hw hlt => ?_
  have hw' := Option.mem_toList.mp (mem_coe.mp hw)
  obtain hrecv | hrecv := hrecv
  · rw [hrecv] at hw'
    exact hcareful hd k hk (by omega) w hw' hlt
  · rw [hrecv] at hw'
    cases hw'

/-- What a slot refers to is closed. -/
theorem Booked.closeObject (o : ObjectSlot)
    (hcareful : d.careful → ∀ h k, o.unixSocketHandle = some h → s.sockets h = some k →
      k.refcount ≤ 1 → ∀ w, k.recvWaiter = some w → w.request < d.requests → d.gone w.caller) :
  Booked d e (s.closeObject o)
  := by
  unfold State.closeObject
  cases ho : o.backing with
  | unixSocket h =>
    apply hs.closeSocket
    intro hd k
    apply hcareful hd h k
    simp [ObjectSlot.unixSocketHandle, ho]
  | pipe h => exact hs.closePipe h _
  | epoll h => exact hs.of_slots rfl rfl rfl rfl rfl rfl rfl
  | _ => exact hs

/-! ## Terminals -/

/-- Chosen readers of a terminal are answered and forgotten. -/
theorem Booked.filterPty (chosen : PtyReader → Bool) (reply : Reply) :
  Booked d e (State.sendAll { s with ptyPending := s.ptyPending.filter fun r => !chosen r }
      ((s.ptyPending.filter chosen).map fun r => (r.waiter, reply)))
  := by
  apply Booked.sendAll
  rw [List.map_map]
  refine hs.filter chosen rfl rfl rfl (add_assoc _ _ _ |>.trans (add_left_comm ..)) ?_
  exact (add_assoc ..).trans (add_left_comm ..)

theorem Booked.clearPtyPending (b : ℕ) :
  Booked d e (s.clearPtyPending b)
  := hs.filterPty _ _

theorem Booked.expirePtyTimeouts (now : ℕ) :
  Booked d e (s.expirePtyTimeouts now)
  := hs.filterPty _ _

/-- Readers are answered in their order. -/
theorem Booked.collect (ptyId : ℕ) (collected : List (List Byte)) :
  Booked d e (s.collect ptyId collected)
  := by
  induction collected generalizing s with
  | nil => exact hs
  | cons bytes rest ih =>
    unfold State.collect
    cases hfind : s.ptyPending.find? fun r => decide (r.ptyId = ptyId) with
    | none => exact hs
    | some r =>
      apply ih
      apply Booked.send
      refine hs.move id rfl (fun _ => ?_) rfl
      have hperm := perm_cons_erase (mem_of_find?_eq_some hfind)
      have hcoe := coe_map_of_perm hperm fun r => r.waiter
      simp only [records, sleepers, hcoe, ← Multiset.singleton_add]
      abel

/-! ## The network -/

theorem Booked.allocInetFd (b connId : ℕ) :
  Booked d e (s.allocInetFd b connId).state
  := by
  unfold State.allocInetFd install
  split_ifs
  · split
    · exact hs
    · exact hs.setObject ..
  · exact hs

end

/-- A saved caller is answered by the network server. -/
theorem Booked.answerInet (hs : Booked d (w ::ₘ e) s) {answer : InetAnswer} (ha : answer ≠ .pending) :
  Booked d e (s.answerInet w answer)
  := by
  cases answer with
  | reply reply => exact hs.send reply
  | accepted connId => exact (hs.allocInetFd _ _).send _
  | pending => exact absurd rfl ha

/-- A saved caller is noted, or answered with an error. -/
theorem Booked.allocPending {op : InetOp} (hs : Booked d (op.waiter ::ₘ e) s) :
  Booked d e (s.allocPending op)
  := by
  unfold State.allocPending
  rcases hput : s.inetPending.putSlot op with _ | inetPending
  · exact hs.send _
  refine hs.move id rfl (fun _ => ?_) rfl
  have hcoe := coe_map_of_perm (perm_of_putSlot hput) fun op => op.waiter
  simp only [records, sleepers, hcoe, ← Multiset.singleton_add]
  abel

/-- The callback answers the caller that waits for it. -/
theorem Booked.netsrvCallback (hs : Booked d 0 s) (connId : ℕ) (opType : InetOpType)
    (answer : InetAnswer) :
  Handles d (s.netsrvCallback connId opType answer)
  := by
  unfold State.netsrvCallback
  split
  · exact hs.handles
  rename_i r htake
  obtain ⟨op, rest⟩ := r
  have hanswer : (if answer = .pending then .reply (.ok []) else answer) ≠ .pending := by
    split_ifs with hpending
    · exact nofun
    · exact hpending
  apply Booked.handles
  apply Booked.answerInet _ hanswer
  refine hs.move id rfl (fun _ => ?_) rfl
  have hcoe := coe_map_of_perm (perm_of_takeSlot htake) fun op => op.waiter
  simp only [records, sleepers, hcoe, ← Multiset.singleton_add]
  abel

end State

end SaltyOS.Vfs
