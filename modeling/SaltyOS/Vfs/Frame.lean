import SaltyOS.Vfs.Requests

/-!
# What the operations leave alone

Messages, wake-ups and saved callers do not touch the tables of the server. What is left of the
operations on the tables when the messages are forgotten is named here.
-/

open Function

namespace SaltyOS.Vfs

/-! ## Pipes -/

/-- Bytes are read without any end being opened or closed. -/
theorem PipeState.refcounts_readNow (p : PipeState) (count : ℕ) :
  (p.readNow count).pipe.readRefcount = p.readRefcount ∧
    (p.readNow count).pipe.writeRefcount = p.writeRefcount
  := by
  unfold readNow
  split <;> exact ⟨rfl, rfl⟩

theorem PipeState.refcounts_writeNow (p : PipeState) (data : List Byte) :
  (p.writeNow data).pipe.readRefcount = p.readRefcount ∧
    (p.writeNow data).pipe.writeRefcount = p.writeRefcount
  := by
  unfold writeNow
  split <;> exact ⟨rfl, rfl⟩

namespace State

/-! ## Messages -/

/-- The tables do not know who waits for what. -/
@[simp]
theorem toTables_send (s : State) (w : Waiter) (reply : Reply) :
  (s.send w reply).toTables = s.toTables
  := by
  unfold send
  cases s.saved w.slot with
  | none => rfl
  | some c => rfl

@[simp]
theorem toTables_sendAll (s : State) (messages : List (Waiter × Reply)) :
  (s.sendAll messages).toTables = s.toTables
  := by
  induction messages generalizing s with
  | nil => rfl
  | cons m messages ih =>
    change ((s.send m.1 m.2).sendAll messages).toTables = s.toTables
    rw [ih, toTables_send]

@[simp]
theorem toTables_replyTo (s : State) (reply : Reply) :
  (s.replyTo reply).toTables = s.toTables
  := by
  unfold replyTo
  cases s.caller with
  | none => rfl
  | some c => rfl

/-- The reply to the caller of a request. -/
@[simp]
theorem toTables_finish (o : Outcome) :
  o.finish.toTables = o.state.toTables
  := by
  unfold Outcome.finish
  cases o.reply with
  | none => rfl
  | some reply => apply toTables_replyTo

/-! ## Wake-ups -/

section

variable (s : State)

/-- Sleeping clients are woken without a look at their descriptors. -/
@[simp]
theorem toTables_dismiss (chosen : PollWaiter → Bool) (reply : PollWaiter → Reply) :
  (s.dismiss chosen reply).toTables = s.toTables
  := by
  unfold dismiss
  rw [toTables_sendAll]

@[simp]
theorem toTables_wakeAll (ready : Readiness) (chosen : PollWaiter → Bool)
    (told : PollWaiter → Watch → Events) :
  (s.wakeAll ready chosen told).toTables = s.toTables
  := by
  unfold wakeAll
  rw [toTables_dismiss]

@[simp]
theorem toTables_wakePollWaiters (b fd : ℕ) (revents : Events) :
  (s.wakePollWaiters b fd revents).toTables = s.toTables
  := by
  apply toTables_wakeAll

@[simp]
theorem toTables_wakePollWaitersPipe (h : ℕ) (isReadEnd : Bool) (revents : Events) :
  (s.wakePollWaitersPipe h isReadEnd revents).toTables = s.toTables
  := by
  unfold wakePollWaitersPipe
  generalize s.pipeFds h isReadEnd = fds
  induction fds generalizing s with
  | nil => rfl
  | cons x fds ih =>
    rw [List.foldl_cons, ih, toTables_wakePollWaiters]

@[simp]
theorem toTables_expirePollTimeouts (now : ℕ) :
  (s.expirePollTimeouts now).toTables = s.toTables
  := by
  apply toTables_dismiss

@[simp]
theorem toTables_wakePtyPollWaiters (ready : Readiness) (ptyId : ℕ) :
  (s.wakePtyPollWaiters ready ptyId).toTables = s.toTables
  := by
  apply toTables_wakeAll

/-- A client that goes to sleep is noted next to the tables. -/
@[simp]
theorem toTables_sleep (ready : Readiness) (mem : Bool) (w : PollWaiter) :
  (s.sleep ready mem w).state.toTables = s.toTables
  := by
  unfold sleep
  split_ifs
  · apply toTables_send
  · change ((s.addPoller w).wakeAll ..).toTables = s.toTables
    rw [toTables_wakeAll]
    rfl
  · rfl

end

/-! ## Terminals and the network -/

@[simp]
theorem toTables_clearPtyPending (s : State) (b : ℕ) :
  (s.clearPtyPending b).toTables = s.toTables
  := by
  unfold clearPtyPending
  rw [toTables_sendAll]

@[simp]
theorem toTables_expirePtyTimeouts (s : State) (now : ℕ) :
  (s.expirePtyTimeouts now).toTables = s.toTables
  := by
  unfold expirePtyTimeouts
  rw [toTables_sendAll]

@[simp]
theorem toTables_collect (s : State) (ptyId : ℕ) (collected : List (List Byte)) :
  (s.collect ptyId collected).toTables = s.toTables
  := by
  induction collected generalizing s with
  | nil => rfl
  | cons bytes rest ih =>
    unfold collect
    split
    · rfl
    · rw [ih, toTables_send]

@[simp]
theorem toTables_allocPending (s : State) (op : InetOp) :
  (s.allocPending op).toTables = s.toTables
  := by
  unfold allocPending
  split
  · apply toTables_send
  · rfl

/-! ## Saving a caller -/

/-- A caller is saved and the request goes on, or nothing happens to the tables. -/
theorem park_cases (s : State) (next : State → Waiter → Outcome) :
  s.park next = s.allocReplySlot.fail .invalidOperation ∨
    ∃ c, s.caller = some c ∧ s.saved s.nextReplySlot = none ∧
      s.park next = next (s.allocReplySlot.saveCaller c s.nextReplySlot) (s.newWaiter c)
  := by
  unfold park
  split
  next c hc hslot => exact .inr ⟨c, hc, hslot, rfl⟩
  next => exact .inl rfl

/-- The tables after a caller was saved are those that the rest of the request makes. -/
theorem toTables_park {P : Tables → Prop} {s : State} {next : State → Waiter → Outcome}
    (hs : P s.toTables)
    (hnext : ∀ t w, t.toTables = s.toTables → P (next t w).state.toTables) :
  P (s.park next).state.toTables
  := by
  obtain h | ⟨c, hc, hslot, h⟩ := s.park_cases next
  · rw [h]
    exact hs
  rw [h]
  apply hnext
  rfl

end State

/-! ## Lookups -/

namespace Tables

/-- A descriptor in range names the object in its slot, unless the slot is free or reserved. -/
theorem resolveFd_eq_some_iff {T : Tables} {b fd : ℕ} {o : ObjectSlot} :
  T.resolveFd b fd = some o ↔ fd < maxClientObjects ∧ o.isLive = true ∧ T.objects b fd = o
  := by
  unfold resolveFd
  split_ifs with hlive
  · constructor
    · intro h
      cases h
      exact ⟨hlive.1, hlive.2, rfl⟩
    · rintro ⟨-, -, rfl⟩
      rfl
  · constructor
    · intro h
      cases h
    · rintro ⟨hlt, ho, rfl⟩
      exact absurd ⟨hlt, ho⟩ hlive

variable {T : Tables} {b fd low : ℕ} {o : ObjectSlot}

theorem resolveFd_spec (h : T.resolveFd b fd = some o) :
  fd < maxClientObjects ∧ o = T.objects b fd
  := by
  obtain ⟨hlt, -, ho⟩ := resolveFd_eq_some_iff.mp h
  exact ⟨hlt, ho.symm⟩

/-- One slot changes. -/
theorem objects_setObject (T : Tables) (b fd : ℕ) (o : ObjectSlot) (x : ℕ × ℕ) :
  (T.setObject b fd o).objects x.1 x.2 = if x = (b, fd) then o else T.objects x.1 x.2
  := by
  obtain ⟨c, fd'⟩ := x
  by_cases hb : c = b
  · subst hb
    by_cases hfd : fd' = fd
    · subst hfd
      simp [setObject]
    · simp [setObject, hfd]
  · simp [setObject, hb]

theorem objects_setObject_of_ne (T : Tables) {b fd fd' : ℕ} {o : ObjectSlot} (h : fd' ≠ fd) :
  (T.setObject b fd o).objects b fd' = T.objects b fd'
  := by
  simp [setObject, h]

/-- A search for a descriptor finds one that is free and in range. -/
theorem freeFd_spec (h : T.freeFd b low = some fd) :
  fd < maxClientObjects ∧ (T.objects b fd).isFree = true
  := by
  refine ⟨List.mem_range.mp (List.mem_of_find?_eq_some h), ?_⟩
  have hp := List.find?_some h
  rw [Bool.and_eq_true] at hp
  exact hp.2

/-- A second free descriptor is found while the first one is reserved. -/
theorem freeFd_reserved (h : (T.setObject b fd (.of .reserved)).freeFd b 0 = some low) :
  low < maxClientObjects ∧ low ≠ fd ∧ (T.objects b low).isFree = true
  := by
  obtain ⟨hlt, hfree⟩ := freeFd_spec h
  have hobject := T.objects_setObject b fd (.of .reserved) (b, low)
  rw [hobject] at hfree
  split_ifs at hfree with heq
  · simp [ObjectSlot.of, ObjectSlot.isFree] at hfree
  · exact ⟨hlt, fun h => heq (by rw [h]), hfree⟩

section

variable (T : Tables)

/-- One pipe changes. -/
theorem pipes_setPipe (h g : ℕ) (p : PipeState) :
  (T.setPipe h p).pipes g = if g = h then some p else T.pipes g
  := by
  apply update_apply

theorem pipes_releasePipe (h g : ℕ) :
  (T.releasePipe h).pipes g = if g = h then none else T.pipes g
  := by
  apply update_apply

/-- A new pipe gets the next number. -/
theorem pipes_addPipe (g : ℕ) :
  T.addPipe.pipes g = if g = T.nextPipe then some .new else T.pipes g
  := by
  apply update_apply

/-- One socket changes. -/
theorem sockets_setSocket (h g : ℕ) (k : SocketState) :
  (T.setSocket h k).sockets g = if g = h then some k else T.sockets g
  := by
  apply update_apply

theorem sockets_releaseSocket (h g : ℕ) :
  (T.releaseSocket h).sockets g = if g = h then none else T.sockets g
  := by
  apply update_apply

/-- A new socket gets the next number. -/
theorem sockets_addSocket (k : SocketState) (g : ℕ) :
  (T.addSocket k).sockets g = if g = T.nextSocket then some k else T.sockets g
  := by
  apply update_apply

end

/-! ## Closing -/

/-- The clients at an end of a pipe are sent away if a count is zero. -/
def tearEnd (T : Tables) (h : ℕ) (isReadEnd : Bool) (count : ℕ) : Tables :=
  if count = 0 then { T with tornEnds := T.tornEnds ++ [(h, isReadEnd)] } else T

/-- The pipe is released if both its ends are closed. -/
def releaseClosed (T : Tables) (h : ℕ) (p : PipeState) : Tables :=
  if p.isClosed = true then T.releasePipe h else T

/-- What `close_pipe` leaves of the tables. -/
def closePipe (T : Tables) (h : ℕ) (isReadEnd : Bool) : Tables :=
  match T.pipes h with
  | none => T
  | some p =>
    if isReadEnd = true then
      ((T.setPipe h p.closeRead.1).tearEnd h true p.closeRead.1.readRefcount).releaseClosed h
        p.closeRead.1
    else
      ((T.setPipe h p.closeWrite.1).tearEnd h false p.closeWrite.1.writeRefcount).releaseClosed h
        p.closeWrite.1

/-- What `hangUpPeer` leaves of the tables. -/
def hangUpPeer (T : Tables) (h : ℕ) (peer : Option ℕ) : Tables :=
  match peer with
  | none => T
  | some q =>
    match T.sockets q with
    | none => T
    | some k => T.setSocket q (k.hangUp h).1

/-- What `close_socket` leaves of the tables. -/
def closeSocket (T : Tables) (h : ℕ) : Tables :=
  match T.sockets h with
  | none => T
  | some k =>
    if 0 < k.refcount - 1 then T.setSocket h { k with refcount := k.refcount - 1 }
    else (T.hangUpPeer h k.peerSocket).releaseSocket h

/-- What closing a slot leaves of the tables, apart from the slot. -/
def closeObject (T : Tables) (o : ObjectSlot) : Tables :=
  match o.backing with
  | .unixSocket h => T.closeSocket h
  | .pipe h => T.closePipe h o.canRead
  | .epoll h => { T with epolls := update T.epolls h none }
  | _ => T

/-- Closing what a slot refers to leaves the slots alone. -/
theorem slots_closeObject (T : Tables) (o : ObjectSlot) :
  (T.closeObject o).clients = T.clients ∧ (T.closeObject o).objects = T.objects
  := by
  have hpeer : ∀ h peer, (T.hangUpPeer h peer).clients = T.clients ∧
      (T.hangUpPeer h peer).objects = T.objects := by
    intro h peer
    unfold Tables.hangUpPeer
    obtain _ | q := peer
    · exact ⟨rfl, rfl⟩
    dsimp only
    cases T.sockets q with
    | none => exact ⟨rfl, rfl⟩
    | some k => exact ⟨rfl, rfl⟩
  have htear : ∀ (U : Tables) (h n : ℕ) (e : Bool) (p : PipeState),
      ((U.tearEnd h e n).releaseClosed h p).clients = U.clients ∧
      ((U.tearEnd h e n).releaseClosed h p).objects = U.objects := by
    intro U h n e p
    unfold Tables.tearEnd Tables.releaseClosed
    split_ifs <;> exact ⟨rfl, rfl⟩
  unfold closeObject
  cases o.backing with
  | unixSocket h =>
    dsimp only
    unfold closeSocket
    obtain _ | k := T.sockets h
    · exact ⟨rfl, rfl⟩
    dsimp only
    split_ifs
    · exact ⟨rfl, rfl⟩
    · exact hpeer h k.peerSocket
  | pipe h =>
    dsimp only
    unfold closePipe
    obtain _ | p := T.pipes h
    · exact ⟨rfl, rfl⟩
    split_ifs
    · exact htear _ h _ true _
    · exact htear _ h _ false _
  | _ => exact ⟨rfl, rfl⟩

/-- What is left when the slots of a client below a number were closed. -/
def closeRow (T : Tables) (b : ℕ) : ℕ → Tables
  | 0 => T
  | n + 1 => (T.closeRow b n).closeObject (T.objects b n)

/-- The slots are cleared after all of them have been closed. -/
theorem slots_closeRow (T : Tables) (b n : ℕ) :
  (T.closeRow b n).clients = T.clients ∧ (T.closeRow b n).objects = T.objects
  := by
  induction n with
  | zero => exact ⟨rfl, rfl⟩
  | succ n ih =>
    obtain ⟨hclients, hobjects⟩ := (T.closeRow b n).slots_closeObject (T.objects b n)
    exact ⟨hclients.trans ih.1, hobjects.trans ih.2⟩

end Tables

namespace State

section

variable (s : State)

@[simp]
theorem toTables_releaseClosed (h : ℕ) (p : PipeState) :
  (s.releaseClosed h p).toTables = s.toTables.releaseClosed h p
  := by
  unfold releaseClosed Tables.releaseClosed
  split_ifs <;> rfl

/-- The messages and wake-ups when an end of a pipe is closed leave the tables alone. -/
theorem toTables_tearEnd (h count : ℕ) (isReadEnd other : Bool) (messages : List (Waiter × Reply))
    (revents : Events) :
  (if count = 0 then
    (s.tearEnd h isReadEnd messages).wakePollWaitersPipe h other revents
    else s).toTables = s.toTables.tearEnd h isReadEnd count
  := by
  unfold Tables.tearEnd
  split_ifs
  · rw [toTables_wakePollWaitersPipe, tearEnd, toTables_sendAll]
  · rfl

/-- Closing an end wakes clients and changes the tables as told. -/
@[simp]
theorem toTables_closePipe (h : ℕ) (isReadEnd : Bool) :
  (s.closePipe h isReadEnd).toTables = s.toTables.closePipe h isReadEnd
  := by
  unfold closePipe Tables.closePipe
  obtain _ | p := s.pipes h
  · rfl
  cases isReadEnd with
  | true =>
    simp only [if_true, toTables_releaseClosed, toTables_tearEnd]
    rfl
  | false =>
    simp only [Bool.false_eq_true, if_false, toTables_releaseClosed, toTables_tearEnd]
    rfl

@[simp]
theorem toTables_hangUpPeer (h : ℕ) (peer : Option ℕ) :
  (s.hangUpPeer h peer).toTables = s.toTables.hangUpPeer h peer
  := by
  unfold hangUpPeer Tables.hangUpPeer
  obtain _ | q := peer
  · rfl
  dsimp only
  cases s.sockets q with
  | none => rfl
  | some k => apply toTables_sendAll

@[simp]
theorem toTables_closeSocket (h : ℕ) :
  (s.closeSocket h).toTables = s.toTables.closeSocket h
  := by
  unfold closeSocket Tables.closeSocket
  obtain _ | k := s.sockets h
  · rfl
  dsimp only
  split_ifs
  · rfl
  · change (((s.hangUpPeer h k.peerSocket).sendAll k.farewell).toTables).releaseSocket h = _
    rw [toTables_sendAll, toTables_hangUpPeer]

/-- Closing an object by its kind. -/
@[simp]
theorem toTables_closeObject (o : ObjectSlot) :
  (s.closeObject o).toTables = s.toTables.closeObject o
  := by
  unfold closeObject Tables.closeObject
  cases o.backing with
  | unixSocket h => apply toTables_closeSocket
  | pipe h => apply toTables_closePipe
  | _ => rfl

end

variable {s : State} {b : ℕ}

/-- Closing a descriptor that is not live does nothing. -/
theorem toTables_preClose (s : State) {fd : ℕ} (hfd : fd < maxClientObjects) :
  (s.preClose b fd).toTables = s.toTables.closeObject (s.objects b fd)
  := by
  unfold preClose Tables.resolveFd
  split_ifs with hlive
  · apply toTables_closeObject
  have hdead : (s.objects b fd).isLive = false := by
    simpa [hfd] using hlive
  unfold Tables.closeObject
  cases hbacking : (s.objects b fd).backing with
  | none => rfl
  | reserved => rfl
  | _ => simp [ObjectSlot.isLive, hbacking] at hdead

/-- The slots of a client are closed from the first to the last. -/
theorem toTables_cleanup (s : State) {n : ℕ} (hn : n ≤ maxClientObjects) :
  ((List.range n).foldl (fun t fd => t.preClose b fd) s).toTables = s.toTables.closeRow b n
  := by
  induction n with
  | zero => rfl
  | succ n ih =>
    have ih := ih (Nat.le_of_succ_le hn)
    rw [List.range_succ, List.foldl_append]
    change (State.preClose _ b n).toTables = _
    rw [toTables_preClose _ hn, ih, (s.toTables.slots_closeRow b n).2]
    rfl

/-- All slots of a client are closed. -/
@[simp]
theorem toTables_cleanupClientObjects (s : State) (b : ℕ) :
  (s.cleanupClientObjects b).toTables = s.toTables.closeRow b maxClientObjects
  := by
  apply toTables_cleanup s le_rfl

/-! ## Lookups -/

/-- The sockets of a connection are two sockets. -/
theorem listener_ne {h l ino : ℕ} {c k : SocketState} (hc : s.sockets h = some c)
    (hunbound : c.state = .unbound) (hk : s.listener ino l = some k) :
  s.sockets l = some k ∧ l ≠ h
  := by
  obtain ⟨hl, hlisten⟩ := Option.filter_eq_some_iff.mp hk
  use hl
  rintro rfl
  rw [hc] at hl
  cases hl
  rw [hunbound] at hlisten
  simp at hlisten

/-- Bytes that arrive at a socket change its ring and its waiting client. -/
theorem arrive_eq (k : SocketState) (data : List Byte) (limit : ℕ) (reply : List Byte → Reply) :
  ∃ buf recvWaiter, (k.arrive data limit reply).1 = { k with buf, recvWaiter }
  := by
  unfold SocketState.arrive
  split
  · exact ⟨_, _, rfl⟩
  · split_ifs <;> exact ⟨_, _, rfl⟩

/-- A descriptor that was passed names the slot of its sender, if the sender is still there. -/
theorem capSlot_eq_some_iff {packed : ℕ} {o : ObjectSlot} :
  s.capSlot packed = some o ↔ capBadge packed ∈ s.clients ∧
    s.resolveFd (capBadge packed) (capFd packed) = some o
  := by
  unfold capSlot
  split_ifs with hmem
  · simp [hmem]
  · simp [hmem]

/-- A packed descriptor refers to what it referred to, or to the slot that was filled. -/
theorem capSlot_setObject {fd packed : ℕ} {o o' : ObjectSlot}
    (h : (s.setObject b fd o).capSlot packed = some o') :
  s.capSlot packed = some o' ∨ o' = o
  := by
  obtain ⟨hmem, hslot⟩ := capSlot_eq_some_iff.mp h
  obtain ⟨hlt, hlive, hobject⟩ := Tables.resolveFd_eq_some_iff.mp hslot
  have hset := s.toTables.objects_setObject b fd o (capBadge packed, capFd packed)
  split_ifs at hset with heq
  · exact .inr (hobject.symm.trans hset)
  left
  apply capSlot_eq_some_iff.mpr
  use hmem
  apply Tables.resolveFd_eq_some_iff.mpr
  exact ⟨hlt, hlive, hset.symm.trans hobject⟩

/-- A request of a client that is registered. -/
theorem exec_request_of_mem (hb : b ∈ s.clients) (mem : Bool) (ext : External) (r : Request) :
  s.exec (.request b mem ext r) = ((s.receive b).handle b ext r).finish
  := by
  have hsame : (s.receive b).resolveClient b mem = some (s.receive b) := if_pos hb
  unfold exec
  simp only [hsame]

/-- A client is looked up: it is registered, or it is added. -/
theorem resolveClient_cases {t : State} {mem : Bool} (ht : s.resolveClient b mem = some t) :
  b ∈ s.clients ∧ t = s ∨ b ∉ s.clients ∧ t = { s with toTables := s.toTables.addClient b }
  := by
  unfold resolveClient at ht
  split_ifs at ht with hb
  · exact .inl ⟨hb, (Option.some.inj ht).symm⟩
  · exact .inr ⟨hb, (Option.some.inj ht).symm⟩

end State

end SaltyOS.Vfs
