import SaltyOS.Vfs.Acts

/-!
# Acts that leave the sleeping clients alone

The clients that sleep in `poll` or `epoll_wait`, those that ever slept, and what those that were
woken were told, are the poll book. Only polling, pipes, terminals and deadlines touch it.
-/

namespace SaltyOS.Vfs

namespace State

/-- The sleeping clients, those that ever slept, and what was told. -/
def pollBook (s : State) : List PollWaiter × List Waiter × List (Events × Events) :=
  (s.pollWaiters, s.polls, s.reports)

theorem pollBook_eq_iff {s : State} {sleeping : List PollWaiter} {polls : List Waiter}
    {reports : List (Events × Events)} :
  s.pollBook = (sleeping, polls, reports) ↔
    s.pollWaiters = sleeping ∧ s.polls = polls ∧ s.reports = reports
  := by
  simp [pollBook]

/-! ## Messages -/

/-- A message answers a caller that was saved. -/
@[simp]
theorem pollBook_send (s : State) (w : Waiter) (reply : Reply) :
  (s.send w reply).pollBook = s.pollBook
  := by
  unfold send
  cases s.saved w.slot with
  | none => rfl
  | some c => rfl

@[simp]
theorem pollBook_sendAll (s : State) (messages : List (Waiter × Reply)) :
  (s.sendAll messages).pollBook = s.pollBook
  := by
  induction messages generalizing s with
  | nil => rfl
  | cons m messages ih => exact (ih _).trans (s.pollBook_send m.1 m.2)

/-- The reply to the caller of a request. -/
@[simp]
theorem pollBook_finish (o : Outcome) :
  o.finish.pollBook = o.state.pollBook
  := by
  unfold Outcome.finish replyTo
  obtain _ | reply := o.reply
  · rfl
  cases o.state.caller with
  | none => rfl
  | some c => rfl

/-- The poll book after a caller was saved. -/
theorem pollBook_park {s : State} {next : State → Waiter → Outcome}
    (hnext : ∀ t w, t.pollBook = s.pollBook → (next t w).state.pollBook = s.pollBook) :
  (s.park next).state.pollBook = s.pollBook
  := by
  obtain h | ⟨c, -, -, h⟩ := s.park_cases next
  · rw [h]
    rfl
  rw [h]
  apply hnext
  rfl

/-! ## Descriptors -/

/-- A client without a table of descriptors gets one. -/
theorem pollBook_resolveClient {s t : State} {b : ℕ} {mem : Bool}
    (ht : s.resolveClient b mem = some t) :
  t.pollBook = s.pollBook
  := by
  unfold resolveClient at ht
  split_ifs at ht
  · rw [← Option.some.inj ht]
  · rw [← Option.some.inj ht]
    rfl

/-! ## Operations -/

section

variable (s : State)

/-- The connection gets a descriptor of the client that accepts. -/
theorem pollBook_acceptPending (b : ℕ) (mem : Bool) (p : PendingConn) :
  (s.acceptPending b mem p).state.pollBook = s.pollBook
  := by
  unfold acceptPending
  split
  · apply pollBook_send
  split
  · apply pollBook_send
  · split <;> apply pollBook_send

/-- The client that waited to accept is answered. -/
theorem pollBook_giveAccepted (w : Waiter) (srv : ℕ) :
  (s.giveAccepted w srv).pollBook = s.pollBook
  := by
  unfold giveAccepted
  split <;> apply pollBook_send

/-- The peer of a socket is told that no more bytes will arrive. -/
theorem pollBook_hangUpPeer (h : ℕ) (peer : Option ℕ) :
  (s.hangUpPeer h peer).pollBook = s.pollBook
  := by
  unfold hangUpPeer
  split
  · rfl
  split
  · rfl
  · apply pollBook_sendAll

/-- The clients that wait at the socket are answered. -/
theorem pollBook_closeSocket (h : ℕ) :
  (s.closeSocket h).pollBook = s.pollBook
  := by
  unfold closeSocket
  split
  · rfl
  split
  · rfl
  · change (State.sendAll _ _).pollBook = s.pollBook
    rw [pollBook_sendAll, pollBook_hangUpPeer]

/-- Passed descriptors are installed one after the other. -/
theorem pollBook_installCaps (b : ℕ) (caps : List ℕ) :
  (s.installCaps b caps).1.pollBook = s.pollBook
  := by
  induction caps generalizing s with
  | nil => rfl
  | cons packed caps ih =>
    unfold installCaps
    split
    · exact ih s
    split
    · exact ih s
    · exact ih _

/-- Readers of a terminal get what it has for them. -/
theorem pollBook_collect (ptyId : ℕ) (collected : List (List Byte)) :
  (s.collect ptyId collected).pollBook = s.pollBook
  := by
  induction collected generalizing s with
  | nil => rfl
  | cons bytes rest ih =>
    unfold collect
    split
    · rfl
    · rw [ih, pollBook_send]
      rfl

/-- An accepted connection of the network gets a descriptor. -/
theorem pollBook_allocInetFd (b connId : ℕ) :
  (s.allocInetFd b connId).state.pollBook = s.pollBook
  := by
  unfold allocInetFd install
  split
  · split <;> rfl
  · rfl

theorem pollBook_answerInet (w : Waiter) (answer : InetAnswer) :
  (s.answerInet w answer).pollBook = s.pollBook
  := by
  unfold answerInet
  cases answer with
  | reply reply => apply pollBook_send
  | accepted connId =>
    rw [pollBook_send, pollBook_allocInetFd]
  | pending => rfl

theorem pollBook_allocPending (op : InetOp) :
  (s.allocPending op).pollBook = s.pollBook
  := by
  unfold allocPending
  split
  · apply pollBook_send
  · rfl

/-- The network server completes a request that was saved. -/
theorem pollBook_netsrvCallback (connId : ℕ) (opType : InetOpType) (answer : InetAnswer) :
  (s.netsrvCallback connId opType answer).state.pollBook = s.pollBook
  := by
  unfold netsrvCallback
  split
  · rfl
  · apply pollBook_answerInet

end

/-! ## Acts -/

variable {s : State} {b : ℕ} {r : Request}

/-- A caller is saved at a socket, a terminal or the network. -/
theorem Wait.pollBook {next : State → Waiter → Outcome} (h : s.Wait b r next) :
  (s.park next).state.pollBook = s.pollBook
  := by
  apply pollBook_park
  intro t w ht
  cases h with
  | connect hc hk hne hroom =>
    change (queueConn ..).pollBook = _
    unfold queueConn
    split <;> exact ht
  | network connId opType wait =>
    split
    · exact (pollBook_allocPending t _).trans ht
    · exact (pollBook_answerInet t w wait).trans ht
  | _ => exact ht

/-- Small acts leave the sleeping clients alone. -/
theorem SmallAct.pollBook {ext : External} {o : Outcome} (h : s.SmallAct b ext r o) :
  o.state.pollBook = s.pollBook
  := by
  cases h with
  | wait h => exact h.pollBook
  | accept hk htake => apply pollBook_acceptPending
  | connect hc hpath hk hne hw => apply pollBook_giveAccepted
  | shutdown shutRd hk => apply pollBook_hangUpPeer
  | arrive data limit reply values hq => apply pollBook_sendAll
  | _ => rfl

end State

end SaltyOS.Vfs
