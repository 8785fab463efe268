import SaltyOS.Vfs.State

/-!
# Polling

Which events of a descriptor are true, and the clients that sleep until one of them is. A sleeping
client is woken by the operations that change a pipe, by the terminals, or by its deadline.

The server collects the clients to wake in batches of 128. There are 30 reply slots, and every
sleeping client has one of its own, so a batch holds all of them.
-/

namespace SaltyOS.Vfs

/-- What the other servers say about the events of terminals and network connections. -/
abbrev Readiness : Type := Backing → Events → Events

/-- The events of an end of a pipe. -/
def PipeState.readiness (p : PipeState) (isReadEnd : Bool) (events : Events) : Events :=
  if isReadEnd then
    { Events.none with
      pollin := events.pollin && decide (0 < p.buf.len)
      pollhup := decide (p.writeRefcount = 0) }
  else
    { Events.none with
      pollout := events.pollout && decide (0 < p.buf.free)
      pollerr := decide (p.readRefcount = 0) }

namespace State

/-- The peer of a socket has room for a byte. -/
def peerHasRoom (s : State) (k : SocketState) : Bool :=
  (k.peerSocket.bind s.sockets).any fun peer => decide (0 < peer.buf.free)

/-- The events of a socket. -/
def socketReadiness (s : State) (k : SocketState) (events : Events) : Events :=
  match k.state with
  | .connected =>
    { Events.none with
      pollin := events.pollin && (decide (0 < k.buf.len) || k.peerClosed)
      pollout := events.pollout && s.peerHasRoom k
      pollhup := k.peerClosed }
  | .listening => { Events.none with pollin := events.pollin && decide (0 < k.pendingCount) }
  | _ => .none

/-- `check_fd_readiness`. -/
def checkFdReadiness (s : State) (ready : Readiness) (b fd : ℕ) (events : Events) : Events :=
  match s.resolveFd b fd with
  | none => { Events.none with pollnval := true }
  | some o =>
    match o.backing with
    | .vnode _ => { Events.none with pollin := events.pollin, pollout := events.pollout }
    | .device .other _ => { Events.none with pollin := events.pollin, pollout := events.pollout }
    | .device devType id => ready (.device devType id) events
    | .unixSocket h => (s.sockets h).elim .none fun k => s.socketReadiness k events
    | .pipe h => (s.pipes h).elim .none fun p => p.readiness o.canRead events
    | .inetSocket id => ready (.inetSocket id) events
    | _ => { Events.none with pollnval := true }

end State

/-! ## Waking -/

namespace PollWaiter

/-- The events that a client is told for each of its descriptors. In the reply to `epoll_wait` the
descriptors without events are left out. -/
def reply (w : PollWaiter) (told : Watch → Events) : Reply :=
  match w.kind with
  | .poll => .events (w.objects.map fun o => (told o, 0))
  | .epoll =>
    .events ((w.objects.filter fun o => told o != .none).map fun o => (told o, o.data))

/-- Some event is told. -/
def isHit (w : PollWaiter) (told : Watch → Events) : Bool :=
  w.objects.any fun o => told o != .none

end PollWaiter

/-- The events that `wake_poll_waiters` tells for a descriptor. -/
def Watch.told (fd : ℕ) (revents : Events) (o : Watch) : Events :=
  if o.fd = fd then revents.matched o.events else .none

namespace State

variable (s : State)

/-- The events of a descriptor of a client that sleeps. -/
def watched (ready : Readiness) (w : PollWaiter) (o : Watch) : Events :=
  s.checkFdReadiness ready w.waiter.badge o.fd o.events

/-- The sleeping clients that satisfy a predicate get a reply and are not asleep any more. -/
def dismiss (chosen : PollWaiter → Bool) (reply : PollWaiter → Reply) : State :=
  State.sendAll { s with pollWaiters := s.pollWaiters.filter fun w => !chosen w }
    ((s.pollWaiters.filter chosen).map fun w => (w.waiter, reply w))

/-- The events that the sleeping clients that satisfy a predicate are about to be told, with those
that are true. -/
def report (ready : Readiness) (chosen : PollWaiter → Bool) (told : PollWaiter → Watch → Events) :
    List (Events × Events) :=
  (s.pollWaiters.filter chosen).flatMap fun w => w.objects.map fun o => (told w o, s.watched ready w o)

/-- The sleeping clients that satisfy a predicate are told some events. -/
def wakeAll (ready : Readiness) (chosen : PollWaiter → Bool) (told : PollWaiter → Watch → Events) :
    State :=
  State.dismiss { s with reports := s.reports ++ s.report ready chosen told } chosen
    fun w => w.reply (told w)

/-- `wake_poll_waiters`. -/
def wakePollWaiters (b fd : ℕ) (revents : Events) : State :=
  s.wakeAll (fun _ _ => .none) (fun w => decide (w.waiter.badge = b) && w.isHit (Watch.told fd revents))
    (fun _ => Watch.told fd revents)

/-- The descriptors of all clients that refer to an end of a pipe. -/
def pipeFds (h : ℕ) (isReadEnd : Bool) : List (ℕ × ℕ) :=
  s.clients.flatMap fun b => ((List.range maxClientObjects).filter fun fd =>
      decide ((s.objects b fd).pipeHandle = some h) &&
        decide ((s.objects b fd).canRead = isReadEnd)).map fun fd => (b, fd)

/-- `wake_poll_waiters_pipe`. -/
def wakePollWaitersPipe (h : ℕ) (isReadEnd : Bool) (revents : Events) : State :=
  (s.pipeFds h isReadEnd).foldl (fun t x => t.wakePollWaiters x.1 x.2 revents) s

/-- The events that `wake_pty_poll_waiters` tells for a descriptor. -/
def ptyTold (ptyId : ℕ) (w : PollWaiter) (o : Watch) : Events :=
  if w.waiter.badge ∈ s.clients ∧ o.fd < maxClientObjects ∧
      (s.objects w.waiter.badge o.fd).backing = .device .ptySlave ptyId then
    ({ Events.none with pollin := true } : Events).matched o.events
  else .none

/-- `wake_pty_poll_waiters`. -/
def wakePtyPollWaiters (ready : Readiness) (ptyId : ℕ) : State :=
  s.wakeAll ready (fun w => w.isHit (s.ptyTold ptyId w)) (s.ptyTold ptyId)

/-- `expire_poll_timeouts`. -/
def expirePollTimeouts (now : ℕ) : State :=
  s.dismiss (fun w => decide (w.deadline ≠ 0) && decide (w.deadline ≤ now)) fun _ => .events []

/-! ## Requests -/

/-- `timeout_deadline_ns`. Zero is no deadline. -/
def timeoutDeadline (now : ℕ) (timeout : ℤ) : ℕ :=
  if timeout ≤ 0 then 0 else min (now + 1000000 * timeout.toNat) (2 ^ 64 - 1)

/-- The record of a client that goes to sleep. -/
def addPoller (w : PollWaiter) : State :=
  { s with polls := s.polls ++ [w.waiter], pollWaiters := s.pollWaiters ++ [w] }

/-- A client goes to sleep, unless one of its descriptors has become ready
(`try_deliver_ready_waiter`). There may be no memory for the record of the client. -/
def sleep (ready : Readiness) (mem : Bool) (w : PollWaiter) : Outcome :=
  if mem = false then (s.send w.waiter (.error .outOfMemory)).deferred
  else if w.isHit (s.watched ready w) = true then
    ((s.addPoller w).wakeAll ready (fun v => v == w) (s.watched ready)).deferred
  else (s.addPoller w).deferred

/-- `handle_poll`. The readiness of terminals and network connections is asked for twice. -/
def handlePoll (b : ℕ) (ready ready' : Readiness) (mem : Bool) (now : ℕ) (fds : List (ℕ × Events))
    (timeout : ℤ) : Outcome :=
  if timeout = 0 ∨ ∃ x ∈ fds.take 8, s.checkFdReadiness ready b x.1 x.2 ≠ .none then
    { state := s
      reply := some (.events ((fds.take 8).map fun x => (s.checkFdReadiness ready b x.1 x.2, 0))) }
  else
    s.park fun t w => t.sleep ready' mem
      { kind := .poll
        waiter := w
        objects := (fds.take 8).map fun x => { fd := x.1, events := x.2, data := 0 }
        deadline := timeoutDeadline now timeout }

/-- A new event queue, with the next handle. -/
def addEpoll : State :=
  { s with
    epolls := Function.update s.epolls s.nextEpoll (some (List.replicate initialEpollEntries none))
    nextEpoll := s.nextEpoll + 1 }

/-- `handle_epoll_create`. -/
def handleEpollCreate (b : ℕ) (mem : Bool) : Outcome :=
  if mem = false then s.fail .outOfMemory
  else
    match s.freeFd b 0 with
    | none => s.fail .outOfMemory
    | some fd =>
      (s.addEpoll.setObject b fd (.of (.epoll s.nextEpoll))).ok [fd]

/-- Replace the entries of an event queue. -/
def setEpoll (h : ℕ) (entries : List (Option Watch)) : State :=
  { s with epolls := Function.update s.epolls h (some entries) }

/-- The event queue of a descriptor, with its handle. -/
def epollOf (b epfd : ℕ) : Option (ℕ × List (Option Watch)) :=
  ((s.resolveFd b epfd).bind ObjectSlot.epollHandle).bind fun h =>
    (s.epolls h).map fun entries => (h, entries)

/-- `handle_epoll_ctl`. The operations are to add, to remove and to modify an entry. -/
def handleEpollCtl (b epfd op : ℕ) (o : Watch) : Outcome :=
  match s.epollOf b epfd with
  | none => s.fail .invalidArgument
  | some x =>
    if s.resolveFd b o.fd = none then s.fail .invalidArgument
    else
      match op with
      | 1 =>
        if x.2.reduceOption.any (fun e => e.fd == o.fd) then s.fail .invalidArgument
        else
          match x.2.putSlot o with
          | none => s.fail .outOfMemory
          | some entries => (s.setEpoll x.1 entries).ok []
      | 2 =>
        match x.2.takeSlot (fun e => e.fd == o.fd) with
        | none => s.fail .notFound
        | some r => (s.setEpoll x.1 r.2).ok []
      | 3 =>
        if x.2.reduceOption.any (fun e => e.fd == o.fd) then
          (s.setEpoll x.1 (x.2.map fun e => e.map fun e' => if e'.fd = o.fd then o else e')).ok []
        else s.fail .notFound
      | _ => s.fail .invalidArgument

/-- `handle_epoll_wait`. -/
def handleEpollWait (b : ℕ) (ready ready' : Readiness) (mem : Bool) (now : ℕ) (epfd maxEvents : ℕ)
    (timeout : ℤ) : Outcome :=
  match s.epollOf b epfd with
  | none => s.fail .invalidArgument
  | some x =>
    if timeout = 0 ∨ (0 < maxEvents ∧
        ∃ e ∈ x.2.reduceOption, s.checkFdReadiness ready b e.fd e.events ≠ .none) then
      { state := s
        reply := some (.events (((x.2.reduceOption.filter fun e =>
          s.checkFdReadiness ready b e.fd e.events != .none).take (min maxEvents 8)).map fun e =>
            (s.checkFdReadiness ready b e.fd e.events, e.data))) }
    else
      s.park fun t w => t.sleep ready' mem
        { kind := .epoll
          waiter := w
          objects := x.2.reduceOption.take 8
          deadline := timeoutDeadline now timeout }

end State

end SaltyOS.Vfs
