import SaltyOS.Vfs.Pipe
import SaltyOS.Vfs.Socket

/-!
# The state of the file server

The tables of descriptors of the clients, the pipes, sockets and event queues, the records of the
clients that wait, and the part of the kernel that the server relies on: the caller of the request
that is being handled, and the callers that were saved in reply slots.

The handles of pipes, sockets and event queues are numbers that are never used again. In the
implementation a handle is the index of a cell with the epoch of the cell.

Some fields are not part of the implementation: the number of requests, the clients that were ever
put to sleep by `poll`, the events that those were told, with those that were true then, and the ends
of pipes whose waiting clients were sent away because the other end was closed.
-/

open Function

namespace SaltyOS.Vfs

/-! ## Descriptors -/

/-- The types of device that the server tells apart. -/
inductive DevType where
  | ptySlave
  | ptmx
  | other
  deriving DecidableEq, Repr

/-- What a descriptor refers to. A vnode stands for files, directories and shared memory. -/
inductive Backing where
  | none
  | reserved
  | vnode (id : ℕ)
  | device (devType : DevType) (ptyId : ℕ)
  | pipe (handle : ℕ)
  | unixSocket (handle : ℕ)
  | inetSocket (id : ℕ)
  | epoll (handle : ℕ)
  deriving DecidableEq, Repr

/-- A slot of the table of descriptors of a client. -/
structure ObjectSlot where
  backing : Backing
  canRead : Bool
  canWrite : Bool
  nonblocking : Bool
  cloexec : Bool
  deriving DecidableEq, Repr

namespace ObjectSlot

/-- The slot that is not in use. -/
def zeroed : ObjectSlot :=
  { backing := .none, canRead := false, canWrite := false, nonblocking := false, cloexec := false }

/-- A slot with the given backing and no rights or flags. -/
def of (backing : Backing) : ObjectSlot := { zeroed with backing }

variable (o : ObjectSlot)

/-- The slot can be allocated. -/
def isFree : Bool := o.backing == .none

/-- The slot refers to something. -/
def isLive : Bool := o.backing != .none && o.backing != .reserved

/-- The handle of the pipe that the slot refers to. -/
def pipeHandle : Option ℕ :=
  match o.backing with
  | .pipe h => some h
  | _ => none

/-- The handle of the socket that the slot refers to. -/
def unixSocketHandle : Option ℕ :=
  match o.backing with
  | .unixSocket h => some h
  | _ => none

/-- The number of the network connection that the slot refers to. -/
def inetSocketId : Option ℕ :=
  match o.backing with
  | .inetSocket id => some id
  | _ => none

/-- The handle of the event queue that the slot refers to. -/
def epollHandle : Option ℕ :=
  match o.backing with
  | .epoll h => some h
  | _ => none

end ObjectSlot

/-- The number of descriptors of a client. -/
def maxClientObjects : ℕ := 128

/-! ## Waiting clients -/

/-- Whether a client sleeps in `poll` or in `epoll_wait`. -/
inductive PollKind where
  | poll
  | epoll
  deriving DecidableEq, Repr

/-- A descriptor that a client watches, and the events that it asked for. -/
structure Watch where
  fd : ℕ
  events : Events
  data : ℕ
  deriving DecidableEq, Repr

/-- A client that sleeps until one of its descriptors is ready, or until the deadline. -/
structure PollWaiter where
  kind : PollKind
  waiter : Waiter
  objects : List Watch
  deadline : ℕ
  deriving DecidableEq, Repr

/-- A client that waits to read from a terminal. -/
structure PtyReader where
  ptyId : ℕ
  waiter : Waiter
  maxCount : ℕ
  deadline : ℕ
  deriving DecidableEq, Repr

/-- The requests to the network server that can be deferred. -/
inductive InetOpType where
  | connect
  | recv
  | recvfrom
  | accept
  deriving DecidableEq, Repr

/-- A client that waits for the network server. -/
structure InetOp where
  waiter : Waiter
  connId : ℕ
  opType : InetOpType
  deriving DecidableEq, Repr

/-- A caller that waits for a reply: the badge of its client and the number of its request. -/
structure Caller where
  badge : ℕ
  request : ℕ
  deriving DecidableEq, Repr

/-- The caller of a waiter. -/
def Waiter.caller (w : Waiter) : Caller := { badge := w.badge, request := w.request }

/-- The first reply slot. -/
def capReplyBase : ℕ := 32

/-- The end of the reply slots. -/
def capReplyLimit : ℕ := 62

/-- The number of clients that can wait for one terminal. -/
def maxPtyWaiters : ℕ := 4

/-- The number of terminals. -/
def maxPtys : ℕ := 4

/-- The number of clients that can wait for the network server. -/
def maxPendingInet : ℕ := 16

/-- The number of descriptors that an event queue can watch. -/
def initialEpollEntries : ℕ := 16

/-! ## The state -/

/-- The tables of the server: its clients and their descriptors, and what these refer to. -/
structure Tables where
  clients : List ℕ
  objects : ℕ → ℕ → ObjectSlot
  pipes : ℕ → Option PipeState
  nextPipe : ℕ
  sockets : ℕ → Option SocketState
  nextSocket : ℕ
  epolls : ℕ → Option (List (Option Watch))
  nextEpoll : ℕ
  tornEnds : List (ℕ × Bool)

/-- The part of the kernel that the server relies on: the caller of the current request, the callers
that were saved in reply slots, and the replies that callers got. -/
structure Kernel where
  caller : Option Caller
  saved : ℕ → Option Caller
  delivered : List (Caller × Reply)
  requests : ℕ

/-- The state of the server. -/
structure State extends Tables, Kernel where
  pollWaiters : List PollWaiter
  ptyPending : List PtyReader
  inetPending : List (Option InetOp)
  nextReplySlot : ℕ
  polls : List Waiter
  reports : List (Events × Events)

/-! ## Changes of the tables -/

namespace Tables

variable (T : Tables)

/-- Replace a slot of a client. -/
def setObject (b fd : ℕ) (o : ObjectSlot) : Tables :=
  { T with objects := update T.objects b (update (T.objects b) fd o) }

/-- Replace a pipe. -/
def setPipe (h : ℕ) (p : PipeState) : Tables :=
  { T with pipes := update T.pipes h (some p) }

/-- Remove a pipe. -/
def releasePipe (h : ℕ) : Tables := { T with pipes := update T.pipes h none }

/-- Replace a socket. -/
def setSocket (h : ℕ) (k : SocketState) : Tables :=
  { T with sockets := update T.sockets h (some k) }

/-- Remove a socket. -/
def releaseSocket (h : ℕ) : Tables := { T with sockets := update T.sockets h none }

/-- A new pipe, with the next handle. -/
def addPipe : Tables :=
  { T with
    pipes := update T.pipes T.nextPipe (some .new)
    nextPipe := T.nextPipe + 1 }

/-- A new socket, with the next handle. -/
def addSocket (k : SocketState) : Tables :=
  { T with
    sockets := update T.sockets T.nextSocket (some k)
    nextSocket := T.nextSocket + 1 }

/-- A new client, with an empty table. -/
def addClient (b : ℕ) : Tables :=
  { T with
    clients := T.clients ++ [b]
    objects := update T.objects b fun _ => .zeroed }

/-- A client is forgotten, with its table. -/
def removeClient (b : ℕ) : Tables :=
  { T with
    clients := T.clients.filter fun c => !decide (c = b)
    objects := update T.objects b fun _ => .zeroed }

/-- The table of the client `child` becomes that of the client `parent`. -/
def cloneObjects (parent child : ℕ) : Tables :=
  { T with objects := update T.objects child (T.objects parent) }

/-- `resolve_fd`. -/
def resolveFd (b fd : ℕ) : Option ObjectSlot :=
  if fd < maxClientObjects ∧ (T.objects b fd).isLive = true then some (T.objects b fd) else none

/-- The first free descriptor that is at least `low`. -/
def freeFd (b low : ℕ) : Option ℕ :=
  (List.range maxClientObjects).find? fun fd => decide (low ≤ fd) && (T.objects b fd).isFree

/-- The handle of a descriptor that is a unix socket. -/
def unixSocketHandle (T : Tables) (b fd : ℕ) : Option ℕ :=
  (T.resolveFd b fd).bind ObjectSlot.unixSocketHandle

end Tables

/-! ## Changes of the state -/

/-- What is left of a request: the new state, and the reply unless the request is deferred. -/
structure Outcome where
  state : State
  reply : Option Reply

namespace State

/-- The state after the start of the server. -/
def initial : State where
  clients := []
  objects := fun _ _ => .zeroed
  pipes := fun _ => none
  nextPipe := 0
  sockets := fun _ => none
  nextSocket := 0
  epolls := fun _ => none
  nextEpoll := 0
  tornEnds := []
  pollWaiters := []
  ptyPending := []
  inetPending := List.replicate maxPendingInet none
  nextReplySlot := capReplyBase
  caller := none
  saved := fun _ => none
  delivered := []
  requests := 0
  polls := []
  reports := []

variable (s : State)

/-- The request fails. -/
def fail (label : Label) : Outcome := { state := s, reply := some (.error label) }

/-- The request succeeds with the given values. -/
def ok (s : State) (values : List ℕ) : Outcome :=
  { state := s, reply := some (.ok values) }

/-- The request is deferred. -/
def deferred : Outcome := { state := s, reply := none }

/-! ## The kernel -/

/-- A request of a client arrives. -/
def receive (b : ℕ) : State :=
  { s with
    caller := some { badge := b, request := s.requests }
    requests := s.requests + 1 }

/-- The reply to the current caller. It goes nowhere if the caller was saved. -/
def replyTo (reply : Reply) : State :=
  match s.caller with
  | none => s
  | some c => { s with caller := none, delivered := s.delivered ++ [(c, reply)] }

/-- A message to the caller that was saved in the slot of a waiter. -/
def send (w : Waiter) (reply : Reply) : State :=
  match s.saved w.slot with
  | none => s
  | some c =>
    { s with
      saved := update s.saved w.slot none
      delivered := s.delivered ++ [(c, reply)] }

/-- Several messages. -/
def sendAll (messages : List (Waiter × Reply)) : State :=
  messages.foldl (fun t m => t.send m.1 m.2) s

/-- `alloc_reply_slot`. -/
def allocReplySlot : State :=
  { s with
    nextReplySlot :=
      if s.nextReplySlot + 1 ≥ capReplyLimit then capReplyBase else s.nextReplySlot + 1 }

/-- The caller is saved in a slot. -/
def saveCaller (c : Caller) (slot : ℕ) : State :=
  { s with caller := none, saved := update s.saved slot (some c) }

/-- The waiter that a request becomes if its caller is saved. -/
def newWaiter (c : Caller) : Waiter :=
  { slot := s.nextReplySlot, badge := c.badge, request := c.request }

/-- Save the caller in the next reply slot and go on with the waiter. The caller cannot be saved if
the slot is in use. -/
def park (next : State → Waiter → Outcome) : Outcome :=
  match s.caller, s.saved s.nextReplySlot with
  | some c, none => next (s.allocReplySlot.saveCaller c s.nextReplySlot) (s.newWaiter c)
  | _, _ => s.allocReplySlot.fail .invalidOperation

/-! ## The tables -/

/-- Replace a slot of a client. -/
def setObject (s : State) (b fd : ℕ) (o : ObjectSlot) : State :=
  { s with toTables := s.toTables.setObject b fd o }

/-- Replace a pipe. -/
def setPipe (s : State) (h : ℕ) (p : PipeState) : State :=
  { s with toTables := s.toTables.setPipe h p }

/-- `release_pipe`. -/
def releasePipe (s : State) (h : ℕ) : State :=
  { s with toTables := s.toTables.releasePipe h }

/-- Replace a socket. -/
def setSocket (s : State) (h : ℕ) (k : SocketState) : State :=
  { s with toTables := s.toTables.setSocket h k }

/-- `release_socket`. -/
def releaseSocket (s : State) (h : ℕ) : State :=
  { s with toTables := s.toTables.releaseSocket h }

/-- A new pipe, with the next handle. -/
def addPipe (s : State) : State := { s with toTables := s.toTables.addPipe }

/-- A new socket, with the next handle. -/
def addSocket (s : State) (k : SocketState) : State :=
  { s with toTables := s.toTables.addSocket k }

/-- `resolve_client`: a new client starts with an empty table. -/
def resolveClient (b : ℕ) (mem : Bool) : Option State :=
  if b ∈ s.clients then some s
  else if mem = true then some { s with toTables := s.toTables.addClient b }
  else none

end State

/-- The end of a request: the reply is sent unless the request is deferred. -/
def Outcome.finish (o : Outcome) : State :=
  match o.reply with
  | none => o.state
  | some reply => o.state.replyTo reply

end SaltyOS.Vfs
