import SaltyOS.Sched.Pip

/-!
# The state of inter-process communication

Messages, the reasons for which threads are blocked, endpoints and notifications, the IPC fields of
a thread, and what remains to be done by a thread that is inside the kernel.

The wait queues are kept as lists in the order of their links. A link of a receive queue is the
thread it belongs to and its index among the links of that thread. The scheduling fields of a thread
are kept apart, in the scheduler. The memory of the IPC buffers is represented by its reserved area
only, and the copying of capabilities by its outcome.
-/

open Function

namespace SaltyOS.Ipc

/-- An IPC message. -/
structure Message where
  label : ℕ
  length : ℕ
  extraCaps : ℕ
  regs : List ℕ
  caps : List ℕ
  deriving DecidableEq, Repr

/-- The empty message. -/
def Message.empty : Message :=
  { label := 0, length := 0, extraCaps := 0, regs := List.replicate 32 0, caps := List.replicate 4 0 }

/-- A message without its capabilities. -/
def Message.withoutCaps (msg : Message) : Message :=
  { msg with extraCaps := 0, caps := List.replicate 4 0 }

/-- The number of capabilities a message transfers. -/
def Message.capCount (msg : Message) : ℕ := min msg.extraCaps 4

/-- The reasons for which a thread is blocked. -/
inductive BlockedReason where
  | sendBlocked (msg : Message) (badge : ℕ)
  | recvBlocked
  | notificationWait
  | vspaceWait
  | replyWait (msg : Message) (badge : ℕ)
  | faultBlocked (msg : Message) (badge : ℕ)
  | callSendBlocked (msg : Message) (badge : ℕ)
  | timerBlocked
  | futexBlocked
  | futexTimedBlocked
  | sendTimedBlocked (msg : Message) (badge : ℕ)
  | recvTimedBlocked
  deriving DecidableEq, Repr

namespace BlockedReason

/-- The thread waits in the sleep queue as well. -/
def isTimed : BlockedReason → Bool
  | timerBlocked => true
  | futexTimedBlocked => true
  | sendTimedBlocked _ _ => true
  | recvTimedBlocked => true
  | _ => false

/-- The thread waits for the reply of a server. -/
def isReplyWait : BlockedReason → Bool
  | replyWait _ _ => true
  | _ => false

/-- The thread waits for the answer to a fault. -/
def isFault : BlockedReason → Bool
  | faultBlocked _ _ => true
  | _ => false

/-- The thread waits for a server to take its call. -/
def isCallSend : BlockedReason → Bool
  | callSendBlocked _ _ => true
  | _ => false

/-- The thread waits for a receiver, for a limited time. -/
def isSendTimed : BlockedReason → Bool
  | sendTimedBlocked _ _ => true
  | _ => false

/-- The thread waits for a sender. -/
def isRecv : BlockedReason → Bool
  | recvBlocked => true
  | recvTimedBlocked => true
  | _ => false

/-- The message a sender in a queue offers, its badge, and whether the sender stays blocked when the
message has been received. -/
def offer : Option BlockedReason → Message × ℕ × Bool
  | some (sendBlocked msg badge) => (msg, badge, false)
  | some (sendTimedBlocked msg badge) => (msg, badge, false)
  | some (faultBlocked msg badge) => (msg, badge, true)
  | some (callSendBlocked msg badge) => (msg, badge, true)
  | _ => (.empty, 0, false)

end BlockedReason

/-- The index that says that no source has been selected. -/
def recvWaitSelectedNone : ℕ := 2 ^ 16 - 1

/-- The index that says that a notification has been selected. -/
def recvWaitSelectedNotification : ℕ := 2 ^ 16 - 2

/-- The result of a wait that ran out of time. -/
def cancelled : ℕ := 12

/-- The IPC fields of a thread control block. The links into receive queues are given by their
endpoints, in the order of the links, and the IPC buffer by the page it resolves to. -/
structure Tcb where
  blockedReason : Option BlockedReason
  blockedEndpoint : Option ObjPtr
  blockedNotification : Option ObjPtr
  recvWaits : List ObjPtr
  recvWaitSelected : ℕ
  replyTcb : Option ObjPtr
  replyCanGrant : Bool
  savedCallerMsg : Message
  savedCallerBadge : ℕ
  wokenByNotification : Bool
  boundNotification : Option ObjPtr
  notificationDispatcher : ℕ
  faultHandlerBadge : ℕ
  timerWakeupNs : ℕ
  futexAddr : ℕ
  futexVSpace : Option ObjPtr
  futexWakeupResult : ℕ
  vspaceRoot : Option ObjPtr
  kernelStackTop : ℕ
  ipcBuffer : Option PhysAddr
  deriving DecidableEq, Repr

/-- The IPC fields of a thread that waits for nothing. -/
def Tcb.new : Tcb :=
  { blockedReason := none, blockedEndpoint := none, blockedNotification := none, recvWaits := [],
    recvWaitSelected := recvWaitSelectedNone, replyTcb := none, replyCanGrant := false,
    savedCallerMsg := .empty, savedCallerBadge := 0, wokenByNotification := false,
    boundNotification := none, notificationDispatcher := 0, faultHandlerBadge := 0,
    timerWakeupNs := 0, futexAddr := 0, futexVSpace := none, futexWakeupResult := 0,
    vspaceRoot := none, kernelStackTop := 0, ipcBuffer := none }

/-- The states of an endpoint. -/
inductive EndpointState where
  | idle
  | sendBlocked
  | recvBlocked
  deriving DecidableEq, Repr

/-- An endpoint. -/
structure Endpoint where
  locked : Bool
  state : EndpointState
  sendQueue : List ObjPtr
  recvQueue : List (ObjPtr × ℕ)
  nbsend : List (Message × ℕ)
  deriving DecidableEq, Repr

/-- An endpoint on which nobody waits. -/
def Endpoint.new : Endpoint :=
  { locked := false, state := .idle, sendQueue := [], recvQueue := [], nbsend := [] }

/-- A notification. -/
structure Notification where
  bits : ℕ
  waiting : Option ObjPtr
  boundTcb : Option ObjPtr
  deriving DecidableEq, Repr

/-! ## Threads inside the kernel -/

/-- The sending system calls. -/
inductive SendKind where
  | send
  | nbsend
  | call
  | sendTimeout (timeoutNs : ℕ)
  deriving DecidableEq, Repr

/-- The endpoints a receiving system call waits on, and for how long. -/
inductive RecvKind where
  | one (endpoint : ObjPtr)
  | oneTimeout (endpoint : ObjPtr) (timeoutNs : ℕ)
  | any (endpoints : List ObjPtr)
  | anyTimeout (endpoints : List ObjPtr) (timeoutNs : ℕ)
  deriving DecidableEq, Repr

/-- What a blocked thread returns from when it runs again. -/
inductive Await where
  | send
  | callQueued
  | callReply
  | recv
  | recvTimed
  | notification (n : ObjPtr)
  | fault
  | sleep
  | futex
  deriving DecidableEq, Repr

/-- Where a thread is: in user mode, in the middle of a capability transfer with the lock of the
endpoint released, between the reply and the receive phase of a system call, about to enter the sleep
queue, or waiting to run again. -/
inductive Kont where
  | user
  | sendTransfer (kind : SendKind) (endpoint receiver : ObjPtr) (msg : Message) (badge : ℕ)
    (recvQueueEmpty : Bool)
  | recvTransfer (kind : RecvKind) (endpoint sender : ObjPtr) (msg : Message) (badge : ℕ)
    (keepBlocked sendQueueEmpty : Bool) (wakeCaller : Option ObjPtr)
  | replyTransfer (kind : RecvKind) (caller : ObjPtr) (msg : Message)
  | recvPhase (kind : RecvKind) (wakeCaller : Option ObjPtr)
  | timedWait (wait : Await) (timeoutNs : ℕ)
  | await (wait : Await)
  deriving DecidableEq, Repr

/-- What is left to a receiver that waits. -/
def RecvKind.wait : RecvKind → Kont
  | .one _ => .await .recv
  | .any _ => .await .recv
  | .oneTimeout _ timeoutNs => .timedWait .recvTimed timeoutNs
  | .anyTimeout _ timeoutNs => .timedWait .recvTimed timeoutNs

/-- The reason for which a receiver waits. -/
def RecvKind.reason : RecvKind → BlockedReason
  | .one _ => .recvBlocked
  | .any _ => .recvBlocked
  | .oneTimeout _ _ => .recvTimedBlocked
  | .anyTimeout _ _ => .recvTimedBlocked

/-- The index of an endpoint among those a receiver waits on. -/
def RecvKind.source (e : ObjPtr) : RecvKind → ℕ
  | .any es => es.idxOf e
  | .anyTimeout es _ => es.idxOf e
  | _ => 0

/-- A signal between its two critical sections: the thread it is for, the notification, the endpoint
the thread was blocked on, and whether the thread was waiting for a server to take its call. -/
structure Signal where
  tcb : ObjPtr
  notification : ObjPtr
  endpoint : ObjPtr
  callSend : Bool
  deriving DecidableEq, Repr

/-- The state of the system. The threads in `expired` have been taken out of the sleep queue because
their time is up, and have not been woken yet. What a receiving system call returned last (message,
badge and source) is kept in `returned`, and the history variable `receivedBy` says who has received
the current call of a thread. -/
structure System where
  sched : Scheduler
  tcb : ObjPtr → Tcb
  endpoint : ObjPtr → Endpoint
  notification : ObjPtr → Notification
  sleepQueue : List ObjPtr
  expired : List ObjPtr
  futexQueue : List ObjPtr
  reserved : PhysAddr → List ℕ
  kont : ObjPtr → Kont
  signals : List Signal
  returned : ObjPtr → Message × ℕ × ℕ
  receivedBy : ObjPtr → Option ObjPtr

namespace System

variable (s : System)

/-- Change the IPC fields of a thread. -/
def setTcb (t : ObjPtr) (f : Tcb → Tcb) : System :=
  { s with tcb := update s.tcb t (f (s.tcb t)) }

/-- Change an endpoint. -/
def setEndpoint (e : ObjPtr) (f : Endpoint → Endpoint) : System :=
  { s with endpoint := update s.endpoint e (f (s.endpoint e)) }

/-- Change a notification. -/
def setNotification (n : ObjPtr) (f : Notification → Notification) : System :=
  { s with notification := update s.notification n (f (s.notification n)) }

/-- Change what remains to be done by a thread. -/
def setKont (t : ObjPtr) (k : Kont) : System := { s with kont := update s.kont t k }

/-- Change the state of a thread. -/
def setState (t : ObjPtr) (state : ThreadState) : System :=
  { s with sched := s.sched.setState t state }

/-- The state of a thread. -/
def state (t : ObjPtr) : ThreadState := (s.sched.thread t).state

/-- Make a thread ready. -/
def enqueue (cpu : ℕ) (t : ObjPtr) : System := { s with sched := s.sched.enqueue cpu t }

/-- Make a thread ready, if there is one. -/
def enqueueOpt (cpu : ℕ) (t : Option ObjPtr) : System :=
  match t with
  | some t => s.enqueue cpu t
  | none => s

/-- Donate the priority of a thread. -/
def pipDonate (donor holder : ObjPtr) : System :=
  { s with sched := s.sched.pipDonate donor holder }

/-- Revert a donation. -/
def pipUndonate (holder caller : ObjPtr) : System :=
  { s with sched := s.sched.pipUndonate holder caller }

/-- Forget the donations of a thread. -/
def pipCleanup (t : ObjPtr) : System := { s with sched := s.sched.pipCleanup t }

/-- Return to user mode with a message, a badge and a source. -/
def ret (t : ObjPtr) (msg : Message) (badge source : ℕ) : System :=
  { s.setKont t .user with returned := update s.returned t (msg, badge, source) }

/-- Record who has received the current call of a thread. -/
def setReceivedBy (t : ObjPtr) (server : Option ObjPtr) : System :=
  { s with receivedBy := update s.receivedBy t server }

end System

end SaltyOS.Ipc
