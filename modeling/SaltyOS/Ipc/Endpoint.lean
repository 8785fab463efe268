import SaltyOS.Ipc.State

/-!
# Endpoints

The operations of an endpoint. Each definition is one critical section under the lock of the
endpoint, together with the wakeups that follow it. A transfer that carries capabilities releases the
lock, so that it splits the operation into two sections, with what remains to be done in the
continuation of the running thread; whether the capabilities can be copied is decided when the second
section runs.
-/

namespace SaltyOS.Ipc

/-! ## Transfer of messages -/

/-- The label of a request to execute a program. -/
def pmExecLabel : ℕ := 6

/-- The size of the reserved area of an IPC buffer as the transfer of a request to execute a program
takes it. -/
def ipcBufferReservedBytes : ℕ := 466 * 8

/-- The length of the payload of a request to execute a program. -/
def execPayloadLen (msg : Message) : Option ℕ :=
  let pathLen := msg.regs.getD 0 0
  let lenReg := 1 + (pathLen + 7) / 8 + 1
  let payloadLen := msg.regs.getD lenReg 0
  if msg.label ≠ pmExecLabel then none
  else if 64 < pathLen then none
  else if msg.length ≤ lenReg ∨ msg.regs.length ≤ lenReg then none
  else if ipcBufferReservedBytes < payloadLen then none
  else some payloadLen

namespace System

variable (s : System)

/-- Write the reserved area of an IPC buffer. -/
def setReserved (page : PhysAddr) (bytes : List ℕ) : System :=
  { s with reserved := Function.update s.reserved page bytes }

/-- Copy the payload of a request to execute a program to the IPC buffer of the receiver, which is
cleared first. -/
def transferExecPayload (sender receiver : ObjPtr) (msg : Message) : System :=
  if msg.label ≠ pmExecLabel then s
  else
    match (s.tcb receiver).ipcBuffer with
    | none => s
    | some dst =>
      let s := s.setReserved dst (List.replicate ipcBufferReservedBytes 0)
      match execPayloadLen msg, (s.tcb sender).ipcBuffer with
      | some len, some src =>
        s.setReserved dst ((s.reserved src).take len ++ (s.reserved dst).drop len)
      | _, _ => s

/-- Hand a message over to the receiver. -/
def transferMessage (sender receiver : ObjPtr) (msg : Message) (badge : ℕ) : System :=
  (s.setTcb receiver fun th =>
    { th with savedCallerMsg := msg, savedCallerBadge := badge }).transferExecPayload
      sender receiver msg

/-! ## Queues -/

variable (cpu : ℕ) (kind : RecvKind) (t : ObjPtr) (wakeCaller : Option ObjPtr) (late : ℕ)

/-- Take a thread out of all receive queues it waits in. -/
def removeAllRecvWaits (selected : ℕ) : System :=
  let waits := (s.tcb t).recvWaits
  { s with
    endpoint := fun e =>
      if e ∈ waits then
        { s.endpoint e with recvQueue := (s.endpoint e).recvQueue.filter fun link => link.1 ≠ t }
      else s.endpoint e
    tcb := Function.update s.tcb t
      { s.tcb t with recvWaits := [], recvWaitSelected := selected, blockedEndpoint := none } }

/-- Take the first waiting receiver of an endpoint out of all its queues. -/
def popRecvWaiter (e : ObjPtr) : Option (ObjPtr × System) :=
  match (s.endpoint e).recvQueue with
  | [] => none
  | (r, selected) :: queue =>
    some (r, (s.setEndpoint e fun ep => { ep with recvQueue := queue }).removeAllRecvWaits r selected)

/-- Let a thread wait in the receive queue of one endpoint. -/
def armRecvWait (t e : ObjPtr) : System :=
  (s.setTcb t fun th =>
    { th with
      recvWaits := [e]
      recvWaitSelected := recvWaitSelectedNone
      blockedEndpoint := some e }).setEndpoint e fun ep =>
    { ep with recvQueue := ep.recvQueue ++ [(t, 0)], state := .recvBlocked }

/-- Let a receiver wait again whose message could not be transferred. -/
def restoreSingleRecvWait (t e : ObjPtr) : System :=
  (s.armRecvWait t e).setTcb t fun th => { th with wokenByNotification := false }

/-- Let a thread wait in the receive queues of several endpoints. -/
def armRecvAny (es : List ObjPtr) : System :=
  { s with
    endpoint := fun e =>
      if e ∈ es then
        { s.endpoint e with
          recvQueue := (s.endpoint e).recvQueue ++ [(t, es.idxOf e)]
          state := if (s.endpoint e).state = .idle then .recvBlocked else (s.endpoint e).state }
      else s.endpoint e
    tcb := Function.update s.tcb t
      { s.tcb t with
        recvWaits := es
        recvWaitSelected := recvWaitSelectedNone
        blockedEndpoint := es.head?
        wokenByNotification := false } }

/-- Block a thread. -/
def block (reason : BlockedReason) : System :=
  (s.setTcb t fun th => { th with blockedReason := some reason }).setState t .blocked

/-- Block a thread in the send queue of an endpoint. -/
def blockSender (t e : ObjPtr) (reason : BlockedReason) : System :=
  ((s.setEndpoint e fun ep =>
    { ep with sendQueue := ep.sendQueue ++ [t], state := .sendBlocked }).setTcb t fun th =>
      { th with blockedEndpoint := some e }).block t reason

/-- Take a thread out of the sleep queue. -/
def sleepRemove : System := { s with sleepQueue := s.sleepQueue.erase t }

/-- Take a thread out of the sleep queue and forget when it was to be woken. -/
def cancelTimer : System :=
  s.sleepRemove t |>.setTcb t fun th => { th with timerWakeupNs := 0 }

/-- A thread waits for nothing any more. -/
def unblock : System :=
  s.setTcb t fun th => { th with blockedReason := none, blockedEndpoint := none }

/-- Take a thread out of the queues of an endpoint. -/
def removeFromQueue (e t : ObjPtr) : System :=
  if t ∈ (s.endpoint e).sendQueue then
    s.setEndpoint e fun ep =>
      { ep with
        sendQueue := ep.sendQueue.erase t
        state :=
          if ep.sendQueue.erase t = [] ∧ ep.state = .sendBlocked then .idle else ep.state }
  else if (s.tcb t).recvWaits ≠ [] then s.removeAllRecvWaits t recvWaitSelectedNone
  else s

/-- The depth of the queue of messages sent without blocking. -/
def nbsendQueueDepth : ℕ := 128

/-- Queue a message for whoever receives next. It fails if the message carries capabilities or the
queue is full. -/
def enqueueNbsend (e : ObjPtr) (msg : Message) (badge : ℕ) : System :=
  if msg.extraCaps ≠ 0 ∨ nbsendQueueDepth ≤ (s.endpoint e).nbsend.length then s
  else s.setEndpoint e fun ep => { ep with nbsend := ep.nbsend ++ [(msg.withoutCaps, badge)] }

/-- Take the pending bits of the notification bound to a thread. -/
def takeBits : ℕ × System :=
  match (s.tcb t).boundNotification with
  | none => (0, s)
  | some n =>
    ((s.notification n).bits, s.setNotification n fun ntfn => { ntfn with bits := 0 })

/-! ## Sending -/

/-- Make a thread ready unless it has been suspended. -/
def wakeUnlessInactive : System :=
  if s.state t ≠ .inactive then (s.setState t .ready).enqueue cpu t else s

/-- Wake the receiver to which a message has been handed over. -/
def wakeReceiver (e r : ObjPtr) (recvQueueEmpty : Bool) : System :=
  let s := if (s.tcb r).blockedReason = some .recvTimedBlocked then s.cancelTimer r else s
  let s := s.setEndpoint e fun ep =>
    { ep with state := if recvQueueEmpty then .idle else .recvBlocked }
  (s.unblock r).wakeUnlessInactive cpu r

/-- Make `server` the one that will reply to `caller`. -/
def setReplyTcb (server caller : ObjPtr) (canGrant : Bool) : System :=
  s.setTcb server fun th => { th with replyTcb := some caller, replyCanGrant := canGrant }

/-- The caller waits for the reply of the server that has its message. -/
def awaitReply (t r : ObjPtr) (msg : Message) (badge : ℕ) : System :=
  (((s.block t (.replyWait msg badge)).setReplyTcb r t true).setReceivedBy t (some r)).pipDonate t r

/-- What is left of a send after the message has been handed over. -/
def sendFinish (kind : SendKind) (t e r : ObjPtr) (msg : Message) (badge : ℕ)
    (recvQueueEmpty : Bool) : System :=
  match kind with
  | .call =>
    ((s.awaitReply t r msg badge).wakeReceiver cpu e r recvQueueEmpty).setKont t (.await .callReply)
  | _ => (s.wakeReceiver cpu e r recvQueueEmpty).setKont t .user

/-- What is left of a send whose capabilities could not be copied. -/
def sendFail (t e r : ObjPtr) : System := (s.restoreSingleRecvWait r e).setKont t .user

/-- A send that finds no receiver. -/
def sendQueued (kind : SendKind) (t e : ObjPtr) (msg : Message) (badge : ℕ) : System :=
  match kind with
  | .send => (s.blockSender t e (.sendBlocked msg badge)).setKont t (.await .send)
  | .nbsend => s.enqueueNbsend e msg badge
  | .call => (s.blockSender t e (.callSendBlocked msg badge)).setKont t (.await .callQueued)
  | .sendTimeout timeoutNs =>
    ((s.blockSender t e (.sendTimedBlocked msg badge)).setTcb t fun th =>
      { th with futexWakeupResult := 0 }).setKont t (.timedWait .send timeoutNs)

/-- A new call has been received by nobody. -/
def beginCall (kind : SendKind) (t : ObjPtr) : System :=
  match kind with
  | .call => s.setReceivedBy t none
  | _ => s

/-- Send a message to an endpoint, under its lock. -/
def sendSection (kind : SendKind) (t e : ObjPtr) (msg : Message) (badge : ℕ) : System :=
  match (s.endpoint e).state with
  | .recvBlocked =>
    match s.popRecvWaiter e with
    | none =>
      (s.setEndpoint e fun ep => { ep with state := .idle }).sendQueued kind t e msg badge
    | some (r, s') =>
      let recvQueueEmpty := (s'.endpoint e).recvQueue.isEmpty
      if 0 < msg.capCount then s'.setKont t (.sendTransfer kind e r msg badge recvQueueEmpty)
      else (s'.transferMessage t r msg badge).sendFinish cpu kind t e r msg badge recvQueueEmpty
  | _ => s.sendQueued kind t e msg badge

/-- Send a message to an endpoint. -/
def send (kind : SendKind) (t e : ObjPtr) (msg : Message) (badge : ℕ) : System :=
  (s.beginCall kind t).sendSection cpu kind t e msg badge

/-- Complete a send after the attempt to copy the capabilities. -/
def sendDone (copied : Bool) : System :=
  match s.kont t with
  | .sendTransfer kind e r msg badge recvQueueEmpty =>
    if copied then
      (s.transferMessage t r msg badge).sendFinish cpu kind t e r msg badge recvQueueEmpty
    else s.sendFail t e r
  | _ => s

/-! ## Receiving -/

/-- Give up the right to reply. -/
def clearReply : System :=
  match (s.tcb t).replyTcb with
  | none => s
  | some caller =>
    (s.pipUndonate t caller).setTcb t fun th => { th with replyTcb := none, replyCanGrant := false }

/-- Signals that set bits of the bound notification of a running thread. -/
def lateBits (bits : ℕ) : System :=
  match (s.tcb t).boundNotification with
  | none => s
  | some n => s.setNotification n fun ntfn => { ntfn with bits := ntfn.bits ||| bits }

/-- The source of what a receiver on several endpoints gets from its bound notification. -/
def notificationSource : ℕ := 2 ^ 64 - 1

/-- A receiver that has just started to wait looks at its bound notification once more, since bits
may have been set after it looked for the first time. -/
def recheckBits (wait : Kont) : System :=
  match (s.lateBits t late).takeBits t with
  | (0, s') => s'.setKont t wait
  | (bits, s') =>
    (((s'.removeAllRecvWaits t recvWaitSelectedNotification).unblock t).setState t .running).ret
      t .empty bits notificationSource

/-- Reset what the thread is told about a timed wait. -/
def resetTimed (kind : RecvKind) : System :=
  match kind with
  | .oneTimeout _ _ => s.setTcb t fun th => { th with futexWakeupResult := 0 }
  | .anyTimeout _ _ => s.setTcb t fun th => { th with futexWakeupResult := 0 }
  | _ => s

/-- Block a receiver on one endpoint. -/
def recvBlock (t e : ObjPtr) (wakeCaller : Option ObjPtr) (late : ℕ) : System :=
  let s := (s.armRecvWait t e).setTcb t fun th => { th with wokenByNotification := false }
  let s := (s.block t kind.reason).resetTimed t kind
  (s.recheckBits t late kind.wait).enqueueOpt cpu wakeCaller

/-- The sender of a call or a fault whose message has been received stays blocked until the reply. -/
def keepSender (t sender : ObjPtr) (msg : Message) (badge : ℕ) : System :=
  let isCall := (s.tcb sender).blockedReason.any BlockedReason.isCallSend
  let isFault := (s.tcb sender).blockedReason.any BlockedReason.isFault
  let s := if isCall then
      s.setTcb sender fun th => { th with blockedReason := some (.replyWait msg badge) }
    else s
  (((s.setReplyTcb t sender (!isFault)).setReceivedBy sender (some t)).pipDonate sender t).setTcb sender
    fun th => { th with blockedEndpoint := none }

/-- The sender of a message that has been received runs again. -/
def releaseSender (sender : ObjPtr) : System :=
  let s := if (s.tcb sender).blockedReason.any BlockedReason.isSendTimed then s.cancelTimer sender
    else s
  ((s.setState sender .ready).unblock sender).enqueue cpu sender

/-- What is left of a receive after the message of a sender has been handed over. -/
def recvFinish (t e sender : ObjPtr) (msg : Message) (badge : ℕ)
    (keepBlocked sendQueueEmpty : Bool) (wakeCaller : Option ObjPtr) : System :=
  let s := s.setEndpoint e fun ep =>
    { ep with state := if sendQueueEmpty then .idle else .sendBlocked }
  let s := s.enqueueOpt cpu wakeCaller
  let s := if keepBlocked then s.keepSender t sender msg badge else s.releaseSender cpu sender
  s.ret t msg badge (kind.source e)

/-- What is left of a receive when the capabilities of the sender could not be copied. The timed
receive on one endpoint returns with the lock of the endpoint held. -/
def recvFail (t e sender : ObjPtr) (wakeCaller : Option ObjPtr) : System :=
  let leak := match kind with
    | .oneTimeout _ _ => true
    | _ => false
  let s := s.setEndpoint e fun ep =>
    { ep with sendQueue := sender :: ep.sendQueue, state := .sendBlocked, locked := leak }
  (s.enqueueOpt cpu wakeCaller).setKont t .user

/-- Receive from a sender that has been taken out of the send queue. -/
def recvFrom (t e sender : ObjPtr) (wakeCaller : Option ObjPtr) : System :=
  let (msg, badge, keepBlocked) := BlockedReason.offer (s.tcb sender).blockedReason
  let sendQueueEmpty := (s.endpoint e).sendQueue.isEmpty
  if 0 < msg.capCount then
    s.setKont t (.recvTransfer kind e sender msg badge keepBlocked sendQueueEmpty wakeCaller)
  else
    (s.transferMessage sender t msg badge).recvFinish cpu kind t e sender msg badge keepBlocked
      sendQueueEmpty wakeCaller

/-- Receive on one endpoint. A receiver that finds the endpoint in the state `SendBlocked` with no
sender in the queue waits without looking at its notification, unless the wait is timed. -/
def recvInner (t e : ObjPtr) (wakeCaller : Option ObjPtr) (late : ℕ) : System :=
  match (s.endpoint e).state with
  | .sendBlocked =>
    match (s.endpoint e).sendQueue with
    | sender :: queue =>
      (s.setEndpoint e fun ep => { ep with sendQueue := queue }).recvFrom cpu kind t e sender wakeCaller
    | [] =>
      match kind with
      | .oneTimeout _ _ => s.recvBlock cpu kind t e wakeCaller late
      | _ =>
        (((s.armRecvWait t e).block t .recvBlocked).setKont t (.await .recv)).enqueueOpt cpu wakeCaller
  | _ =>
    match (s.endpoint e).nbsend with
    | (msg, badge) :: queue =>
      ((s.setEndpoint e fun ep => { ep with nbsend := queue }).enqueueOpt cpu wakeCaller).ret t msg
        badge 0
    | [] =>
      match s.takeBits t with
      | (0, s') => s'.recvBlock cpu kind t e wakeCaller late
      | (bits, s') => (s'.enqueueOpt cpu wakeCaller).ret t .empty bits 0

/-- The first endpoint with a waiting sender. The sender is taken out of the queue, and an endpoint
in the state `SendBlocked` without senders becomes idle. -/
def scanSenders : List ObjPtr → System → Option (ObjPtr × ObjPtr) × System
  | [], s => (none, s)
  | e :: es, s =>
    if (s.endpoint e).state = .sendBlocked then
      match (s.endpoint e).sendQueue with
      | sender :: queue =>
        (some (e, sender), s.setEndpoint e fun ep => { ep with sendQueue := queue })
      | [] => scanSenders es (s.setEndpoint e fun ep => { ep with state := .idle })
    else scanSenders es s

/-- The first endpoint with a message sent without blocking. -/
def scanNbsend (es : List ObjPtr) : Option ObjPtr :=
  es.find? fun e => !(s.endpoint e).nbsend.isEmpty

/-- Receive on several endpoints: from the first endpoint with a waiting sender, else from the first
with a message sent without blocking, else from the bound notification. -/
def recvAny (es : List ObjPtr) (t : ObjPtr) (wakeCaller : Option ObjPtr) (late : ℕ) : System :=
  match scanSenders es s with
  | (some (e, sender), s') => s'.recvFrom cpu kind t e sender wakeCaller
  | (none, s') =>
    match s'.scanNbsend es with
    | some e =>
      let (msg, badge) := (s'.endpoint e).nbsend.headD (.empty, 0)
      ((s'.setEndpoint e fun ep => { ep with nbsend := ep.nbsend.tail }).enqueueOpt cpu
        wakeCaller).ret t msg badge (es.idxOf e)
    | none =>
      match s'.takeBits t with
      | (0, s'') =>
        let s'' := ((s''.armRecvAny t es).block t kind.reason).resetTimed t kind
        (s''.recheckBits t late kind.wait).enqueueOpt cpu wakeCaller
      | (bits, s'') => (s''.enqueueOpt cpu wakeCaller).ret t .empty bits notificationSource

/-- The receive phase of a system call, under the locks of all its endpoints. -/
def recvSection : System :=
  match kind with
  | .one e => s.recvInner cpu kind t e wakeCaller late
  | .oneTimeout e _ => s.recvInner cpu kind t e wakeCaller late
  | .any es => s.recvAny cpu kind es t wakeCaller late
  | .anyTimeout es _ => s.recvAny cpu kind es t wakeCaller late

/-- Receive without a reply. -/
def recv : System := (s.clearReply t).recvSection cpu kind t none late

/-- Complete a receive after the attempt to copy the capabilities of the sender. -/
def recvDone (copied : Bool) : System :=
  match s.kont t with
  | .recvTransfer kind e sender msg badge keepBlocked sendQueueEmpty wakeCaller =>
    if copied then
      (s.transferMessage sender t msg badge).recvFinish cpu kind t e sender msg badge keepBlocked
        sendQueueEmpty wakeCaller
    else s.recvFail cpu kind t e sender wakeCaller
  | _ => s

/-! ## Replying -/

/-- A thread waits for a reply to its call or its fault. -/
def replyable : Bool :=
  s.state t == .blocked && (s.tcb t).blockedReason.any fun r => r.isReplyWait || r.isFault

/-- Forget the caller. -/
def dropReply : System :=
  s.setTcb t fun th => { th with replyTcb := none, replyCanGrant := false }

/-- The caller has its reply. It is made ready after the receive phase. -/
def replyFinish (t caller : ObjPtr) : System :=
  (((s.pipUndonate t caller).setTcb caller fun th => { th with blockedReason := none }).setState
    caller .ready).dropReply t

/-- What follows the reply. On one endpoint the receive phase belongs to the same critical section;
on several endpoints the locks are taken now. -/
def afterReply : System :=
  match kind with
  | .one _ => s.recvSection cpu kind t wakeCaller late
  | .oneTimeout _ _ => s.recvSection cpu kind t wakeCaller late
  | _ => s.setKont t (.recvPhase kind wakeCaller)

/-- Reply to the caller and receive the next message. -/
def replyRecv (reply : Message) (late : ℕ) : System :=
  match (s.tcb t).replyTcb with
  | none => s.afterReply cpu kind t none late
  | some caller =>
    if s.replyable caller then
      let msg := if (s.tcb t).replyCanGrant then reply else reply.withoutCaps
      if 0 < msg.capCount then s.setKont t (.replyTransfer kind caller msg)
      else
        ((s.transferMessage t caller msg 0).replyFinish t caller).afterReply cpu kind t (some caller)
          late
    else (s.dropReply t).afterReply cpu kind t none late

/-- Complete a reply after the attempt to copy its capabilities. -/
def replyDone (copied : Bool) (late : ℕ) : System :=
  match s.kont t with
  | .replyTransfer kind caller msg =>
    if copied then
      ((s.transferMessage t caller msg 0).replyFinish t caller).afterReply cpu kind t (some caller) late
    else s.setKont t .user
  | _ => s

/-- The receive phase after a reply, on several endpoints. -/
def recvPhase (cpu : ℕ) (t : ObjPtr) (late : ℕ) : System :=
  match s.kont t with
  | .recvPhase kind wakeCaller => s.recvSection cpu kind t wakeCaller late
  | _ => s

/-! ## Faults and the end of an endpoint -/

/-- Hand a fault over to a waiting receiver, or queue the thread. Fault messages carry no
capabilities. -/
def faultSection (t e : ObjPtr) (msg : Message) (badge : ℕ) : System :=
  match (s.endpoint e).state with
  | .recvBlocked =>
    match s.popRecvWaiter e with
    | none => s.blockSender t e (.faultBlocked msg badge)
    | some (r, s') =>
      let s := (s'.setReplyTcb r t false).setEndpoint e fun ep =>
        { ep with state := if ep.recvQueue.isEmpty then .idle else ep.state }
      ((s.unblock r).transferMessage t r msg badge).wakeUnlessInactive cpu r
  | _ => s.blockSender t e (.faultBlocked msg badge)

/-- Deliver the fault of a running thread to the endpoint of its fault handler. The thread is
blocked until the handler replies. -/
def deliverFault (t e : ObjPtr) (msg : Message) : System :=
  if s.state t = .inactive then s
  else
    let badge := (s.tcb t).faultHandlerBadge
    ((s.block t (.faultBlocked msg badge)).faultSection cpu t e msg badge).setKont t (.await .fault)

/-- Wake a thread that waits on an endpoint which is going away. -/
def wakeOrphan (timed : BlockedReason → Bool) (t : ObjPtr) : System :=
  let s := if (s.tcb t).blockedReason.any timed then s.cancelTimer t else s
  ((s.setState t .ready).unblock t).enqueue cpu t

/-- Wake all senders of an endpoint. -/
def wakeSenders (cpu : ℕ) (e : ObjPtr) : List ObjPtr → System → System
  | [], s => s
  | t :: queue, s =>
    wakeSenders cpu e queue ((s.setEndpoint e fun ep => { ep with sendQueue := queue }).wakeOrphan cpu
        BlockedReason.isSendTimed t)

/-- Wake all receivers of an endpoint. -/
def wakeReceivers (cpu : ℕ) (e : ObjPtr) : ℕ → System → System
  | 0, s => s
  | n + 1, s =>
    match (s.endpoint e).recvQueue with
    | [] => s
    | (t, _) :: queue =>
      wakeReceivers cpu e n
        (((s.setEndpoint e fun ep => { ep with recvQueue := queue }).removeAllRecvWaits t
          recvWaitSelectedNone).wakeOrphan cpu (fun r => r == .recvTimedBlocked) t)

/-- Wake everybody who waits on an endpoint that is destroyed. -/
def endpointCleanup (e : ObjPtr) : System :=
  let s := wakeSenders cpu e (s.endpoint e).sendQueue s
  let s := wakeReceivers cpu e (s.endpoint e).recvQueue.length s
  s.setEndpoint e fun ep => { ep with state := .idle, nbsend := [] }

end System

end SaltyOS.Ipc
