import SaltyOS.Ipc.Endpoint

/-!
# The fastpaths

The specialised versions of the system calls `Call`, `ReplyRecv` and `ReplyRecvAny` for short messages
without capabilities. A fastpath handles the system call completely or gives up; then the general version
is run, in the state that the fastpath leaves behind.
-/

namespace SaltyOS.Ipc

/-- A message is too long for a fastpath, or carries capabilities. -/
def Message.isSlow (msg : Message) : Bool := msg.extraCaps ≠ 0 || 4 < msg.length

/-- The message of a sender a fastpath can receive from, with its badge, and whether the sender stays
blocked. -/
def BlockedReason.fastOffer : Option BlockedReason → Option (Message × ℕ × Bool)
  | some (.sendBlocked msg badge) => some (msg, badge, false)
  | some (.callSendBlocked msg badge) => some (msg, badge, true)
  | _ => none

namespace System

variable (s : System)

variable (cpu : ℕ)

/-- A waiting thread has left its last CPU and may run on this one. -/
def fastpathWaiterIsLocalStable (t : ObjPtr) : Bool :=
  let th := s.sched.thread t
  th.runOwner.isNone && !th.readyQueued && th.queuedCpu == anyCpu &&
    if th.cpuAffinity ≠ anyCpu then th.cpuAffinity == cpu
    else th.lastCpu == anyCpu || th.lastCpu == cpu

/-- Hand the CPU over from one thread to another. -/
def switchTo (old new : ObjPtr) : System :=
  { s with sched := ((s.sched.setCurrent cpu new).setThread new fun th =>
      { th with state := .running, lastCpu := cpu }).trackPendingSwitchOut cpu old }

/-- The message of a call goes to the receiver that has been taken out of its queues, which runs at
once in place of the caller. -/
def fastpathCallTo (t e r : ObjPtr) (msg : Message) (badge : ℕ) : System :=
  let s := s.setTcb r fun th => { th with savedCallerMsg := msg, savedCallerBadge := badge }
  let s := if (s.tcb r).blockedReason = some .recvTimedBlocked then s.cancelTimer r else s
  let s := (s.setState r .ready).unblock r
  let s := s.setEndpoint e fun ep =>
    { ep with state := if ep.recvQueue.isEmpty then .idle else ep.state }
  (s.switchTo cpu t r).setKont t (.await .callReply)

/-- The fastpath of `Call`. The result says whether the call has been handled. -/
def fastpathCall (t e : ObjPtr) (msg : Message) (badge : ℕ) : Bool × System :=
  if msg.isSlow ∨ (s.endpoint e).state ≠ .recvBlocked then (false, s)
  else
    match (s.endpoint e).recvQueue with
    | [] => (false, s)
    | (r, selected) :: queue =>
      if s.fastpathWaiterIsLocalStable cpu r = false ∨ (s.tcb r).vspaceRoot = none ∨
          (s.tcb r).kernelStackTop = 0 then
        (false, s)
      else if (s.sched.thread r).pipDonatingTo ≠ none then
        (false, s.setTcb r fun th => { th with replyTcb := none, replyCanGrant := false })
      else
        let s := (s.block t (.replyWait msg badge)).setReplyTcb r t true
        let s := (s.setEndpoint e fun ep => { ep with recvQueue := queue }).removeAllRecvWaits r
          selected
        (true, ((s.setReceivedBy t (some r)).pipDonate t r).fastpathCallTo cpu t e r msg badge)

/-- The reply phase of a fastpath. It gives up if the caller cannot be replied to here, and else says
who is to be made ready. -/
def fastpathReply (t : ObjPtr) (msg : Message) : Option (Option ObjPtr × System) :=
  match (s.tcb t).replyTcb with
  | none => some (none, s)
  | some caller =>
    if s.fastpathWaiterIsLocalStable cpu caller = false ∨
        (s.tcb caller).blockedReason.any BlockedReason.isReplyWait = false then
      none
    else
      let s := (s.pipUndonate t caller).setTcb caller fun th =>
        { th with savedCallerMsg := msg, savedCallerBadge := 0, blockedReason := none }
      some (some caller, (s.setState caller .ready).dropReply t)

/-- The fastpath receives from a sender that has been taken out of the queue of the endpoint. -/
def fastpathRecvFrom (t e sender : ObjPtr) (msg : Message) (badge : ℕ) (keepBlocked : Bool)
    (wakeCaller : Option ObjPtr) (source : ℕ) : System :=
  let s := s.setTcb t fun th => { th with savedCallerMsg := msg, savedCallerBadge := badge }
  let s := if keepBlocked then
      (((s.setReplyTcb t sender true).pipDonate sender t).setTcb sender fun th =>
        { th with blockedEndpoint := none, blockedReason := some (.replyWait msg badge) }).setReceivedBy
          sender (some t)
    else (s.setState sender .ready).unblock sender
  let s := s.setEndpoint e fun ep =>
    { ep with state := if ep.sendQueue.isEmpty then .idle else ep.state }
  let s := s.enqueueOpt cpu wakeCaller
  let s := if keepBlocked then s else s.enqueue cpu sender
  s.ret t msg badge source

/-- The first sender of an endpoint can be received from by a fastpath. -/
def fastpathSender (sender : ObjPtr) : Option (Message × ℕ × Bool) :=
  if s.fastpathWaiterIsLocalStable cpu sender then
    (BlockedReason.fastOffer (s.tcb sender).blockedReason).filter fun offer => !offer.1.isSlow
  else none

/-- The fastpath of `ReplyRecv`. -/
def fastpathReplyRecv (t e : ObjPtr) (reply : Message) : Bool × System :=
  if reply.isSlow then (false, s)
  else
    match s.fastpathReply cpu t reply with
    | none => (false, s)
    | some (wakeCaller, s) =>
      if (s.endpoint e).state ≠ .sendBlocked then (false, s.enqueueOpt cpu wakeCaller)
      else
        match (s.endpoint e).sendQueue with
        | [] => (false, s.enqueueOpt cpu wakeCaller)
        | sender :: queue =>
          match s.fastpathSender cpu sender with
          | none => (false, s.enqueueOpt cpu wakeCaller)
          | some (msg, badge, keepBlocked) =>
            (true, (s.setEndpoint e fun ep => { ep with sendQueue := queue }).fastpathRecvFrom cpu t e
              sender msg badge keepBlocked wakeCaller 0)

/-- What a fastpath finds when it looks for a sender at several endpoints. -/
inductive FastScan where
  | none (s : System)
  | giveUp (s : System)
  | found (endpoint sender : ObjPtr) (msg : Message) (badge : ℕ) (keepBlocked : Bool) (s : System)

/-- Look for a sender at several endpoints. An endpoint in the state `SendBlocked` without senders
becomes idle. -/
def fastpathScan (cpu : ℕ) : List ObjPtr → System → FastScan
  | [], s => .none s
  | e :: es, s =>
    if (s.endpoint e).state ≠ .sendBlocked then fastpathScan cpu es s
    else
      match (s.endpoint e).sendQueue with
      | [] => fastpathScan cpu es (s.setEndpoint e fun ep => { ep with state := .idle })
      | sender :: queue =>
        match s.fastpathSender cpu sender with
        | Option.none => .giveUp s
        | some (msg, badge, keepBlocked) =>
          .found e sender msg badge keepBlocked
            (s.setEndpoint e fun ep => { ep with sendQueue := queue })

/-- The fastpath of `ReplyRecvAny`. It does not look at messages that were sent without blocking. -/
def fastpathReplyRecvAny (t : ObjPtr) (es : List ObjPtr) (reply : Message) : Bool × System :=
  if reply.isSlow then (false, s)
  else
    match s.fastpathReply cpu t reply with
    | none => (false, s)
    | some (wakeCaller, s) =>
      match fastpathScan cpu es s with
      | .giveUp s => (false, s.enqueueOpt cpu wakeCaller)
      | .found e sender msg badge keepBlocked s =>
        (true, s.fastpathRecvFrom cpu t e sender msg badge keepBlocked wakeCaller (es.idxOf e))
      | .none s =>
        match s.takeBits t with
        | (0, s) => (false, s.enqueueOpt cpu wakeCaller)
        | (bits, s) =>
          (true, (s.enqueueOpt cpu wakeCaller).ret t .empty bits notificationSource)

end System

end SaltyOS.Ipc
