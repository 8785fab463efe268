import SaltyOS.Ipc.FastpathReplyRecv
import SaltyOS.Sched.Handover

/-!
# The fastpaths and the general versions

A fastpath that handles a system call is compared with the general version of the call, run from the
same state. The general version of a call ends with the choice of the next thread to run, where the
fastpath hands the CPU over to the receiver.
-/

namespace SaltyOS.Ipc

open Function SaltyOS.Ipc.System

namespace System

variable {s : System}
variable {cpu badge selected : ℕ} {t e r : ObjPtr} {msg : Message} {queue : List (ObjPtr × ℕ)}

/-! ## Calls -/

/-- A fastpath that handles a call finds a receiver that has been switched out. -/
theorem fastpathCall_true (h : (s.fastpathCall cpu t e msg badge).1 = true) :
  msg.isSlow = false ∧ (s.endpoint e).state = .recvBlocked
    ∧ ∃ r selected queue, (s.endpoint e).recvQueue = (r, selected) :: queue
      ∧ s.fastpathWaiterIsLocalStable cpu r = true ∧ (s.sched.thread r).pipDonatingTo = none
      ∧ (s.fastpathCall cpu t e msg badge).2 =
        ((((((s.block t (.replyWait msg badge)).setReplyTcb r t true).setEndpoint e fun ep =>
          { ep with recvQueue := queue }).removeAllRecvWaits r selected).setReceivedBy t (some r)).pipDonate
            t r).fastpathCallTo cpu t e r msg badge
  := by
  unfold fastpathCall at h ⊢
  split_ifs at h ⊢ with hslow
  obtain ⟨hslow, hstate⟩ := not_or.mp hslow
  rw [Bool.not_eq_true] at hslow
  rw [not_not] at hstate
  split at h
  · cases h
  rename_i r selected queue hqueue
  split_ifs at h ⊢ with hstable hdonating
  obtain ⟨hstable, -⟩ := not_or.mp hstable
  rw [Bool.not_eq_false] at hstable
  rw [not_not] at hdonating
  exact ⟨hslow, hstate, r, selected, queue, hqueue, hstable, hdonating, rfl⟩

/-- A thread that a fastpath can hand a message over to is parked. -/
theorem parked_of_localStable (honline : s.sched.online ≤ maxCpus)
    (h : s.fastpathWaiterIsLocalStable cpu r = true)
    (hdonating : (s.sched.thread r).pipDonatingTo = none) :
  s.sched.Parked cpu r
  := by
  unfold fastpathWaiterIsLocalStable at h
  simp only [Bool.and_eq_true, Option.isNone_iff_eq_none, Bool.not_eq_true', beq_iff_eq] at h
  obtain ⟨⟨⟨howner, hqueued⟩, -⟩, hcpu⟩ := h
  refine ⟨howner, hqueued, ?_, hdonating⟩
  unfold Scheduler.selectTargetCpu
  dsimp only
  split_ifs at hcpu ⊢ with haffinity hlast
  · simpa using hcpu
  · simp only [Bool.or_eq_true, beq_iff_eq] at hcpu
    obtain hany | hcpu := hcpu
    · unfold anyCpu maxCpus at *
      omega
    · exact hcpu
  · rfl

/-- The endpoints after a receiver has been taken out of all its queues. -/
def poppedEndpoint (s : System) (e r : ObjPtr) (queue : List (ObjPtr × ℕ)) : ObjPtr → Endpoint :=
  fun u =>
    let ep := update s.endpoint e { s.endpoint e with recvQueue := queue } u
    if u ∈ (s.tcb r).recvWaits then { ep with recvQueue := ep.recvQueue.filter fun link => link.1 ≠ r }
    else ep

/-- Taking a receiver out of all its queues. -/
theorem removeAllRecvWaits_result (e r : ObjPtr) (queue : List (ObjPtr × ℕ)) (selected : ℕ) :
  ((s.setEndpoint e fun ep => { ep with recvQueue := queue }).removeAllRecvWaits r selected).result =
    { s.result with endpoint := s.poppedEndpoint e r queue }
  := by
  ext1
  case reason =>
    funext u
    obtain rfl | hne := eq_or_ne u r
    · simp [result, removeAllRecvWaits, setEndpoint]
    · simp [result, removeAllRecvWaits, setEndpoint, hne]
  case message =>
    funext u
    obtain rfl | hne := eq_or_ne u r
    · simp [result, removeAllRecvWaits, setEndpoint]
    · simp [result, removeAllRecvWaits, setEndpoint, hne]
  all_goals rfl

/-- What both versions of a call make of the result, the states of the threads and the reserved areas
apart. -/
def callResult (s : System) (t e r : ObjPtr) (queue : List (ObjPtr × ℕ)) (msg : Message) (badge : ℕ) :
    Result :=
  { s.result with
    reason := update (update s.result.reason t (some (.replyWait msg badge))) r none
    endpoint := update (s.poppedEndpoint e r queue) e { s.poppedEndpoint e r queue e with
      state := if (s.poppedEndpoint e r queue e).recvQueue.isEmpty then .idle else .recvBlocked }
    message := update s.result.message r (msg, badge) }

/-- Blocking a thread. -/
@[simp] theorem block_result (t : ObjPtr) (reason : BlockedReason) :
  (s.block t reason).result =
    { s.result with
      states := update s.result.states t .blocked
      reason := update s.result.reason t (some reason) }
  := by
  have hreason : (s.setTcb t fun th => { th with blockedReason := some reason }).result =
      { s.result with reason := update s.result.reason t (some reason) } :=
    setTcb_result_of_reason (fun _ => rfl) (fun _ => rfl) (fun _ => rfl)
  unfold block
  rw [setState_result, hreason]

/-- Cancelling the timer of a thread, if it has one. -/
theorem cancelTimer_result (t : ObjPtr) (c : Prop) [Decidable c] :
  (if c then s.cancelTimer t else s).result = s.result
  := by
  split_ifs
  · exact setTcb_result_of_same (fun _ => rfl) (fun _ => rfl) fun _ => rfl
  · rfl

/-- Handing the CPU over. -/
theorem switchTo_result (cpu : ℕ) (old new : ObjPtr) :
  (s.switchTo cpu old new).result =
    { s.result with states := update s.result.states new .running }
  := by
  have hstates : (s.switchTo cpu old new).sched.states = update s.sched.states new .running := by
    unfold switchTo
    rw [Scheduler.trackPendingSwitchOut_states]
    funext u
    simp only [Scheduler.states, Scheduler.setThread_thread, update_apply]
    split_ifs
    · rfl
    · exact congrFun (s.sched.setCurrent_states cpu new) u
  ext1
  case states => exact hstates
  all_goals rfl

/-- The fastpath hands the message and the CPU over to the receiver. -/
theorem fastpathCallTo_result :
  (s.fastpathCallTo cpu t e r msg badge).result =
    { s.result with
      states := update s.result.states r .running
      reason := update s.result.reason r none
      endpoint := update s.result.endpoint e { s.result.endpoint e with
        state := if (s.result.endpoint e).recvQueue.isEmpty then .idle else (s.result.endpoint e).state }
      message := update s.result.message r (msg, badge) }
  := by
  have hmessage : (s.setTcb r fun th => { th with savedCallerMsg := msg, savedCallerBadge := badge }).result
      = { s.result with message := update s.result.message r (msg, badge) } :=
    setTcb_result_of_message (fun _ => rfl) (fun _ => rfl) (fun _ => rfl)
  unfold fastpathCallTo
  rw [setKont_result, switchTo_result, setEndpoint_result, unblock_result, setState_result,
    cancelTimer_result, hmessage]
  simp only [update_idem]

/-- The result of a call with a fastpath. -/
theorem fastpathCall_result (hstate : (s.endpoint e).state = .recvBlocked) :
  (((((((s.block t (.replyWait msg badge)).setReplyTcb r t true).setEndpoint e fun ep =>
      { ep with recvQueue := queue }).removeAllRecvWaits r selected).setReceivedBy t (some r)).pipDonate
        t r).fastpathCallTo cpu t e r msg badge).result =
    { s.callResult t e r queue msg badge with
      states := update (update s.result.states t .blocked) r .running }
  := by
  have hpopped : ((s.block t (.replyWait msg badge)).setReplyTcb r t true).poppedEndpoint e r queue =
      s.poppedEndpoint e r queue := by
    unfold poppedEndpoint
    obtain rfl | hne := eq_or_ne r t
    · simp [setReplyTcb, setTcb, block, setState]
    · simp [setReplyTcb, setTcb, block, setState, hne]
  have hkeep : (s.poppedEndpoint e r queue e).state = .recvBlocked := by
    unfold poppedEndpoint
    split_ifs <;> simp [hstate]
  rw [fastpathCallTo_result, pipDonate_result, setReceivedBy_result, removeAllRecvWaits_result, hpopped,
    setReplyTcb_result, block_result]
  unfold callResult
  simp only [hkeep]

/-- The general version of a call that finds a receiver. -/
theorem sendCall_eq (hslow : msg.isSlow = false) (hstate : (s.endpoint e).state = .recvBlocked)
    (hqueue : (s.endpoint e).recvQueue = (r, selected) :: queue) :
  s.send cpu .call t e msg badge = ((((((s.setReceivedBy t none).setEndpoint e fun ep =>
      { ep with recvQueue := queue }).removeAllRecvWaits r selected).transferMessage t r msg
        badge).awaitReply t r msg badge).wakeReceiver cpu e r
          (s.poppedEndpoint e r queue e).recvQueue.isEmpty).setKont t (.await .callReply)
  := by
  have hcaps := capCount_of_isSlow hslow
  have hpop : (s.setReceivedBy t none).popRecvWaiter e =
      some (r, ((s.setReceivedBy t none).setEndpoint e fun ep =>
        { ep with recvQueue := queue }).removeAllRecvWaits r selected) := by
    unfold popRecvWaiter
    rw [show ((s.setReceivedBy t none).endpoint e).recvQueue = (r, selected) :: queue from hqueue]
  unfold send sendSection beginCall
  rw [show ((s.setReceivedBy t none).endpoint e).state = .recvBlocked from hstate, hpop]
  simp only [if_neg hcaps]
  rfl

section

variable (cpu : ℕ) (e r : ObjPtr) (recvQueueEmpty : Bool)

/-- Waking the receiver, the states of the threads apart. -/
theorem wakeReceiver_result :
  (s.wakeReceiver cpu e r recvQueueEmpty).result =
    { s.result with
      states := (s.wakeReceiver cpu e r recvQueueEmpty).result.states
      reason := update s.result.reason r none
      endpoint := update s.result.endpoint e { s.result.endpoint e with
        state := if recvQueueEmpty then .idle else .recvBlocked } }
  := by
  have hwake : ∀ k : System, (k.wakeUnlessInactive cpu r).result =
      { k.result with states := (k.wakeUnlessInactive cpu r).result.states } := by
    intro k
    unfold wakeUnlessInactive
    split_ifs <;> rfl
  unfold wakeReceiver
  rw [hwake, unblock_result, setEndpoint_result, cancelTimer_result]

/-- The scheduler after the receiver has been woken. -/
theorem wakeReceiver_sched :
  (s.wakeReceiver cpu e r recvQueueEmpty).sched =
    if s.state r ≠ .inactive then (s.sched.setState r .ready).enqueue cpu r else s.sched
  := by
  have hwake : ∀ k : System, (k.wakeUnlessInactive cpu r).sched =
      if k.state r ≠ .inactive then (k.sched.setState r .ready).enqueue cpu r else k.sched := by
    intro k
    unfold wakeUnlessInactive
    split_ifs <;> rfl
  have hcancel : (if (s.tcb r).blockedReason = some .recvTimedBlocked then s.cancelTimer r
      else s).sched = s.sched := by
    split_ifs <;> rfl
  unfold wakeReceiver
  rw [hwake]
  unfold state
  rw [← hcancel]
  rfl

end

section

variable (cpu : ℕ) (t : ObjPtr) (badge : ℕ) (hslow : msg.isSlow = false)
  (hstate : (s.endpoint e).state = .recvBlocked)
  (hqueue : (s.endpoint e).recvQueue = (r, selected) :: queue)
include hslow hstate hqueue

/-- The result of the general version of a call, before the next thread is chosen. -/
theorem sendCall_result :
  (s.send cpu .call t e msg badge).result =
    { s.callResult t e r queue msg badge with
      states := (s.send cpu .call t e msg badge).result.states
      reserved := (s.transferExecPayload t r msg).reserved }
  := by
  have hpayload : ((((s.setReceivedBy t none).setEndpoint e fun ep =>
      { ep with recvQueue := queue }).removeAllRecvWaits r selected).transferExecPayload t r msg).reserved
        = (s.transferExecPayload t r msg).reserved := by
    apply transferExecPayload_reserved_congr
    · rfl
    intro u
    obtain rfl | hne := eq_or_ne u r
    · simp [removeAllRecvWaits, setEndpoint, setReceivedBy]
    · simp [removeAllRecvWaits, setEndpoint, setReceivedBy, hne]
  rw [sendCall_eq hslow hstate hqueue]
  unfold awaitReply
  rw [setKont_result, wakeReceiver_result, pipDonate_result, setReceivedBy_result, setReplyTcb_result,
    block_result, transferMessage_result, removeAllRecvWaits_result, hpayload]
  rfl

/-- The scheduler after the general version of a call. -/
theorem sendCall_sched :
  (s.send cpu .call t e msg badge).sched =
    if (((s.sched.setState t .blocked).pipDonate t r).thread r).state ≠ .inactive then
      (((s.sched.setState t .blocked).pipDonate t r).setState r .ready).enqueue cpu r
    else (s.sched.setState t .blocked).pipDonate t r
  := by
  have htransfer : ∀ k : System, (k.transferMessage t r msg badge).sched = k.sched := by
    intro k
    unfold transferMessage
    rw [transferExecPayload_eq]
    rfl
  rw [sendCall_eq hslow hstate hqueue]
  unfold awaitReply
  apply Eq.trans (wakeReceiver_sched cpu e r _)
  simp only [pipDonate, setReceivedBy, setReplyTcb, block, setState, setTcb, htransfer]
  rfl

end

/-- The two versions of a call: the general one ends with the choice of the next thread. -/
theorem fastpathCall_result_iff (huser : s.sched.RunsUser cpu t)
    (h : (s.fastpathCall cpu t e msg badge).1 = true)
    (hqueue : (s.endpoint e).recvQueue = (r, selected) :: queue) :
  (s.fastpathCall cpu t e msg badge).2.result = ({ s.send cpu .call t e msg badge with
        sched := (s.send cpu .call t e msg badge).sched.reschedule cpu } : System).result
    ↔ s.state r ≠ .inactive ∧ s.PayloadsKept [(t, r, msg)] ∧ s.sched.FirstInLine cpu t r
  := by
  obtain ⟨hslow, hstate, r', selected', queue', hqueue', hstable, hdonating, heq⟩ := fastpathCall_true h
  obtain ⟨⟨rfl, rfl⟩, rfl⟩ : ((r' = r ∧ selected' = selected) ∧ queue' = queue) := by
    simpa [hqueue] using hqueue'.symm
  have hparked := parked_of_localStable huser.online_le hstable hdonating
  have hne := huser.parked_ne hparked
  have hr : (((s.sched.setState t .blocked).pipDonate t r').thread r').state = s.state r' := by
    have hstates : ((s.sched.setState t .blocked).pipDonate t r').states r' = s.sched.states r' := by
      simp [hne]
    exact hstates
  have hgeneral : ({ s.send cpu .call t e msg badge with
      sched := (s.send cpu .call t e msg badge).sched.reschedule cpu } : System).result =
        { s.callResult t e r' queue' msg badge with
          states := ((s.send cpu .call t e msg badge).sched.reschedule cpu).states
          reserved := (s.transferExecPayload t r' msg).reserved } := by
    have hresult := sendCall_result cpu t badge hslow hstate hqueue
    exact congrArg (fun k : Result => { k with
      states := ((s.send cpu .call t e msg badge).sched.reschedule cpu).states }) hresult
  have hsched := sendCall_sched cpu t badge hslow hstate hqueue
  rw [hr] at hsched
  rw [heq, fastpathCall_result hstate, hgeneral, hsched]
  by_cases hactive : s.state r' ≠ .inactive
  · rw [if_pos hactive, and_iff_right hactive, ← huser.handover_states_iff hparked]
    constructor
    · intro hresult
      exact ⟨(congrArg Result.reserved hresult).symm, (congrArg Result.states hresult).symm⟩
    · rintro ⟨hreserved, hstates⟩
      have hkept : (s.transferExecPayload t r' msg).reserved = s.reserved := hreserved
      rw [hstates, hkept]
      rfl
  rw [if_neg hactive]
  refine iff_of_false ?_ fun hall => hactive hall.1
  intro hresult
  have hstates := congrFun (congrArg Result.states hresult) r'
  rw [not_not] at hactive
  have hsame := ((s.sched.setState t .blocked).pipDonate t r').reschedule_sameActive cpu r'
  dsimp only at hstates
  rw [update_self] at hstates
  rw [← hstates, show ((s.sched.setState t .blocked).pipDonate t r').states r' = .inactive from
    hr.trans hactive] at hsame
  obtain hsame | ⟨hsame | hsame, -⟩ := hsame
  · cases hsame
  · cases hsame
  · cases hsame

end System

/-! ## All fastpaths -/

/-- The system calls that have a fastpath. -/
inductive FastOp where
  | call (endpoint : ObjPtr) (msg : Message) (badge : ℕ)
  | replyRecv (endpoint : ObjPtr) (reply : Message)
  | replyRecvAny (endpoints : List ObjPtr) (reply : Message)

namespace FastOp

/-- The message a system call delivers. -/
def msg : FastOp → Message
  | call _ msg _ => msg
  | replyRecv _ reply => reply
  | replyRecvAny _ reply => reply

/-- The fastpath of a system call, with its status. -/
def fast (cpu : ℕ) (t : ObjPtr) (s : System) : FastOp → Bool × System
  | call e msg badge => s.fastpathCall cpu t e msg badge
  | replyRecv e reply => s.fastpathReplyRecv cpu t e reply
  | replyRecvAny es reply => s.fastpathReplyRecvAny cpu t es reply

/-- The general version of a system call. A caller that has to wait for the reply hands the CPU over to
the next thread. -/
def slow (cpu : ℕ) (t : ObjPtr) (s : System) : FastOp → System
  | call e msg badge =>
    let s := s.send cpu .call t e msg badge
    { s with sched := s.sched.reschedule cpu }
  | replyRecv e reply => s.replyRecv cpu (.one e) t reply 0
  | replyRecvAny es reply => s.replyRecvAny cpu t es reply

/-- The states in which the two versions agree. Copying the payloads of requests to execute a program
changes nothing. The receiver of a call has not been suspended, and is the first in line for the CPU. The
caller that is replied to is blocked. No message that was sent without blocking waits when the bits of a
notification are taken. -/
def Agrees (cpu : ℕ) (t : ObjPtr) (s : System) : FastOp → Prop
  | call e msg _ => ∀ r, (s.endpoint e).recvQueue.head?.map Prod.fst = some r →
      s.state r ≠ .inactive ∧ s.PayloadsKept [(t, r, msg)] ∧ s.sched.FirstInLine cpu t r
  | replyRecv e reply => s.CallerBlocked t ∧ s.PayloadsKept (s.replyRecvTransfers t [e] reply)
  | replyRecvAny es reply => s.CallerBlocked t ∧ s.PayloadsKept (s.replyRecvTransfers t es reply)
      ∧ (s.firstSender es = none → ∀ e ∈ es, (s.endpoint e).nbsend = [])

end FastOp

/-- A message of two words. -/
def Message.twoWords : Message :=
  { Message.empty with label := 1, length := 2, regs := [5, 6] ++ List.replicate 30 0 }

/-- A system in which the thread `0` runs on the CPU `0` and the thread `1` waits at the endpoint `8`. Both
have an IPC buffer. The thread `2` waits at the endpoint `9` with a call, and the thread `3` for the reply of
the thread `0`. -/
def System.callSample : System where
  sched :=
    { thread := fun
        | .static 0 => { Thread.new 1 with state := .running, runOwner := some 0, lastCpu := 0 }
        | _ => { Thread.new 1 with state := .blocked }
      context := fun _ => { budget := 0, period := 0, deadline := 0, remaining := 0, boundTcb := none }
      ready := fun _ => []
      current := fun n => if n = 0 then some (.static 0) else none
      idle := fun _ => none
      pending := fun _ => none
      online := 1 }
  tcb
    | .static 0 => { Tcb.new with ipcBuffer := some 100, replyTcb := some (.static 3) }
    | .static 1 =>
      { Tcb.new with
        blockedReason := some .recvBlocked
        blockedEndpoint := some (.static 8)
        recvWaits := [.static 8]
        vspaceRoot := some (.static 7)
        kernelStackTop := 1
        ipcBuffer := some 200 }
    | .static 2 =>
      { Tcb.new with
        blockedReason := some (.callSendBlocked .twoWords 5)
        blockedEndpoint := some (.static 9) }
    | .static 3 => { Tcb.new with blockedReason := some (.replyWait .empty 0) }
    | _ => Tcb.new
  endpoint
    | .static 8 => { Endpoint.new with state := .recvBlocked, recvQueue := [(.static 1, 0)] }
    | .static 9 => { Endpoint.new with state := .sendBlocked, sendQueue := [.static 2] }
    | _ => .new
  notification _ := { bits := 0, waiting := none, boundTcb := none }
  sleepQueue := []
  expired := []
  futexQueue := []
  reserved page := if page = 100 then [7] else [9]
  kont
    | .static 1 => .await .recv
    | .static 2 | .static 3 => .await .callReply
    | _ => .user
  signals := []
  returned _ := (.empty, 0, 0)
  receivedBy _ := none

theorem System.callSample_runsUser :
  callSample.sched.RunsUser 0 (.static 0)
  := by
  constructor
  case owner_of_current =>
    intro c u hc hu
    obtain rfl : c = 0 := Nat.lt_one_iff.mp hc
    cases hu
    rfl
  case queued => exact nofun
  case owner_of_pending => exact nofun
  all_goals decide

/-- A request to execute a program with a payload of one byte. -/
def Message.execSample : Message :=
  { Message.empty with label := pmExecLabel, length := 3, regs := [0, 0, 1] ++ List.replicate 29 0 }

end SaltyOS.Ipc
