import SaltyOS.Ipc.Fastpath
import SaltyOS.Sched.States

/-!
# What a system call leaves behind

The result of a system call consists of the states of the threads and the reasons for which they are
blocked, the endpoints, the messages, the bits of the notifications and the reserved areas of the IPC
buffers. The file says what the operations shared by the fastpaths and the general versions of the
system calls make of the result.
-/

namespace SaltyOS.Ipc

open Function BlockedReason

/-- What can be seen of the result of a system call. -/
@[ext] structure Result where
  states : ObjPtr → ThreadState
  reason : ObjPtr → Option BlockedReason
  endpoint : ObjPtr → Endpoint
  message : ObjPtr → Message × ℕ
  returned : ObjPtr → Message × ℕ × ℕ
  bits : ObjPtr → ℕ
  reserved : PhysAddr → List ℕ

namespace System

variable {t c : ObjPtr} {f : Tcb → Tcb} {reason : Option BlockedReason} {msg reply : Message}
  {badge cpu : ℕ} {w : Option ObjPtr} {keep : Bool} {m : System} {kind : RecvKind}

/-- The result of a system call. -/
def result (s : System) : Result :=
  { states := s.sched.states
    reason := fun t => (s.tcb t).blockedReason
    endpoint := s.endpoint
    message := fun t => ((s.tcb t).savedCallerMsg, (s.tcb t).savedCallerBadge)
    returned := s.returned
    bits := fun n => (s.notification n).bits
    reserved := s.reserved }

variable {s : System}

/-! ## What the operations do to the result -/

/-- Changing the fields of a thread. -/
theorem setTcb_result (t : ObjPtr) (f : Tcb → Tcb) :
  (s.setTcb t f).result =
    { s.result with
      reason := update s.result.reason t (f (s.tcb t)).blockedReason
      message := update s.result.message t
        ((f (s.tcb t)).savedCallerMsg, (f (s.tcb t)).savedCallerBadge) }
  := by
  ext1
  case reason => exact comp_update Tcb.blockedReason s.tcb t _
  case message => exact comp_update (fun th => (th.savedCallerMsg, th.savedCallerBadge)) s.tcb t _
  all_goals rfl

/-- Changing fields of a thread that do not belong to the result. -/
theorem setTcb_result_of_same (hreason : ∀ th, (f th).blockedReason = th.blockedReason)
    (hmsg : ∀ th, (f th).savedCallerMsg = th.savedCallerMsg)
    (hbadge : ∀ th, (f th).savedCallerBadge = th.savedCallerBadge) :
  (s.setTcb t f).result = s.result
  := by
  rw [setTcb_result, hreason, hmsg, hbadge]
  ext1
  case reason => exact update_eq_self t s.result.reason
  case message => exact update_eq_self t s.result.message
  all_goals rfl

/-- Changing the reason for which a thread is blocked. -/
theorem setTcb_result_of_reason (hreason : ∀ th, (f th).blockedReason = reason)
    (hmsg : ∀ th, (f th).savedCallerMsg = th.savedCallerMsg)
    (hbadge : ∀ th, (f th).savedCallerBadge = th.savedCallerBadge) :
  (s.setTcb t f).result = { s.result with reason := update s.result.reason t reason }
  := by
  rw [setTcb_result, hreason, hmsg, hbadge]
  ext1
  case message => exact update_eq_self t s.result.message
  all_goals rfl

/-- Handing a message over. -/
theorem setTcb_result_of_message (hreason : ∀ th, (f th).blockedReason = th.blockedReason)
    (hmsg : ∀ th, (f th).savedCallerMsg = msg) (hbadge : ∀ th, (f th).savedCallerBadge = badge) :
  (s.setTcb t f).result =
    { s.result with message := update s.result.message t (msg, badge) }
  := by
  rw [setTcb_result, hreason, hmsg, hbadge]
  ext1
  case reason => exact update_eq_self t s.result.reason
  all_goals rfl

@[simp] theorem setKont_result (t : ObjPtr) (k : Kont) :
  (s.setKont t k).result = s.result
  := rfl

@[simp] theorem setReceivedBy_result (t : ObjPtr) (server : Option ObjPtr) :
  (s.setReceivedBy t server).result = s.result
  := rfl

@[simp] theorem setEndpoint_result (e : ObjPtr) (f : Endpoint → Endpoint) :
  (s.setEndpoint e f).result =
    { s.result with endpoint := update s.result.endpoint e (f (s.result.endpoint e)) }
  := rfl

@[simp] theorem setState_result (t : ObjPtr) (state : ThreadState) :
  (s.setState t state).result =
    { s.result with states := update s.result.states t state }
  := by
  simp [result, setState]

@[simp] theorem ret_result (t : ObjPtr) (msg : Message) (badge source : ℕ) :
  (s.ret t msg badge source).result =
    { s.result with returned := update s.result.returned t (msg, badge, source) }
  := rfl

@[simp] theorem pipDonate_result (donor holder : ObjPtr) :
  (s.pipDonate donor holder).result = s.result
  := by
  simp [result, pipDonate]

@[simp] theorem pipUndonate_result (holder caller : ObjPtr) :
  (s.pipUndonate holder caller).result = s.result
  := by
  simp [result, pipUndonate]

@[simp] theorem setReplyTcb_result (server caller : ObjPtr) (canGrant : Bool) :
  (s.setReplyTcb server caller canGrant).result = s.result
  := setTcb_result_of_same (fun _ => rfl) (fun _ => rfl) fun _ => rfl

@[simp] theorem dropReply_result (t : ObjPtr) :
  (s.dropReply t).result = s.result
  := setTcb_result_of_same (fun _ => rfl) (fun _ => rfl) fun _ => rfl

@[simp] theorem unblock_result (t : ObjPtr) :
  (s.unblock t).result =
    { s.result with reason := update s.result.reason t none }
  := setTcb_result_of_reason (fun _ => rfl) (fun _ => rfl) fun _ => rfl

/-- Making a ready thread ready. -/
theorem enqueue_result (h : s.result.states t = .ready) :
  (s.enqueue cpu t).result = s.result
  := by
  have hstates : (s.sched.enqueue cpu t).states = s.sched.states :=
    s.sched.enqueue_states_of_ready cpu t h
  simp [result, enqueue, hstates]

/-- Making a ready thread ready, if there is one. -/
theorem enqueueOpt_result (cpu : ℕ) (hw : ∀ c, w = some c → s.result.states c = .ready) :
  (s.enqueueOpt cpu w).result = s.result
  := by
  cases w with
  | none => rfl
  | some c => exact enqueue_result (hw c rfl)

/-! ## The transfer of payloads -/

section

variable (x r : ObjPtr) (msg : Message)

/-- The transfer of a payload changes the reserved areas only. -/
theorem transferExecPayload_eq :
  s.transferExecPayload x r msg = { s with reserved := (s.transferExecPayload x r msg).reserved }
  := by
  unfold transferExecPayload
  split_ifs
  · rfl
  split
  · rfl
  · dsimp only
    split <;> rfl

theorem transferExecPayload_result :
  (s.transferExecPayload x r msg).result =
    { s.result with reserved := (s.transferExecPayload x r msg).reserved }
  := congrArg result (transferExecPayload_eq x r msg)

/-- The transfer of a payload depends on the reserved areas and the IPC buffers only. -/
theorem transferExecPayload_reserved_congr {s' : System} (hreserved : s'.reserved = s.reserved)
    (hbuffer : ∀ t, (s'.tcb t).ipcBuffer = (s.tcb t).ipcBuffer) :
  (s'.transferExecPayload x r msg).reserved = (s.transferExecPayload x r msg).reserved
  := by
  unfold transferExecPayload
  rw [hbuffer r]
  split_ifs
  · exact hreserved
  split
  · exact hreserved
  · simp only [setReserved, hbuffer x, hreserved]
    split <;> rfl

/-- Handing a message over. -/
theorem transferMessage_result (badge : ℕ) :
  (s.transferMessage x r msg badge).result =
    { s.result with
      message := update s.result.message r (msg, badge)
      reserved := (s.transferExecPayload x r msg).reserved }
  := by
  have hreserved : (s.transferMessage x r msg badge).reserved =
      (s.transferExecPayload x r msg).reserved := by
    apply transferExecPayload_reserved_congr
    · rfl
    intro t
    obtain rfl | hne := eq_or_ne t r
    · simp [setTcb]
    · simp [setTcb, hne]
  have hmessage : (s.setTcb r fun th => { th with savedCallerMsg := msg, savedCallerBadge := badge }).result
      = { s.result with message := update s.result.message r (msg, badge) } :=
    setTcb_result_of_message (fun _ => rfl) (fun _ => rfl) (fun _ => rfl)
  unfold transferMessage at hreserved ⊢
  rw [transferExecPayload_result, hmessage, hreserved]

end

/-! ## Receiving -/

/-- A sender that runs again. -/
theorem releaseSender_result (cpu : ℕ) (x : ObjPtr)
    (h : (s.tcb x).blockedReason.any isSendTimed = false) :
  (s.releaseSender cpu x).result =
    { s.result with
      states := update s.result.states x .ready
      reason := update s.result.reason x none }
  := by
  have hready : ((s.setState x .ready).unblock x).result.states x = .ready := by
    rw [unblock_result, setState_result]
    exact update_self ..
  unfold releaseSender
  rw [h]
  simp only [Bool.false_eq_true, if_false]
  rw [enqueue_result hready, unblock_result, setState_result]

/-- The sender of a call waits for the reply. -/
theorem keepSender_result (t x : ObjPtr) (msg : Message) (badge : ℕ)
    (h : (s.tcb x).blockedReason.any isCallSend = true) :
  (s.keepSender t x msg badge).result =
    { s.result with reason := update s.result.reason x (some (.replyWait msg badge)) }
  := by
  unfold keepSender
  dsimp only
  rw [h, if_pos rfl]
  refine Eq.trans (setTcb_result_of_same (fun _ => ?_) (fun _ => ?_) (fun _ => ?_)) ?_
  · rfl
  · rfl
  · rfl
  · rw [pipDonate_result, setReceivedBy_result, setReplyTcb_result]
    exact setTcb_result_of_reason (fun _ => rfl) (fun _ => rfl) fun _ => rfl

section

variable (h : fastOffer reason = some (msg, badge, keep))
include h

/-- A sender from which a fastpath can receive waits in a send or in a call. -/
theorem offer_of_fastOffer :
  (keep = false ∧ reason = some (.sendBlocked msg badge))
    ∨ (keep = true ∧ reason = some (.callSendBlocked msg badge))
  := by
  unfold fastOffer at h
  split at h
  · cases h
    exact .inl ⟨rfl, rfl⟩
  · cases h
    exact .inr ⟨rfl, rfl⟩
  · cases h

theorem offer_eq_of_fastOffer :
  offer reason = (msg, badge, keep)
  := by
  obtain ⟨rfl, rfl⟩ | ⟨rfl, rfl⟩ := offer_of_fastOffer h
  · rfl
  · rfl

end

/-- Messages for fastpaths carry no capabilities. -/
theorem capCount_of_isSlow (h : msg.isSlow = false) :
  ¬ 0 < msg.capCount
  := by
  unfold Message.isSlow at h
  simp only [ne_eq, decide_not, Bool.or_eq_false_iff, Bool.not_eq_false', decide_eq_true_eq] at h
  simp [Message.capCount, h.1]

/-- There is nothing to be removed from the messages for fastpaths. -/
theorem withoutCaps_of_isSlow (h : msg.isSlow = false) (hcaps : msg.caps = List.replicate 4 0) :
  msg.withoutCaps = msg
  := by
  unfold Message.isSlow at h
  simp only [ne_eq, decide_not, Bool.or_eq_false_iff, Bool.not_eq_false', decide_eq_true_eq] at h
  unfold Message.withoutCaps
  rw [← hcaps, ← h.1]

/-- What both versions of a receive make of the result. -/
def recvResult (r : Result) (t e x : ObjPtr) (msg : Message) (badge : ℕ) (keep : Bool) (source : ℕ) :
    Result :=
  { r with
    states := if keep then r.states else update r.states x .ready
    reason := update r.reason x (if keep then some (.replyWait msg badge) else none)
    endpoint := update r.endpoint e { r.endpoint e with
      state := if (r.endpoint e).sendQueue.isEmpty then .idle else .sendBlocked }
    message := update r.message t (msg, badge)
    returned := update r.returned t (msg, badge, source) }

/-- The result of receiving with a fastpath. -/
theorem fastpathRecvFrom_result (cpu : ℕ) (t e x : ObjPtr) (msg : Message) (badge : ℕ) (keep : Bool)
    (w : Option ObjPtr) (source : ℕ) (hstate : (s.endpoint e).state = .sendBlocked)
    (hw : ∀ c, w = some c → s.result.states c = .ready) :
  (s.fastpathRecvFrom cpu t e x msg badge keep w source).result =
    recvResult s.result t e x msg badge keep source
  := by
  have hstate' : (s.result.endpoint e).state = .sendBlocked := hstate
  generalize hm : (s.setTcb t fun th => { th with savedCallerMsg := msg, savedCallerBadge := badge }) = m
  have hmresult : m.result = { s.result with
      message := update s.result.message t (msg, badge) } := by
    rw [← hm]
    exact setTcb_result_of_message (fun _ => rfl) (fun _ => rfl) fun _ => rfl
  unfold fastpathRecvFrom recvResult
  cases keep with
  | true =>
    simp only [hm, if_true]
    generalize hk : ((m.setReplyTcb t x true).pipDonate x t).setTcb x (fun th =>
        { th with blockedEndpoint := none, blockedReason := some (.replyWait msg badge) }) = k
    have hkresult : k.result = { m.result with
        reason := update m.result.reason x (some (.replyWait msg badge)) } := by
      have hinner : ((m.setReplyTcb t x true).pipDonate x t).result = m.result := by
        rw [pipDonate_result, setReplyTcb_result]
      rw [← hk, ← hinner]
      exact setTcb_result_of_reason (fun _ => rfl) (fun _ => rfl) fun _ => rfl
    rw [ret_result, enqueueOpt_result]
    · simp only [setEndpoint_result, setReceivedBy_result, hkresult, hmresult, hstate']
    · simpa only [setEndpoint_result, setReceivedBy_result, hkresult, hmresult] using hw
  | false =>
    simp only [hm, Bool.false_eq_true, if_false]
    have hready : ∀ c, (w = some c ∨ c = x) → (((m.setState x .ready).unblock x).setEndpoint e fun ep =>
          { ep with state := if ep.sendQueue.isEmpty then .idle else ep.state }).result.states c =
            .ready := by
      intro c hc
      simp only [setEndpoint_result, unblock_result, setState_result, hmresult]
      obtain rfl | hne := eq_or_ne c x
      · simp
      · simpa [hne] using hw c (hc.resolve_right hne)
    have hwake := enqueueOpt_result cpu fun c hc => hready c (.inl hc)
    rw [ret_result, enqueue_result, hwake]
    · simp only [setEndpoint_result, unblock_result, setState_result, hmresult, hstate']
    · rw [hwake]
      exact hready x (.inr rfl)

/-- The result of receiving with the general version. -/
theorem recvFrom_result (cpu : ℕ) (kind : RecvKind) (t e x : ObjPtr) (w : Option ObjPtr)
    (hoffer : fastOffer (s.tcb x).blockedReason = some (msg, badge, keep))
    (hslow : msg.isSlow = false) (hw : ∀ c, w = some c → s.result.states c = .ready) :
  (s.recvFrom cpu kind t e x w).result =
    { recvResult s.result t e x msg badge keep (kind.source e) with
      reserved := (s.transferExecPayload x t msg).reserved }
  := by
  have hcaps := capCount_of_isSlow hslow
  have hoffer' := offer_eq_of_fastOffer hoffer
  unfold recvFrom recvFinish
  simp only [hoffer', if_neg hcaps]
  generalize hm : (s.transferMessage x t msg badge).setEndpoint e (fun ep =>
    { ep with state := if (s.endpoint e).sendQueue.isEmpty then .idle else .sendBlocked }) = m
  have hmresult : m.result = { s.result with
      endpoint := update s.result.endpoint e { s.result.endpoint e with
        state := if (s.endpoint e).sendQueue.isEmpty then .idle else .sendBlocked }
      message := update s.result.message t (msg, badge)
      reserved := (s.transferExecPayload x t msg).reserved } := by
    rw [← hm, setEndpoint_result, transferMessage_result]
  have hwake : (m.enqueueOpt cpu w).result = m.result := by
    apply enqueueOpt_result
    simpa only [hmresult] using hw
  have hreason : ((m.enqueueOpt cpu w).tcb x).blockedReason = (s.tcb x).blockedReason := by
    have hresult := hwake.trans hmresult
    exact congrFun (congrArg Result.reason hresult) x
  obtain ⟨rfl, hsend⟩ | ⟨rfl, hcall⟩ := offer_of_fastOffer hoffer
  · simp only [Bool.false_eq_true, if_false, ret_result]
    rw [releaseSender_result _ _ (by rw [hreason, hsend]; rfl), hwake, hmresult]
    rfl
  · simp only [if_true, ret_result]
    rw [keepSender_result _ _ _ _ (by rw [hreason, hcall]; rfl), hwake, hmresult]
    rfl

/-! ## Replying -/

/-- The general version of a reply differs from that of a fastpath in the reserved areas only. -/
theorem replyFinish_eq (h : s.fastpathReply cpu t msg = some (some c, m)) :
  (s.transferMessage t c msg 0).replyFinish t c =
    { m with reserved := (s.transferExecPayload t c msg).reserved }
  := by
  have hreserved : (s.transferMessage t c msg 0).reserved = (s.transferExecPayload t c msg).reserved :=
    congrArg Result.reserved (s.transferMessage_result t c msg 0)
  unfold fastpathReply at h
  split at h
  · cases h
  split_ifs at h
  cases h
  rw [← hreserved]
  unfold transferMessage
  rw [transferExecPayload_eq]
  simp only [replyFinish, pipUndonate, setTcb, setState, dropReply, update_idem, update_self]

/-- What a fastpath does in its reply phase. -/
structure FastReplied (s m : System) (t c : ObjPtr) : Prop where
  replyTcb : (s.tcb t).replyTcb = some c
  reason : (s.tcb c).blockedReason.any isReplyWait = true
  reason_none : m.result.reason = update s.result.reason c none
  states : m.result.states = update s.result.states c .ready

/-- A fastpath replies to a thread that waits for a reply. -/
theorem fastpathReply_some (h : s.fastpathReply cpu t msg = some (some c, m)) :
  FastReplied s m t c
  := by
  unfold fastpathReply at h
  split at h
  · cases h
  rename_i caller hcaller
  split_ifs at h with hcond
  obtain ⟨-, hreason⟩ := not_or.mp hcond
  cases h
  constructor
  · exact hcaller
  · simpa using hreason
  · rw [dropReply_result, setState_result]
    funext u
    obtain rfl | hne := eq_or_ne u c
    · simp [result, setTcb, pipUndonate]
    · simp [result, setTcb, pipUndonate, hne]
  · rw [dropReply_result, setState_result, setTcb_result, pipUndonate_result]

/-- A fastpath without a caller. -/
theorem fastpathReply_none (h : s.fastpathReply cpu t msg = some (none, m)) :
  (s.tcb t).replyTcb = none ∧ m = s
  := by
  unfold fastpathReply at h
  split at h
  · rename_i hnone
    cases h
    exact ⟨hnone, rfl⟩
  · split_ifs at h
    cases h

/-- What the reply phase of a fastpath leaves alone. -/
theorem fastpathReply_frame (h : s.fastpathReply cpu t msg = some (w, m)) :
  m.endpoint = s.endpoint ∧ m.notification = s.notification ∧ m.reserved = s.reserved
    ∧ (∀ u, (m.tcb u).ipcBuffer = (s.tcb u).ipcBuffer)
    ∧ ∀ u, (m.tcb u).boundNotification = (s.tcb u).boundNotification
  := by
  unfold fastpathReply at h
  split at h
  · cases h
    exact ⟨rfl, rfl, rfl, fun _ => rfl, fun _ => rfl⟩
  split_ifs at h
  cases h
  refine ⟨rfl, rfl, rfl, fun u => ?_, fun u => ?_⟩
  · simp only [dropReply, setState, setTcb, pipUndonate, update_apply]
    split_ifs <;> simp_all
  · simp only [dropReply, setState, setTcb, pipUndonate, update_apply]
    split_ifs <;> simp_all

/-- Copy the payloads of several messages, given with their senders and receivers. -/
def copyPayloads (s : System) (l : List (ObjPtr × ObjPtr × Message)) : System :=
  l.foldl (fun s p => s.transferExecPayload p.1 p.2.1 p.2.2) s

/-- The reply of a thread to its caller. -/
def replyTransfers (s : System) (t : ObjPtr) (reply : Message) : List (ObjPtr × ObjPtr × Message) :=
  match (s.tcb t).replyTcb with
  | none => []
  | some c => [(t, c, reply)]

/-- Every caller that is replied to is blocked. -/
def CallerBlocked (s : System) (t : ObjPtr) : Prop :=
  ∀ c, (s.tcb t).replyTcb = some c → s.state c = .blocked

/-- A blocked thread that waits for a reply can be replied to. -/
theorem replyable_of_isReplyWait (h : (s.tcb c).blockedReason.any isReplyWait = true)
    (hblocked : s.state c = .blocked) :
  s.replyable c = true
  := by
  unfold replyable
  obtain ⟨r, hr, hwait⟩ := (Option.any_eq_true _ _).mp h
  simp [hblocked, hr, hwait]

/-- The general version replies as a fastpath does, up to the reserved areas, if the caller is
blocked. -/
theorem replyRecv_eq (h : s.fastpathReply cpu t reply = some (w, m))
    (hslow : reply.isSlow = false) (hcaps : reply.caps = List.replicate 4 0)
    (hblocked : CallerBlocked s t) :
  s.replyRecv cpu kind t reply 0 =
    { m with reserved := (s.copyPayloads (s.replyTransfers t reply)).reserved }.afterReply cpu kind t
      w 0
  := by
  have hcount := capCount_of_isSlow hslow
  have hwithout := withoutCaps_of_isSlow hslow hcaps
  unfold replyRecv replyTransfers copyPayloads
  cases w with
  | none =>
    obtain ⟨hnone, rfl⟩ := fastpathReply_none h
    simp only [hnone]
    rfl
  | some c =>
    have hreplied := fastpathReply_some h
    have hreplyable : s.replyable c = true :=
      replyable_of_isReplyWait hreplied.reason (hblocked c hreplied.replyTcb)
    simp only [hreplied.replyTcb, hreplyable, if_true, hwithout, ite_self, if_neg hcount,
      replyFinish_eq h]
    rfl

/-- The general version does not reply to a caller that is not blocked. -/
theorem replyRecv_eq_of_not_blocked (hreply : (s.tcb t).replyTcb = some c)
    (hblocked : s.state c ≠ .blocked) :
  s.replyRecv cpu kind t reply 0 = (s.dropReply t).afterReply cpu kind t none 0
  := by
  have hreplyable : s.replyable c = false := by
    unfold replyable
    simp [hblocked]
  unfold replyRecv
  simp only [hreply, hreplyable, Bool.false_eq_true, if_false]

/-- What a fastpath wakes up is ready. -/
theorem fastpathReply_ready (h : s.fastpathReply cpu t msg = some (w, m)) :
  ∀ c, w = some c → m.result.states c = .ready
  := by
  rintro c rfl
  rw [(fastpathReply_some h).states]
  simp

end System

end SaltyOS.Ipc
