import SaltyOS.Ipc.EndpointEffect

/-!
# Where the senders are

A thread that is blocked as a sender names the endpoint it is blocked on. It is in the send queue of this
endpoint, except while its message is being received: a receiver takes the sender out of the queue before
it copies capabilities, and puts it back if that fails.

The lemmas follow one thread `x` and one endpoint `e` through the operations.
-/

namespace SaltyOS.Ipc

open Function

/-- The thread waits for a receiver. -/
def BlockedReason.isSend : BlockedReason → Bool
  | sendBlocked _ _ => true
  | faultBlocked _ _ => true
  | callSendBlocked _ _ => true
  | sendTimedBlocked _ _ => true
  | _ => false

/-- The endpoint at which a thread is blocked as a sender. -/
def Tcb.sendsTo (th : Tcb) : Option ObjPtr :=
  if th.blockedReason.any BlockedReason.isSend then th.blockedEndpoint else none

/-- The endpoint and the sender of a receive that is in the middle of its transfer. -/
def Kont.takenFrom : Kont → Option (ObjPtr × ObjPtr)
  | .recvTransfer _ e sender _ _ _ _ _ => some (e, sender)
  | _ => none

/-- If the thread `x` is blocked as a sender at `e` then it is in the send queue, or its message is being
received by a thread other than `a`. -/
def Sent (x e : ObjPtr) (a : Option ObjPtr) (s : System) : Prop :=
  (s.tcb x).sendsTo = some e →
    x ∈ (s.endpoint e).sendQueue ∨ ∃ u, a ≠ some u ∧ (s.kont u).takenFrom = some (e, x)

variable {s s' : System} {a w : Option ObjPtr} {x e t r e' sender : ObjPtr} {cpu : ℕ}

namespace Tcb

variable {th : Tcb}

/-- A thread that is blocked for another reason sends to no endpoint. -/
theorem sendsTo_of_reason (reason : Option BlockedReason) (h : reason.any BlockedReason.isSend = false)
    (hth : th.blockedReason = reason) :
  th.sendsTo = none
  := by
  simp [sendsTo, hth, h]

/-- A thread that names no endpoint sends to none. -/
theorem sendsTo_of_endpoint (h : th.blockedEndpoint = none) :
  th.sendsTo = none
  := by
  simp [sendsTo, h]

end Tcb

namespace Sent

/-- A thread that is not blocked as a sender. -/
theorem of_none (h : (s.tcb x).sendsTo = none) :
  Sent x e a s
  := by
  intro hsend
  rw [h] at hsend
  cases hsend

/-- The thread does not start to send, and it does not leave the queue. -/
theorem keep (h : Sent x e a s)
    (hsend : (s'.tcb x).sendsTo = some e → (s.tcb x).sendsTo = some e)
    (hqueue : x ∈ (s.endpoint e).sendQueue → x ∈ (s'.endpoint e).sendQueue)
    (hkont : ∀ u, a ≠ some u → s'.kont u = s.kont u) :
  Sent x e a s'
  := by
  intro hsend'
  obtain hmem | ⟨u, hu, htaken⟩ := h (hsend hsend')
  · exact .inl (hqueue hmem)
  · refine .inr ⟨u, hu, ?_⟩
    rw [hkont u hu]
    exact htaken

/-- Nothing changes that matters. -/
theorem of_eq (h : Sent x e a s) (htcb : (s'.tcb x).sendsTo = (s.tcb x).sendsTo)
    (hend : s'.endpoint = s.endpoint) (hkont : s'.kont = s.kont) :
  Sent x e a s'
  := by
  apply h.keep
  · rw [htcb]
    exact id
  · rw [hend]
    exact id
  · intro u _
    rw [hkont]

/-- A step begins. -/
theorem begin (h : Sent x e none s) (ht : ∀ t, a = some t → (s.kont t).takenFrom ≠ some (e, x)) :
  Sent x e a s
  := by
  intro hsend
  obtain hmem | ⟨u, -, htaken⟩ := h hsend
  · exact .inl hmem
  · exact .inr ⟨u, fun hu => ht u hu htaken, htaken⟩

/-- A step of a thread begins that is not receiving from anybody. -/
theorem begin_of_none (h : Sent x e none s) (ht : (s.kont t).takenFrom = none) :
  Sent x e (some t) s
  := by
  apply h.begin
  rintro _ ⟨⟩
  rw [ht]
  exact (Option.some_ne_none _).symm

/-- A step ends. -/
theorem done (h : Sent x e a s) :
  Sent x e none s
  := by
  intro hsend
  obtain hmem | ⟨u, -, htaken⟩ := h hsend
  · exact .inl hmem
  · exact .inr ⟨u, Option.some_ne_none u |>.symm, htaken⟩

/-- The running thread goes on. -/
theorem setKont (h : Sent x e (some t) s) (k : Kont) :
  Sent x e (some t) (s.setKont t k)
  := by
  refine h.keep id id ?_
  intro u hu
  exact update_of_ne (fun heq => hu (congrArg some heq.symm)) ..

/-- An endpoint changes, and its senders stay. -/
theorem setEndpoint (h : Sent x e a s) {f : Endpoint → Endpoint}
    (hf : e = e' → x ∈ (s.endpoint e').sendQueue → x ∈ (f (s.endpoint e')).sendQueue) :
  Sent x e a (s.setEndpoint e' f)
  := by
  refine h.keep id ?_ fun _ _ => rfl
  intro hmem
  obtain rfl | hne := eq_or_ne e e'
  · simpa using hf rfl hmem
  · simpa [hne] using hmem

/-- A thread changes, and does not start to send. -/
theorem setTcb (h : Sent x e a s) {f : Tcb → Tcb}
    (hf : x = t → (f (s.tcb t)).sendsTo = none ∨ (f (s.tcb t)).sendsTo = (s.tcb t).sendsTo) :
  Sent x e a (s.setTcb t f)
  := by
  refine h.keep ?_ id fun _ _ => rfl
  obtain rfl | hne := eq_or_ne x t
  · obtain hnone | heq := hf rfl
    · simp [hnone]
    · simp [heq]
  · simp [hne]

/-- Fields of a thread change that do not concern sending. -/
theorem setFields (h : Sent x e a s) {f : Tcb → Tcb} (hf : ∀ th, (f th).sendsTo = th.sendsTo) :
  Sent x e a (s.setTcb t f)
  := h.setTcb fun _ => .inr (hf _)

theorem ite {c : Prop} [Decidable c] (h : Sent x e a s) (h' : Sent x e a s') :
  Sent x e a (if c then s else s')
  := by
  split_ifs
  · exact h
  · exact h'

open SaltyOS.Ipc.System

/-! ## Parts of the operations -/

/-- A thread stops to send, wherever it was. -/
theorem clear {f : Tcb → Tcb} (h : x ≠ t → Sent x e a s) (hf : (f (s.tcb t)).sendsTo = none) :
  Sent x e a (s.setTcb t f)
  := by
  obtain rfl | hne := eq_or_ne x t
  · apply of_none
    simpa using hf
  · exact (h hne).setTcb fun heq => absurd heq hne

/-- A thread is blocked for another reason than sending. -/
theorem block (reason : BlockedReason) (h : x ≠ t → Sent x e a s) (hr : reason.isSend = false) :
  Sent x e a (s.block t reason)
  := by
  have h' : Sent x e a (s.setTcb t fun th => { th with blockedReason := some reason }) :=
    clear h (Tcb.sendsTo_of_reason (some reason) hr rfl)
  exact h'

/-- A thread that is woken is no longer a sender. -/
theorem unblock (h : x ≠ t → Sent x e a s) :
  Sent x e a (s.unblock t)
  := clear h (Tcb.sendsTo_of_endpoint rfl)

section

variable (h : Sent x e a s)
include h

/-- A timer has nothing to do with who sends. -/
theorem cancelTimer (t : ObjPtr) :
  Sent x e a (s.cancelTimer t)
  := by
  have h' : Sent x e a (s.sleepRemove t) := h
  exact h'.setFields fun _ => rfl

theorem setState (t : ObjPtr) (state : ThreadState) :
  Sent x e a (s.setState t state)
  := h

theorem setNotification (n : ObjPtr) (f : Notification → Notification) :
  Sent x e a (s.setNotification n f)
  := h

theorem enqueue (cpu : ℕ) (t : ObjPtr) :
  Sent x e a (s.enqueue cpu t)
  := h

theorem switchTo (old new : ObjPtr) :
  Sent x e a (s.switchTo cpu old new)
  := h

theorem quiesce (t : ObjPtr) :
  Sent x e a (s.quiesce t)
  := h

theorem enqueueOpt (cpu : ℕ) (w : Option ObjPtr) :
  Sent x e a (s.enqueueOpt cpu w)
  := by
  cases w <;> exact h

theorem wakeUnlessInactive (cpu : ℕ) (t : ObjPtr) :
  Sent x e a (s.wakeUnlessInactive cpu t)
  := by
  unfold System.wakeUnlessInactive
  split_ifs <;> exact h

/-- The receiver gets the message. -/
theorem transferMessage (sender r : ObjPtr) (msg : Message) (badge : ℕ) :
  Sent x e a (s.transferMessage sender r msg badge)
  := by
  have h' : Sent x e a (s.setTcb r fun th =>
      { th with savedCallerMsg := msg, savedCallerBadge := badge }) :=
    h.setFields fun _ => rfl
  refine h'.of_eq ?_ (by simp) (by simp)
  unfold System.transferMessage transferExecPayload
  split_ifs
  · rfl
  split
  · rfl
  · dsimp only
    split <;> rfl

theorem clearReply (t : ObjPtr) :
  Sent x e a (s.clearReply t)
  := by
  unfold System.clearReply
  split
  · exact h
  · next caller _ =>
      have h' : Sent x e a (s.pipUndonate t caller) := h
      exact h'.setFields fun _ => rfl

theorem takeBits (t : ObjPtr) :
  Sent x e a (s.takeBits t).2
  := by
  unfold System.takeBits
  split <;> exact h

theorem lateBits (t : ObjPtr) (bits : ℕ) :
  Sent x e a (s.lateBits t bits)
  := by
  unfold System.lateBits
  split <;> exact h

theorem resetTimed (t : ObjPtr) (kind : RecvKind) :
  Sent x e a (s.resetTimed t kind)
  := by
  unfold System.resetTimed
  split
  · exact h.setFields fun _ => rfl
  · exact h.setFields fun _ => rfl
  · exact h

/-- A receiver leaves the receive queues. -/
theorem removeAllRecvWaits (t : ObjPtr) (selected : ℕ) :
  Sent x e a (s.removeAllRecvWaits t selected)
  := by
  refine h.keep ?_ ?_ fun _ _ => rfl
  · obtain rfl | hne := eq_or_ne x t
    · simp [System.removeAllRecvWaits, Tcb.sendsTo]
    · simp [System.removeAllRecvWaits, hne]
  · simp only [System.removeAllRecvWaits]
    split_ifs <;> exact id

/-- The next receiver leaves all receive queues. -/
theorem popRecvWaiter (hpop : s.popRecvWaiter e' = some (r, s')) :
  Sent x e a s'
  := by
  unfold System.popRecvWaiter at hpop
  split at hpop
  · cases hpop
  · cases hpop
    exact (h.setEndpoint fun _ => id).removeAllRecvWaits _ _

/-- The receiver of a message runs again. -/
theorem wakeReceiver (e' r : ObjPtr) (q : Bool) :
  Sent x e a (s.wakeReceiver cpu e' r q)
  := by
  refine wakeUnlessInactive (unblock fun _ => setEndpoint ?_ fun _ => id) cpu r
  exact ite (h.cancelTimer r) h

theorem setReplyTcb (t r : ObjPtr) (grant : Bool) :
  Sent x e a (s.setReplyTcb t r grant)
  := h.setFields fun _ => rfl

end

/-- A thread whose endpoint goes away is woken and is no longer a sender. -/
theorem wakeOrphan (h : x ≠ t → Sent x e a s) (timed : BlockedReason → Bool) :
  Sent x e a (s.wakeOrphan cpu timed t)
  := by
  have h' : x ≠ t → Sent x e a (if (s.tcb t).blockedReason.any timed then s.cancelTimer t else s) :=
    fun hne => ite ((h hne).cancelTimer t) (h hne)
  exact unblock h'

/-! ## Sending -/

section

variable (h : Sent x e (some t) s)
include h

theorem ret (msg : Message) (badge source : ℕ) :
  Sent x e (some t) (s.ret t msg badge source)
  := h.setKont .user

/-- A thread is blocked in the send queue of an endpoint. -/
theorem blockSender (e' : ObjPtr) (reason : BlockedReason) :
  Sent x e (some t) (s.blockSender t e' reason)
  := by
  obtain rfl | hne := eq_or_ne x t
  · intro hsend
    left
    have heq : e' = e := by
      unfold Tcb.sendsTo at hsend
      split_ifs at hsend
      simpa [System.blockSender] using hsend
    simp [System.blockSender, heq]
  · refine h.keep ?_ ?_ fun _ _ => rfl
    · simp [System.blockSender, hne]
    · obtain rfl | he := eq_or_ne e e'
      · simpa [System.blockSender] using Or.inl
      · simp [System.blockSender, he]

/-- A sender that finds no receiver is put into the queue. -/
theorem sendQueued (kind : SendKind) (e' : ObjPtr) (msg : Message) (badge : ℕ) :
  Sent x e (some t) (s.sendQueued kind t e' msg badge)
  := by
  unfold System.sendQueued
  split
  · exact (h.blockSender e' _).setKont _
  · unfold enqueueNbsend
    exact ite h (h.setEndpoint fun _ => id)
  · exact (h.blockSender e' _).setKont _
  · refine setKont ?_ _
    exact (h.blockSender e' _).setFields fun _ => rfl

/-- What is left of a send after the message has been handed over. -/
theorem sendFinish (kind : SendKind) (e' r : ObjPtr) (msg : Message) (badge : ℕ) (q : Bool) :
  Sent x e (some t) (s.sendFinish cpu kind t e' r msg badge q)
  := by
  unfold System.sendFinish
  split
  · have hblock := block (t := t) (.replyWait msg badge) (fun _ => h) rfl
    have hawait : Sent x e (some t) (s.awaitReply t r msg badge) := hblock.setReplyTcb r t true
    exact (hawait.wakeReceiver e' r q).setKont _
  · exact (h.wakeReceiver e' r q).setKont _

/-- A send meets a receiver or is queued. -/
theorem sendSection (kind : SendKind) (e' : ObjPtr) (msg : Message) (badge : ℕ) :
  Sent x e (some t) (s.sendSection cpu kind t e' msg badge)
  := by
  unfold System.sendSection
  split
  · split
    · exact (h.setEndpoint fun _ => id).sendQueued kind e' msg badge
    next r s' hpop =>
      have hpopped := h.popRecvWaiter hpop
      exact ite (hpopped.setKont _) ((hpopped.transferMessage t r msg badge).sendFinish kind e' r msg badge _)
  · exact h.sendQueued kind e' msg badge

/-- A receiver waits again that is not sending. -/
theorem sendFail (e' r : ObjPtr) (hr : (s.tcb r).blockedReason.any BlockedReason.isSend = false) :
  Sent x e (some t) (s.sendFail t e' r)
  := by
  have harm : Sent x e (some t) (s.armRecvWait r e') := by
    refine setEndpoint ?_ fun _ => id
    exact h.setTcb fun _ => .inl (Tcb.sendsTo_of_reason _ hr rfl)
  refine setKont ?_ _
  exact harm.setFields fun _ => rfl

/-! ## Receiving -/

/-- A receiver may be woken at once by its bound notification. -/
theorem recheckBits (late : ℕ) (wait : Kont) :
  Sent x e (some t) (s.recheckBits t late wait)
  := by
  have hbits := (h.lateBits t late).takeBits t
  unfold System.recheckBits
  split
  next s' heq =>
    rw [heq] at hbits
    exact hbits.setKont wait
  next bits s' _ heq =>
    rw [heq] at hbits
    have hwoken : Sent x e (some t) (((s'.removeAllRecvWaits t recvWaitSelectedNotification).unblock
        t).setState t .running) := unblock fun _ => hbits.removeAllRecvWaits t _
    exact hwoken.ret _ _ _

end

/-- A receiver is not blocked as a sender. -/
theorem isSend_reason (kind : RecvKind) :
  kind.reason.isSend = false
  := by
  cases kind <;> rfl

/-- The endpoint of another thread is noted. -/
theorem armRecvWait (h : Sent x e a s) (hne : x ≠ t) (e' : ObjPtr) :
  Sent x e a (s.armRecvWait t e')
  := by
  refine setEndpoint ?_ fun _ => id
  exact h.setTcb fun heq => absurd heq hne

theorem armRecvAny (h : Sent x e a s) (hne : x ≠ t) (es : List ObjPtr) :
  Sent x e a (s.armRecvAny t es)
  := by
  refine h.keep ?_ ?_ fun _ _ => rfl
  · simp [System.armRecvAny, hne]
  · simp only [System.armRecvAny]
    split_ifs <;> exact id

section

variable (h : Sent x e (some t) s)
include h

/-- A receiver is blocked as a receiver. -/
theorem recvBlock (kind : RecvKind) (e' : ObjPtr) (w : Option ObjPtr) (late : ℕ) :
  Sent x e (some t) (s.recvBlock cpu kind t e' w late)
  := by
  refine enqueueOpt (recheckBits (resetTimed (block _ ?_ (isSend_reason kind)) t kind) late _) cpu w
  intro hne
  exact (h.armRecvWait hne e').setFields fun _ => rfl

end

/-- The sender of a call or a fault that has been received names no endpoint any more. -/
theorem keepSender (h : x ≠ sender → Sent x e a s) (t : ObjPtr) (msg : Message) (badge : ℕ) :
  Sent x e a (s.keepSender t sender msg badge)
  := by
  unfold System.keepSender
  dsimp only
  refine clear (fun hne => ?_) (Tcb.sendsTo_of_endpoint rfl)
  have hcall : Sent x e a (if (s.tcb sender).blockedReason.any BlockedReason.isCallSend then
      s.setTcb sender fun th => { th with blockedReason := some (.replyWait msg badge) } else s) :=
    ite ((h hne).setTcb fun heq => absurd heq hne) (h hne)
  exact hcall.setReplyTcb t sender _

/-- The sender of a message that has been received runs again. -/
theorem releaseSender (h : x ≠ sender → Sent x e a s) :
  Sent x e a (s.releaseSender cpu sender)
  := by
  have h' : Sent x e a ((if (s.tcb sender).blockedReason.any BlockedReason.isSendTimed then
      s.cancelTimer sender else s).unblock sender) :=
    unblock fun hne => ite ((h hne).cancelTimer sender) (h hne)
  exact h'

/-- After the message was received, its sender is no longer a sender. -/
theorem recvFinish (h : x ≠ sender → Sent x e (some t) s) (kind : RecvKind) (e' : ObjPtr) (msg : Message)
    (badge : ℕ) (keep q : Bool) (w : Option ObjPtr) :
  Sent x e (some t) (s.recvFinish cpu kind t e' sender msg badge keep q w)
  := by
  have h' : x ≠ sender → Sent x e (some t) ((s.setEndpoint e' fun ep =>
      { ep with state := if q then .idle else .sendBlocked }).enqueueOpt cpu w) :=
    fun hne => ((h hne).setEndpoint fun _ => id).enqueueOpt cpu w
  exact ret (ite (keepSender h' t msg badge) (releaseSender h')) msg badge (kind.source e')

/-- A sender that has been taken out of the queue is received from, at once or after a transfer. -/
theorem recvFrom (h : (e, x) ≠ (e', sender) → Sent x e (some t) s) (kind : RecvKind) (w : Option ObjPtr) :
  Sent x e none (s.recvFrom cpu kind t e' sender w)
  := by
  unfold System.recvFrom
  dsimp only
  split_ifs
  · by_cases heq : (e, x) = (e', sender)
    · intro _
      refine .inr ⟨t, Option.some_ne_none t |>.symm, ?_⟩
      rw [heq]
      simp [Kont.takenFrom]
    · exact ((h heq).setKont _).done
  · refine done (a := some t) (recvFinish ?_ kind e' _ _ _ _ w)
    intro hne
    refine transferMessage (h ?_) _ _ _ _
    rintro ⟨⟩
    exact hne rfl

/-- The first sender leaves the queue. -/
theorem takeSender (h : Sent x e a s) {queue : List ObjPtr}
    (hqueue : (s.endpoint e').sendQueue = sender :: queue) (hne : (e, x) ≠ (e', sender)) :
  Sent x e a (s.setEndpoint e' fun ep => { ep with sendQueue := queue })
  := by
  apply h.setEndpoint
  rintro rfl hmem
  rw [hqueue] at hmem
  exact (List.mem_cons.mp hmem).resolve_left fun heq => hne (congrArg _ heq)

section

variable (h : Sent x e (some t) s)
include h

/-- A receive takes the first sender out of the queue, or blocks. -/
theorem recvInner (kind : RecvKind) (e' : ObjPtr) (w : Option ObjPtr) (late : ℕ) :
  Sent x e none (s.recvInner cpu kind t e' w late)
  := by
  unfold System.recvInner
  split
  · split
    next sender queue hqueue => exact recvFrom (h.takeSender hqueue) kind w
    split
    · exact (h.recvBlock _ e' w late).done
    · refine done (enqueueOpt (setKont (block _ ?_ rfl) _) cpu w)
      exact fun hne => h.armRecvWait hne e'
  · split
    · refine done (ret (enqueueOpt ?_ cpu w) _ _ _)
      exact h.setEndpoint fun _ => id
    have hbits := h.takeBits t
    split
    next s' heq =>
      rw [heq] at hbits
      exact (hbits.recvBlock kind e' w late).done
    next bits s' _ heq =>
      rw [heq] at hbits
      exact done (ret (hbits.enqueueOpt cpu w) _ _ _)

end

/-- Looking for a sender takes one out of its queue at most. -/
theorem scanSenders (h : Sent x e a s) (es : List ObjPtr) :
  (∀ p, (scanSenders es s).1 = some p → (e, x) ≠ p) → Sent x e a (scanSenders es s).2
  := by
  induction es generalizing s with
  | nil => exact fun _ => h
  | cons e' es ih =>
    unfold System.scanSenders
    split_ifs
    · split
      next sender queue hqueue => exact fun hne => h.takeSender hqueue (hne _ rfl)
      · exact ih (h.setEndpoint fun _ => id)
    · exact ih h

/-- A receive on several endpoints takes the first sender that it finds. -/
theorem recvAny (h : Sent x e (some t) s) (kind : RecvKind) (es : List ObjPtr) (w : Option ObjPtr)
    (late : ℕ) :
  Sent x e none (s.recvAny cpu kind es t w late)
  := by
  have hscan := h.scanSenders es
  unfold System.recvAny
  split
  next e' sender s' heq =>
    rw [heq] at hscan
    refine recvFrom (fun hne => hscan ?_) kind w
    rintro _ ⟨⟩
    exact hne
  next s' heq =>
    rw [heq] at hscan
    replace hscan := hscan (by rintro _ ⟨⟩)
    split
    · refine done (ret (enqueueOpt ?_ cpu w) _ _ _)
      exact hscan.setEndpoint fun _ => id
    have hbits := hscan.takeBits t
    split
    next s'' heq =>
      rw [heq] at hbits
      refine done (enqueueOpt (recheckBits (resetTimed (block _ ?_ (isSend_reason kind)) t kind) late _)
        cpu w)
      exact fun hne => hbits.armRecvAny hne es
    next bits s'' _ heq =>
      rw [heq] at hbits
      exact done (ret (hbits.enqueueOpt cpu w) _ _ _)

theorem recvSection (h : Sent x e (some t) s) (kind : RecvKind) (w : Option ObjPtr) (late : ℕ) :
  Sent x e none (s.recvSection cpu kind t w late)
  := by
  cases kind with
  | one e' => exact h.recvInner _ e' w late
  | oneTimeout e' timeoutNs => exact h.recvInner _ e' w late
  | any es => exact h.recvAny _ es w late
  | anyTimeout es timeoutNs => exact h.recvAny _ es w late

/-- The sender goes back to the queue if the transfer fails. -/
theorem recvFail (h : (e, x) ≠ (e', sender) → Sent x e (some t) s) (kind : RecvKind) (w : Option ObjPtr) :
  Sent x e (some t) (s.recvFail cpu kind t e' sender w)
  := by
  refine setKont (enqueueOpt ?_ cpu w) _
  by_cases heq : (e, x) = (e', sender)
  · intro _
    left
    obtain ⟨rfl, rfl⟩ := heq
    simp
  · exact (h heq).setEndpoint fun _ => List.mem_cons_of_mem sender

/-! ## Replying -/

section

variable (h : Sent x e (some t) s)
include h

/-- The receive that follows a reply. -/
theorem afterReply (kind : RecvKind) (w : Option ObjPtr) (late : ℕ) :
  Sent x e none (s.afterReply cpu kind t w late)
  := by
  cases kind with
  | one e' => exact h.recvSection (.one e') w late
  | oneTimeout e' timeoutNs => exact h.recvSection (.oneTimeout e' timeoutNs) w late
  | any es => exact (h.setKont _).done
  | anyTimeout es timeoutNs => exact (h.setKont _).done

/-- The caller has its reply and waits for nothing. -/
theorem replyFinish (caller : ObjPtr) (msg : Message) :
  Sent x e (some t) ((s.transferMessage t caller msg 0).replyFinish t caller)
  := by
  have hcaller : Sent x e (some t) ((s.transferMessage t caller msg 0).setTcb caller fun th =>
      { th with blockedReason := none }) :=
    clear (fun _ => h.transferMessage t caller msg 0) (Tcb.sendsTo_of_reason _ rfl rfl)
  have hdrop : Sent x e (some t) (System.dropReply _ t) := hcaller.setFields fun _ => rfl
  exact hdrop

/-- A reply wakes its caller, and the thread receives again. -/
theorem replyRecv (kind : RecvKind) (reply : Message) (late : ℕ) :
  Sent x e none (s.replyRecv cpu kind t reply late)
  := by
  unfold System.replyRecv
  split
  · exact h.afterReply kind none late
  next caller _ =>
    dsimp only
    refine ite (ite (h.setKont _).done ((h.replyFinish caller _).afterReply kind _ late)) ?_
    refine afterReply ?_ kind none late
    exact h.setFields fun _ => rfl

end

/-! ## Fastpaths -/

section

variable (h : Sent x e (some t) s)
include h

/-- The receiver of the call runs in place of the caller. -/
theorem fastpathCallTo (e' r : ObjPtr) (msg : Message) (badge : ℕ) :
  Sent x e (some t) (s.fastpathCallTo cpu t e' r msg badge)
  := by
  have hmsg : Sent x e (some t) (s.setTcb r fun th =>
      { th with savedCallerMsg := msg, savedCallerBadge := badge }) := h.setFields fun _ => rfl
  unfold System.fastpathCallTo
  dsimp only
  refine setKont (switchTo (setEndpoint (unblock fun _ => setState ?_ r .ready) fun _ => id) t r) _
  exact ite (hmsg.cancelTimer r) hmsg

theorem fastpathCall (e' : ObjPtr) (msg : Message) (badge : ℕ) :
  Sent x e (some t) (s.fastpathCall cpu t e' msg badge).2
  := by
  unfold System.fastpathCall
  split_ifs
  · exact h
  split
  · exact h
  next r selected queue _ =>
    split_ifs
    · exact h
    · exact h.setFields (f := fun th => { th with replyTcb := none, replyCanGrant := false }) fun _ => rfl
    have hblock := block (t := t) (.replyWait msg badge) (fun _ => h) rfl
    have hpop : Sent x e (some t) (((s.block t (.replyWait msg badge)).setReplyTcb r t true).setEndpoint e'
        fun ep => { ep with recvQueue := queue }) :=
      setEndpoint (hblock.setReplyTcb r t true) fun _ => id
    have hleft := hpop.removeAllRecvWaits r selected
    refine fastpathCallTo ?_ e' r msg badge
    exact hleft

end

/-- The reply of the fast path wakes its caller. -/
theorem fastpathReply (h : Sent x e a s) {msg : Message} (hreply : s.fastpathReply cpu t msg = some (w, s')) :
  Sent x e a s'
  := by
  unfold System.fastpathReply at hreply
  split at hreply
  · cases hreply
    exact h
  next caller _ =>
    split_ifs at hreply
    cases hreply
    have hcaller : Sent x e a (s.setTcb caller fun th =>
        { th with savedCallerMsg := msg, savedCallerBadge := 0, blockedReason := none }) :=
      clear (fun _ => h) (Tcb.sendsTo_of_reason _ rfl rfl)
    have hdrop : Sent x e a (System.dropReply _ t) := hcaller.setFields fun _ => rfl
    exact hdrop

/-- The fast path takes the sender like the slow one. -/
theorem fastpathRecvFrom (h : x ≠ sender → Sent x e (some t) s) (e' : ObjPtr) (msg : Message)
    (badge : ℕ) (keep : Bool) (w : Option ObjPtr) (source : ℕ) :
  Sent x e (some t) (s.fastpathRecvFrom cpu t e' sender msg badge keep w source)
  := by
  have hmsg : x ≠ sender → Sent x e (some t) (s.setTcb t fun th =>
      { th with savedCallerMsg := msg, savedCallerBadge := badge }) :=
    fun hne => (h hne).setFields fun _ => rfl
  have hkeep : Sent x e (some t) (((s.setTcb t fun th =>
      { th with savedCallerMsg := msg, savedCallerBadge := badge }).setReplyTcb t sender true).setTcb
        sender fun th => { th with blockedEndpoint := none, blockedReason := some (.replyWait msg badge) }) :=
    clear (fun hne => (hmsg hne).setReplyTcb t sender true) (Tcb.sendsTo_of_endpoint rfl)
  have hwoken : Sent x e (some t) ((s.setTcb t fun th =>
      { th with savedCallerMsg := msg, savedCallerBadge := badge }).unblock sender) := unblock hmsg
  unfold System.fastpathRecvFrom
  dsimp only
  refine ret (ite ?_ (enqueue ?_ cpu sender)) msg badge source
  all_goals
    refine enqueueOpt (setEndpoint (ite ?_ ?_) fun _ => id) cpu w
    · exact hkeep
    · exact hwoken

theorem fastpathReplyRecv (h : Sent x e (some t) s) (e' : ObjPtr) (reply : Message) :
  Sent x e none (s.fastpathReplyRecv cpu t e' reply).2
  := by
  unfold System.fastpathReplyRecv
  split_ifs
  · exact h.done
  split
  · exact h.done
  next w m hreply =>
    have hm := h.fastpathReply hreply
    split_ifs
    · exact (hm.enqueueOpt cpu w).done
    split
    · exact (hm.enqueueOpt cpu w).done
    next sender queue hqueue =>
      split
      · exact (hm.enqueueOpt cpu w).done
      · refine done (fastpathRecvFrom (fun hne => hm.takeSender hqueue ?_) e' _ _ _ w 0)
        rintro ⟨⟩
        exact hne rfl

/-- Looking for a sender on a fastpath takes one out of its queue at most. -/
theorem fastpathScan (h : Sent x e a s) (cpu : ℕ) (es : List ObjPtr) :
  (∀ e' sender msg badge keep s', fastpathScan cpu es s = .found e' sender msg badge keep s' →
    x ≠ sender) → Sent x e a (fastpathScan cpu es s).system
  := by
  induction es generalizing s with
  | nil => exact fun _ => h
  | cons e' es ih =>
    unfold System.fastpathScan
    split_ifs
    · exact ih h
    split
    · exact ih (h.setEndpoint fun _ => id)
    next sender queue hqueue =>
      split
      · exact fun _ => h
      · intro hne
        refine h.takeSender hqueue ?_
        rintro ⟨⟩
        exact hne _ _ _ _ _ _ rfl rfl

theorem fastpathReplyRecvAny (h : Sent x e (some t) s) (es : List ObjPtr) (reply : Message) :
  Sent x e none (s.fastpathReplyRecvAny cpu t es reply).2
  := by
  unfold System.fastpathReplyRecvAny
  split_ifs
  · exact h.done
  split
  · exact h.done
  next w m hreply =>
    have hscan := (h.fastpathReply hreply).fastpathScan cpu es
    split
    next s' heq =>
      rw [heq] at hscan
      exact (enqueueOpt (hscan (by rintro _ _ _ _ _ _ ⟨⟩)) cpu w).done
    next e' sender msg badge keep s' heq =>
      rw [heq] at hscan
      refine done (fastpathRecvFrom (fun hne => hscan ?_) e' msg badge keep w _)
      rintro _ _ _ _ _ _ ⟨⟩
      exact hne
    next s' heq =>
      rw [heq] at hscan
      have hbits : Sent x e (some t) (s'.takeBits t).2 := takeBits (hscan (by rintro _ _ _ _ _ _ ⟨⟩)) t
      split
      next s'' heq' =>
        rw [heq'] at hbits
        exact (hbits.enqueueOpt cpu w).done
      next bits s'' _ heq' =>
        rw [heq'] at hbits
        exact done (ret (hbits.enqueueOpt cpu w) _ _ _)

/-! ## Faults -/

/-- Handing over a fault of a thread that names no endpoint. -/
theorem faultSection (h : x ≠ t → Sent x e (some t) s) (ht : (s.tcb t).blockedEndpoint = none)
    (e' : ObjPtr) (msg : Message) (badge : ℕ) :
  Sent x e (some t) (s.faultSection cpu t e' msg badge)
  := by
  have h' : Sent x e (some t) s := by
    obtain rfl | hne := eq_or_ne x t
    · exact of_none (Tcb.sendsTo_of_endpoint ht)
    · exact h hne
  unfold System.faultSection
  split
  · split
    · exact h'.blockSender e' _
    next r s' hpop =>
      refine wakeUnlessInactive (transferMessage (unblock fun _ => setEndpoint ?_ fun _ => id) t r msg badge)
        cpu r
      exact (h'.popRecvWaiter hpop).setReplyTcb r t false
  · exact h'.blockSender e' _

/-- A thread that faults is a sender of its fault handler. -/
theorem deliverFault (h : Sent x e (some t) s) (ht : (s.tcb t).blockedEndpoint = none) (e' : ObjPtr)
    (msg : Message) :
  Sent x e none (s.deliverFault cpu t e' msg)
  := by
  unfold System.deliverFault
  refine done (a := some t) (ite h (setKont (faultSection (fun hne => ?_) ?_ e' msg _) _))
  · have h' : Sent x e (some t) (s.setTcb t fun th =>
        { th with blockedReason := some (.faultBlocked msg (s.tcb t).faultHandlerBadge) }) :=
      h.setTcb fun heq => absurd heq hne
    exact h'
  · simpa using ht

/-! ## Other waits -/

section

variable (h : Sent x e (some t) s)
include h

theorem sleepInsert (wakeupNs : ℕ) :
  Sent x e (some t) (s.sleepInsert t wakeupNs)
  := by
  have h' : Sent x e (some t) (s.setTcb t fun th => { th with timerWakeupNs := wakeupNs }) :=
    h.setFields fun _ => rfl
  exact h'

/-- A thread that waits for a notification is no sender. -/
theorem notificationWait (n : ObjPtr) :
  Sent x e none (s.notificationWait t n)
  := by
  unfold System.notificationWait
  refine done (a := some t) (ite (ret (setNotification h n _) _ _ _) (setKont (block _ (fun _ => ?_) rfl) _))
  exact (h.setNotification n _).setFields fun _ => rfl

theorem nanosleep (wakeupNs : ℕ) :
  Sent x e none (s.nanosleep t wakeupNs)
  := done (setKont (sleepInsert (block _ (fun _ => h) rfl) wakeupNs) _)

/-- A thread that waits with a timeout is no sender. -/
theorem blockCurrentTimed (wait : Await) (nowNs timeoutNs : ℕ) :
  Sent x e none (s.blockCurrentTimed t wait nowNs timeoutNs)
  := by
  unfold System.blockCurrentTimed
  refine done (a := some t) (ite (setKont (h.sleepInsert _) _) (setKont (ite ?_ ?_) _))
  · exact h
  · exact h

theorem futexWait (addr : ℕ) :
  Sent x e none (s.futexWait t addr)
  := by
  have h' : Sent x e (some t) { s with futexQueue := s.futexQueue ++ [t] } := h
  refine done (setKont (block _ (fun _ => ?_) rfl) _)
  exact h'.setFields fun _ => rfl

theorem futexWaitTimeout (addr timeoutNs : ℕ) :
  Sent x e none (s.futexWaitTimeout t addr timeoutNs)
  := by
  unfold System.futexWaitTimeout
  have h' : Sent x e (some t) { s with futexQueue := s.futexQueue ++ [t] } := h
  refine done (a := some t) (ite h (setKont (block _ (fun _ => ?_) rfl) _))
  exact h'.setFields fun _ => rfl

/-- A thread that runs again returns to user mode. -/
theorem resume (wait : Await) :
  Sent x e none (s.resume t wait)
  := by
  have hwoken : Sent x e (some t) (s.setTcb t fun th => { th with wokenByNotification := false }) :=
    h.setFields fun _ => rfl
  have hrecv : ∀ timed, Sent x e none (s.resumeRecv t timed) := by
    intro timed
    unfold resumeRecv
    refine done (a := some t) (ite ?_ (ite (ret h _ _ _) (ret h _ _ _)))
    exact ret (hwoken.takeBits t) _ _ _
  cases wait with
  | recv => exact hrecv false
  | recvTimed => exact hrecv true
  | callQueued => exact done (ret hwoken _ _ _)
  | callReply => exact done (ret hwoken _ _ _)
  | notification n => exact done (ret (setNotification h n _) _ _ _)
  | _ => exact (h.setKont .user).done

end

/-! ## Leaving the queues -/

/-- A thread other than `x` leaves the queues of an endpoint. -/
theorem removeFromQueue (h : Sent x e a s) (hne : x ≠ t) (e' : ObjPtr) :
  Sent x e a (s.removeFromQueue e' t)
  := by
  unfold System.removeFromQueue
  refine ite ?_ (ite (h.removeAllRecvWaits t _) h)
  exact h.setEndpoint fun _ hmem => (List.mem_erase_of_ne hne).mpr hmem

/-- A thread that a notification wakes is no sender any more. -/
theorem wakeByNotification (h : x ≠ t → Sent x e a s) (cpu : ℕ) :
  Sent x e a (s.wakeByNotification cpu t)
  := by
  have h' : Sent x e a (s.setTcb t fun th =>
      { th with wokenByNotification := true, blockedReason := none }) :=
    clear h (Tcb.sendsTo_of_reason _ rfl rfl)
  exact h'

section

variable (h : Sent x e a s)
include h

/-- A signal wakes the thread that waits, or a receiver bound to the notification. -/
theorem signal (n : ObjPtr) (bits : ℕ) :
  Sent x e a (s.signal cpu n bits)
  := by
  unfold System.signal
  dsimp only
  split
  next w _ =>
    have h' : Sent x e a (s.setTcb w fun th =>
        { th with blockedReason := none, blockedNotification := none }) :=
      clear (fun _ => h) (Tcb.sendsTo_of_reason _ rfl rfl)
    exact h'
  split
  · exact h
  next t _ =>
    unfold signalBound
    refine ite ?_ ?_
    · refine wakeByNotification (fun _ => ?_) cpu
      exact h
    · split <;> exact h

theorem signalEndpoint (sig : Signal) :
  Sent x e a (s.signalEndpoint cpu sig)
  := by
  have h' : Sent x e a { s with signals := s.signals.erase sig } := h
  unfold System.signalEndpoint interruptCallSend interruptRecv
  dsimp only
  refine ite (ite ?_ h') (ite ?_ h')
  · refine wakeByNotification (fun hne => setTcb ?_ fun heq => absurd heq hne) cpu
    exact h'.removeFromQueue hne sig.endpoint
  · refine wakeByNotification (fun _ => ite ?_ (h'.removeAllRecvWaits sig.tcb _)) cpu
    exact ((h'.removeAllRecvWaits sig.tcb _).cancelTimer sig.tcb).setFields fun _ => rfl

theorem futexRemoveThread (t : ObjPtr) :
  Sent x e a (s.futexRemoveThread t)
  := by
  unfold System.futexRemoveThread
  refine ite h ?_
  have h' : Sent x e a { s with futexQueue := s.futexQueue.erase t } := h
  exact h'.setFields fun _ => rfl

theorem detachNotification (t : ObjPtr) :
  Sent x e a (s.detachNotification t)
  := by
  unfold System.detachNotification
  split
  · exact h
  next n _ =>
    refine setFields ?_ fun _ => rfl
    exact h

/-- A thread leaves the endpoint it is blocked on. -/
theorem detachEndpoint (t : ObjPtr) :
  Sent x e a (s.detachEndpoint t)
  := by
  unfold System.detachEndpoint
  split
  · exact h
  next e' _ =>
    dsimp only
    refine clear (fun hne => ?_) (Tcb.sendsTo_of_endpoint rfl)
    exact ite (h.removeAllRecvWaits t _) (h.removeFromQueue hne e')

/-- A thread that is suspended or destroyed leaves all queues. -/
theorem detachThreadWaitQueues (t : ObjPtr) :
  Sent x e a (s.detachThreadWaitQueues t)
  := by
  have htimer : Sent x e a (if (s.tcb t).blockedReason.any BlockedReason.isTimed then s.cancelTimer t
      else s) := ite (h.cancelTimer t) h
  have hleft := (htimer.detachEndpoint t).detachNotification t
  have hfutex := ite (c := (s.tcb t).blockedReason = some .futexBlocked ∨
    (s.tcb t).blockedReason = some .futexTimedBlocked) (hleft.futexRemoveThread t) hleft
  unfold System.detachThreadWaitQueues
  dsimp only
  refine ite ?_ hfutex
  exact hfutex.setFields fun _ => rfl

/-- A sender whose time is up leaves the queue. -/
theorem timeoutEndpoint (t e' : ObjPtr) :
  Sent x e a (s.timeoutEndpoint t e')
  := by
  unfold System.timeoutEndpoint
  dsimp only
  refine clear (fun hne => ?_) (Tcb.sendsTo_of_endpoint rfl)
  exact ite (h.removeAllRecvWaits t _) (h.removeFromQueue hne e')

/-- It runs again and names no endpoint any more. -/
theorem wakeExpiredThread (t : ObjPtr) :
  Sent x e a (s.wakeExpiredThread cpu t)
  := by
  have h' : Sent x e a ((s.setState t .ready).setTcb t fun th => { th with blockedReason := none }) :=
    clear (fun _ => h) (Tcb.sendsTo_of_reason _ rfl rfl)
  exact h'

theorem wakeExpired (t : ObjPtr) :
  Sent x e a (s.wakeExpired cpu t)
  := by
  unfold System.wakeExpired
  dsimp only
  have h' : Sent x e a ({ s with expired := s.expired.erase t }.setTcb t fun th =>
      { th with timerWakeupNs := 0 }) := by
    have hexpired : Sent x e a { s with expired := s.expired.erase t } := h
    exact hexpired.setFields fun _ => rfl
  split
  · refine wakeExpiredThread ?_ t
    exact (h'.futexRemoveThread t).setFields fun _ => rfl
  · split
    · exact h'
    next e' _ => exact (h'.timeoutEndpoint t e').wakeExpiredThread t
  · split
    · exact h'
    next e' _ => exact (h'.timeoutEndpoint t e').wakeExpiredThread t
  · exact h'.wakeExpiredThread t

theorem wakeFutexWaiter (t : ObjPtr) :
  Sent x e a (s.wakeFutexWaiter cpu t)
  := by
  unfold System.wakeFutexWaiter
  split
  · exact h
  next reason _ =>
    have htimed : Sent x e a (if reason = .futexTimedBlocked then (s.cancelTimer t).setTcb t fun th =>
        { th with futexWakeupResult := 0 } else s) :=
      ite ((h.cancelTimer t).setFields fun _ => rfl) h
    exact clear (f := fun th => { th with blockedReason := none }) (fun _ => htimed)
      (Tcb.sendsTo_of_reason _ rfl rfl)

/-- A suspended thread is no sender. -/
theorem tcbSuspend (current t : ObjPtr) :
  Sent x e a (s.tcbSuspend current t)
  := by
  have hdetach : ∀ sched, Sent x e a ({ s with sched := sched }.detachThreadWaitQueues t) :=
    fun sched => detachThreadWaitQueues (s := { s with sched := sched }) h t
  unfold System.tcbSuspend
  dsimp only
  split
  · exact ite h (hdetach _)
  · exact h
  · refine quiesce (clear (fun _ => setState (hdetach _) t .inactive) ?_) t
    exact Tcb.sendsTo_of_reason _ rfl rfl
  · refine quiesce (clear (fun _ => setState (hdetach _) t .inactive) ?_) t
    exact Tcb.sendsTo_of_reason _ rfl rfl
  · exact h

theorem tcbResume (t : ObjPtr) :
  Sent x e a (s.tcbResume cpu t)
  := by
  unfold System.tcbResume
  split
  · exact h
  · exact h
  · exact h
  · refine enqueue (clear (fun _ => h.detachThreadWaitQueues t) ?_) cpu t
    exact Tcb.sendsTo_of_reason _ rfl rfl

end

theorem wakeFutexWaiters (h : Sent x e a s) (cpu : ℕ) (ts : List ObjPtr) :
  Sent x e a (wakeFutexWaiters cpu ts s)
  := by
  induction ts generalizing s with
  | nil => exact h
  | cons t ts ih => exact ih (h.wakeFutexWaiter t)

theorem futexWake (h : Sent x e a s) (t : ObjPtr) (addr count : ℕ) :
  Sent x e a (s.futexWake cpu t addr count)
  := by
  unfold System.futexWake
  split
  · exact h
  · apply wakeFutexWaiters
    refine h.of_eq ?_ rfl rfl
    dsimp only
    split_ifs <;> rfl

/-! ## The end of an endpoint -/

/-- All senders are woken when their endpoint goes away. -/
theorem wakeSenders (h : Sent x e a s) (cpu : ℕ) (e' : ObjPtr) {queue : List ObjPtr}
    (hq : (s.endpoint e').sendQueue = queue) :
  Sent x e a (wakeSenders cpu e' queue s)
  := by
  induction queue generalizing s with
  | nil => exact h
  | cons t queue ih =>
    apply ih
    · refine wakeOrphan (fun hne => h.takeSender hq ?_) _
      rintro ⟨⟩
      exact hne rfl
    · simp

theorem wakeReceivers (h : Sent x e a s) (cpu : ℕ) (e' : ObjPtr) (n : ℕ) :
  Sent x e a (wakeReceivers cpu e' n s)
  := by
  induction n generalizing s with
  | zero => exact h
  | succ n ih =>
    unfold System.wakeReceivers
    split
    · exact h
    · apply ih
      exact wakeOrphan (fun _ => (h.setEndpoint fun _ => id).removeAllRecvWaits _ _) _

/-- Senders and receivers of an endpoint are woken. -/
theorem endpointCleanup (h : Sent x e a s) (cpu : ℕ) (e' : ObjPtr) :
  Sent x e a (s.endpointCleanup cpu e')
  := by
  unfold System.endpointCleanup
  dsimp only
  refine setEndpoint ?_ fun _ => id
  exact (h.wakeSenders cpu e' rfl).wakeReceivers cpu e' _

end Sent

/-! ## Steps -/

/-- Every thread that is blocked as a sender is in the send queue of its endpoint or being received from. -/
def SendInv (s : System) : Prop := ∀ x e, Sent x e none s

/-- A thread that faults names no endpoint, and a receiver that is to wait again after a failed transfer is
not blocked as a sender. -/
def Action.KeepsReason : Action → System → Prop
  | deliverFault _ t _ _, s => (s.tcb t).blockedEndpoint = none
  | sendDone _ t false, s => ∀ r, (s.kont t).peer = some r →
      (s.tcb r).blockedReason.any BlockedReason.isSend = false
  | _, _ => True

/-- No step forgets a sender, under the conditions on what a thread is blocked for. -/
theorem SendInv.exec {a : Action} (h : SendInv s) (ha : a.Enabled s) (hr : a.KeepsReason s) :
  SendInv (a.exec s)
  := by
  intro x e
  have hs := h x e
  have hcaller : ∀ t, a.caller? = some t → Sent x e (some t) s := by
    intro t ht
    apply hs.begin_of_none
    rw [(ha.caller t ht).2]
    rfl
  cases a with
  | send cpu kind t e' msg badge =>
    have ht := hcaller t rfl
    have hbegin : Sent x e (some t) (s.beginCall kind t) := by cases kind <;> exact ht
    exact (hbegin.sendSection kind e' msg badge).done
  | sendDone cpu t copied =>
    obtain ⟨kind, e', r, msg, badge, q, hk⟩ := ha.fits
    have ht := hs.begin_of_none (t := t) (by rw [hk]; rfl)
    simp only [Action.exec, System.sendDone, hk]
    cases copied with
    | true => exact ((ht.transferMessage t r msg badge).sendFinish kind e' r msg badge q).done
    | false => exact (ht.sendFail e' r (hr r (by simp [hk, Kont.peer]))).done
  | recv cpu kind t late => exact ((hcaller t rfl).clearReply t).recvSection kind none late
  | recvDone cpu t copied =>
    obtain ⟨kind, e', sender, msg, badge, keep, q, w, hk⟩ := ha.fits
    have ht : (e, x) ≠ (e', sender) → Sent x e (some t) s := by
      intro hne
      refine hs.begin ?_
      rintro _ ⟨⟩ heq
      rw [hk] at heq
      exact hne (Option.some.inj heq).symm
    simp only [Action.exec, System.recvDone, hk]
    refine Sent.done (a := some t) (Sent.ite ?_ (Sent.recvFail ht kind w))
    refine Sent.recvFinish (fun hne => ?_) kind e' msg badge keep q w
    exact (ht fun heq => hne (congrArg Prod.snd heq)).transferMessage sender t msg badge
  | replyRecv cpu kind t reply late => exact (hcaller t rfl).replyRecv kind reply late
  | replyDone cpu t copied late =>
    obtain ⟨kind, caller, msg, hk⟩ := ha.fits
    have ht := hs.begin_of_none (t := t) (by rw [hk]; rfl)
    simp only [Action.exec, System.replyDone, hk]
    exact Sent.ite ((ht.replyFinish caller msg).afterReply kind _ late) (ht.setKont _).done
  | recvPhase cpu t late =>
    obtain ⟨kind, w, hk⟩ := ha.fits
    have ht := hs.begin_of_none (t := t) (by rw [hk]; rfl)
    simp only [Action.exec, System.recvPhase, hk]
    exact ht.recvSection kind w late
  | fastpathCall cpu t e' msg badge => exact ((hcaller t rfl).fastpathCall e' msg badge).done
  | fastpathReplyRecv cpu t e' reply => exact (hcaller t rfl).fastpathReplyRecv e' reply
  | fastpathReplyRecvAny cpu t es reply => exact (hcaller t rfl).fastpathReplyRecvAny es reply
  | deliverFault cpu t e' msg => exact (hcaller t rfl).deliverFault hr e' msg
  | signal cpu n bits => exact hs.signal n bits
  | signalEndpoint cpu sig => exact hs.signalEndpoint sig
  | notificationWait t n => exact (hcaller t rfl).notificationWait n
  | nanosleep t wakeupNs => exact (hcaller t rfl).nanosleep wakeupNs
  | blockTimed t nowNs =>
    obtain ⟨wait, timeoutNs, hk⟩ := ha.fits
    have ht := hs.begin_of_none (t := t) (by rw [hk]; rfl)
    simp only [Action.exec, hk]
    exact ht.blockCurrentTimed wait nowNs timeoutNs
  | detachExpired nowNs => exact hs
  | wakeExpired cpu t => exact hs.wakeExpired t
  | futexWait t addr => exact (hcaller t rfl).futexWait addr
  | futexWaitTimeout t addr timeoutNs => exact (hcaller t rfl).futexWaitTimeout addr timeoutNs
  | futexWake cpu t addr count => exact hs.futexWake t addr count
  | tcbSuspend current t => exact hs.tcbSuspend current t
  | tcbResume cpu t => exact hs.tcbResume t
  | endpointCleanup cpu e' => exact hs.endpointCleanup cpu e'
  | reschedule cpu => exact hs
  | processPending cpu => exact hs
  | resume t =>
    obtain ⟨⟨wait, hk⟩, -⟩ := ha.fits
    have ht := hs.begin_of_none (t := t) (by rw [hk]; rfl)
    simp only [Action.exec, hk]
    exact ht.resume wait

end SaltyOS.Ipc
