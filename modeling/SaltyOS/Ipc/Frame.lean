import SaltyOS.Ipc.Step

/-!
# What the operations leave alone

The setters of the system are opened by the simplifier, so that a field of the system after an
operation is simplified to what the operation makes of it. The operations that branch have a lemma
each, which says that they change no endpoint and no continuation.
-/

namespace SaltyOS.Ipc.System

attribute [simp] setTcb setEndpoint setNotification setKont setState enqueue pipDonate pipUndonate
  pipCleanup ret setReceivedBy setReserved transferMessage block sleepRemove cancelTimer unblock setReplyTcb
  awaitReply dropReply replyFinish wakeByNotification sleepInsert cancelPendingEnqueue quiesce
  wakeExpiredThread

variable (s : System)

variable (cpu : ℕ) (t : ObjPtr)

/-- A thread that may be missing is made ready. -/
@[simp] theorem enqueueOpt_frame (t : Option ObjPtr) :
  (s.enqueueOpt cpu t).endpoint = s.endpoint ∧ (s.enqueueOpt cpu t).kont = s.kont
  := by
  cases t <;> simp [enqueueOpt]

/-- A thread is made ready unless it has been suspended. -/
@[simp] theorem wakeUnlessInactive_frame :
  (s.wakeUnlessInactive cpu t).endpoint = s.endpoint ∧ (s.wakeUnlessInactive cpu t).kont = s.kont
  := by
  unfold wakeUnlessInactive
  split_ifs <;> simp

/-- The part of a message that is copied between the buffers of two threads. -/
@[simp] theorem transferExecPayload_frame (x r : ObjPtr) (msg : Message) :
  (s.transferExecPayload x r msg).endpoint = s.endpoint ∧ (s.transferExecPayload x r msg).kont = s.kont
  := by
  unfold transferExecPayload
  split_ifs
  · simp
  split
  · simp
  · dsimp only
    split <;> simp

/-- A server forgets the caller that it has to reply to. -/
@[simp] theorem clearReply_frame :
  (s.clearReply t).endpoint = s.endpoint ∧ (s.clearReply t).kont = s.kont
  := by
  unfold clearReply
  split <;> simp

@[simp] theorem lateBits_frame (bits : ℕ) :
  (s.lateBits t bits).endpoint = s.endpoint ∧ (s.lateBits t bits).kont = s.kont
  := by
  unfold lateBits
  split <;> simp

/-- The bits of a bound notification are taken. -/
@[simp] theorem takeBits_frame :
  ((s.takeBits t).2).endpoint = s.endpoint ∧ ((s.takeBits t).2).kont = s.kont
  := by
  unfold takeBits
  split <;> simp

@[simp] theorem resetTimed_frame (kind : RecvKind) :
  (s.resetTimed t kind).endpoint = s.endpoint ∧ (s.resetTimed t kind).kont = s.kont
  := by
  cases kind <;> simp [resetTimed]

/-- The sender of a call or of a fault stays blocked until the reply. -/
@[simp] theorem keepSender_frame (t x : ObjPtr) (msg : Message) (badge : ℕ) :
  (s.keepSender t x msg badge).endpoint = s.endpoint ∧ (s.keepSender t x msg badge).kont = s.kont
  := by
  unfold keepSender
  dsimp only
  split_ifs <;> simp

/-- The sender of a message that has been received runs again. -/
@[simp] theorem releaseSender_frame (x : ObjPtr) :
  (s.releaseSender cpu x).endpoint = s.endpoint ∧ (s.releaseSender cpu x).kont = s.kont
  := by
  unfold releaseSender
  dsimp only
  split_ifs <;> simp

/-- A new call has been received by nobody. -/
@[simp] theorem beginCall_frame (kind : SendKind) (t : ObjPtr) :
  (s.beginCall kind t).endpoint = s.endpoint ∧ (s.beginCall kind t).kont = s.kont
  := by
  cases kind <;> simp [beginCall]

@[simp] theorem detachNotification_frame :
  (s.detachNotification t).endpoint = s.endpoint ∧ (s.detachNotification t).kont = s.kont
  := by
  unfold detachNotification
  split <;> simp

/-- A thread leaves the queue of its futex. -/
@[simp] theorem futexRemoveThread_frame :
  (s.futexRemoveThread t).endpoint = s.endpoint ∧ (s.futexRemoveThread t).kont = s.kont
  := by
  unfold futexRemoveThread
  split_ifs <;> simp

/-- A thread that waits on an endpoint which is going away is woken. -/
@[simp] theorem wakeOrphan_frame (timed : BlockedReason → Bool) (t : ObjPtr) :
  (s.wakeOrphan cpu timed t).endpoint = s.endpoint ∧ (s.wakeOrphan cpu timed t).kont = s.kont
  := by
  unfold wakeOrphan
  dsimp only
  split_ifs <;> simp

@[simp] theorem wakeFutexWaiter_frame :
  (s.wakeFutexWaiter cpu t).endpoint = s.endpoint ∧ (s.wakeFutexWaiter cpu t).kont = s.kont
  := by
  unfold wakeFutexWaiter
  split
  · simp
  · dsimp only
    split_ifs <;> simp

/-- The processor is handed over from one thread to another. -/
@[simp] theorem switchTo_frame (old new : ObjPtr) :
  (s.switchTo cpu old new).endpoint = s.endpoint ∧ (s.switchTo cpu old new).kont = s.kont
  := by
  simp [switchTo]

end SaltyOS.Ipc.System
