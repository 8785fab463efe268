import SaltyOS.Ipc.Fastpath
import SaltyOS.Ipc.Wait

/-!
# Steps of the system

The atomic steps of the threads and of the interrupts: what each step does, when it can be taken, the
endpoints whose locks it takes, and the threads whose waiting it ends.
-/

namespace SaltyOS.Ipc

/-- The steps. In a step of a thread `t` is the thread; `cpu` is the CPU on which the step runs. The
outcome of copying capabilities, the time, and the bits that are signalled in the middle of a step are
parameters. -/
inductive Action where
  | send (cpu : ℕ) (kind : SendKind) (t e : ObjPtr) (msg : Message) (badge : ℕ)
  | sendDone (cpu : ℕ) (t : ObjPtr) (copied : Bool)
  | recv (cpu : ℕ) (kind : RecvKind) (t : ObjPtr) (late : ℕ)
  | recvDone (cpu : ℕ) (t : ObjPtr) (copied : Bool)
  | replyRecv (cpu : ℕ) (kind : RecvKind) (t : ObjPtr) (reply : Message) (late : ℕ)
  | replyDone (cpu : ℕ) (t : ObjPtr) (copied : Bool) (late : ℕ)
  | recvPhase (cpu : ℕ) (t : ObjPtr) (late : ℕ)
  | fastpathCall (cpu : ℕ) (t e : ObjPtr) (msg : Message) (badge : ℕ)
  | fastpathReplyRecv (cpu : ℕ) (t e : ObjPtr) (reply : Message)
  | fastpathReplyRecvAny (cpu : ℕ) (t : ObjPtr) (es : List ObjPtr) (reply : Message)
  | deliverFault (cpu : ℕ) (t e : ObjPtr) (msg : Message)
  | signal (cpu : ℕ) (n : ObjPtr) (bits : ℕ)
  | signalEndpoint (cpu : ℕ) (sig : Signal)
  | notificationWait (t n : ObjPtr)
  | nanosleep (t : ObjPtr) (wakeupNs : ℕ)
  | blockTimed (t : ObjPtr) (nowNs : ℕ)
  | detachExpired (nowNs : ℕ)
  | wakeExpired (cpu : ℕ) (t : ObjPtr)
  | futexWait (t : ObjPtr) (addr : ℕ)
  | futexWaitTimeout (t : ObjPtr) (addr timeoutNs : ℕ)
  | futexWake (cpu : ℕ) (t : ObjPtr) (addr count : ℕ)
  | tcbSuspend (current t : ObjPtr)
  | tcbResume (cpu : ℕ) (t : ObjPtr)
  | endpointCleanup (cpu : ℕ) (e : ObjPtr)
  | reschedule (cpu : ℕ)
  | processPending (cpu : ℕ)
  | resume (t : ObjPtr)

/-- The endpoints of a receiving system call. -/
def RecvKind.endpoints : RecvKind → List ObjPtr
  | .one e => [e]
  | .oneTimeout e _ => [e]
  | .any es => es
  | .anyTimeout es _ => es

/-- The endpoints that are locked while the reply is delivered. On several endpoints the locks are
taken after the reply. -/
def RecvKind.replyLocks : RecvKind → List ObjPtr
  | .one e => [e]
  | .oneTimeout e _ => [e]
  | _ => []

/-- The number of endpoints a thread can wait on. -/
def maxRecvWaitEndpoints : ℕ := 32

/-- The endpoints of a receiving system call are distinct, and there are not too many of them. -/
def RecvKind.Ok (kind : RecvKind) : Prop :=
  kind.endpoints ≠ [] ∧ kind.endpoints.Nodup ∧ kind.endpoints.length ≤ maxRecvWaitEndpoints

instance (kind : RecvKind) : Decidable kind.Ok :=
  inferInstanceAs (Decidable (_ ∧ _ ∧ _))

/-- The endpoint whose lock is released for a transfer of capabilities, in the middle of an operation
that changes its queues. -/
def Kont.transfersOn : Kont → Option ObjPtr
  | .sendTransfer _ e _ _ _ _ => some e
  | .recvTransfer _ e _ _ _ _ _ _ => some e
  | _ => none

/-- The thread to or from which a transfer of capabilities is under way. -/
def Kont.peer : Kont → Option ObjPtr
  | .sendTransfer _ _ r _ _ _ => some r
  | .recvTransfer _ _ sender _ _ _ _ _ => some sender
  | .replyTransfer _ caller _ => some caller
  | _ => none

namespace Action

/-- What a step does. -/
def exec : Action → System → System
  | send cpu kind t e msg badge, s => s.send cpu kind t e msg badge
  | sendDone cpu t copied, s => s.sendDone cpu t copied
  | recv cpu kind t late, s => s.recv cpu kind t late
  | recvDone cpu t copied, s => s.recvDone cpu t copied
  | replyRecv cpu kind t reply late, s => s.replyRecv cpu kind t reply late
  | replyDone cpu t copied late, s => s.replyDone cpu t copied late
  | recvPhase cpu t late, s => s.recvPhase cpu t late
  | fastpathCall cpu t e msg badge, s => (s.fastpathCall cpu t e msg badge).2
  | fastpathReplyRecv cpu t e reply, s => (s.fastpathReplyRecv cpu t e reply).2
  | fastpathReplyRecvAny cpu t es reply, s => (s.fastpathReplyRecvAny cpu t es reply).2
  | deliverFault cpu t e msg, s => s.deliverFault cpu t e msg
  | signal cpu n bits, s => s.signal cpu n bits
  | signalEndpoint cpu sig, s => s.signalEndpoint cpu sig
  | notificationWait t n, s => s.notificationWait t n
  | nanosleep t wakeupNs, s => s.nanosleep t wakeupNs
  | blockTimed t nowNs, s =>
    match s.kont t with
    | .timedWait wait timeoutNs => s.blockCurrentTimed t wait nowNs timeoutNs
    | _ => s
  | detachExpired nowNs, s => s.detachExpired nowNs
  | wakeExpired cpu t, s => s.wakeExpired cpu t
  | futexWait t addr, s => s.futexWait t addr
  | futexWaitTimeout t addr timeoutNs, s => s.futexWaitTimeout t addr timeoutNs
  | futexWake cpu t addr count, s => s.futexWake cpu t addr count
  | tcbSuspend current t, s => s.tcbSuspend current t
  | tcbResume cpu t, s => s.tcbResume cpu t
  | endpointCleanup cpu e, s => s.endpointCleanup cpu e
  | reschedule cpu, s => { s with sched := s.sched.reschedule cpu }
  | processPending cpu, s => { s with sched := s.sched.processPendingEnqueue cpu }
  | resume t, s =>
    match s.kont t with
    | .await wait => s.resume t wait
    | _ => s

/-- The endpoints whose locks a step takes. -/
def locks : Action → System → List ObjPtr
  | send _ _ _ e _ _, _ => [e]
  | sendDone _ t _, s => (s.kont t).transfersOn.toList
  | recv _ kind _ _, _ => kind.endpoints
  | recvDone _ t _, s => (s.kont t).transfersOn.toList
  | replyRecv _ kind .., _ => kind.replyLocks
  | replyDone _ t _ _, s =>
    match s.kont t with
    | .replyTransfer kind _ _ => kind.replyLocks
    | _ => []
  | recvPhase _ t _, s =>
    match s.kont t with
    | .recvPhase kind _ => kind.endpoints
    | _ => []
  | fastpathCall _ _ e _ _, _ => [e]
  | fastpathReplyRecv _ _ e _, _ => [e]
  | fastpathReplyRecvAny _ _ es _, _ => es
  | deliverFault _ _ e _, _ => [e]
  | signalEndpoint _ sig, _ => [sig.endpoint]
  | wakeExpired _ t, s => (s.tcb t).blockedEndpoint.toList
  | tcbSuspend _ t, s => (s.tcb t).blockedEndpoint.toList
  | tcbResume _ t, s => (s.tcb t).blockedEndpoint.toList
  | endpointCleanup _ e, _ => [e]
  | _, _ => []

/-- The thread that takes a step from user mode. -/
def caller? : Action → Option ObjPtr
  | send _ _ t _ _ _ => some t
  | recv _ _ t _ => some t
  | replyRecv _ _ t _ _ => some t
  | fastpathCall _ t _ _ _ => some t
  | fastpathReplyRecv _ t _ _ => some t
  | fastpathReplyRecvAny _ t _ _ => some t
  | deliverFault _ t _ _ => some t
  | notificationWait t _ => some t
  | nanosleep t _ => some t
  | futexWait t _ => some t
  | futexWaitTimeout t _ _ => some t
  | futexWake _ t _ _ => some t
  | _ => none

/-- The thread whose continuation a step changes. -/
def actor? : Action → Option ObjPtr
  | sendDone _ t _ => some t
  | recvDone _ t _ => some t
  | replyDone _ t _ _ => some t
  | recvPhase _ t _ => some t
  | blockTimed t _ => some t
  | resume t => some t
  | a => a.caller?

/-- The step fits what remains to be done by the thread that takes it. -/
def Fits : Action → System → Prop
  | recv _ kind _ _, _ => kind.Ok
  | replyRecv _ kind .., _ => kind.Ok
  | fastpathReplyRecvAny _ _ es _, _ => (RecvKind.any es).Ok
  | deliverFault _ _ _ msg, _ => msg.extraCaps = 0
  | sendDone _ t _, s => ∃ kind e r msg badge q, s.kont t = .sendTransfer kind e r msg badge q
  | recvDone _ t _, s =>
    ∃ kind e x msg badge keep q w, s.kont t = .recvTransfer kind e x msg badge keep q w
  | replyDone _ t _ _, s => ∃ kind c msg, s.kont t = .replyTransfer kind c msg
  | recvPhase _ t _, s => ∃ kind w, s.kont t = .recvPhase kind w
  | blockTimed t _, s => ∃ wait timeoutNs, s.kont t = .timedWait wait timeoutNs
  | resume t, s => (∃ wait, s.kont t = .await wait) ∧ s.state t = .running
  | signalEndpoint _ sig, s => sig ∈ s.signals
  | wakeExpired _ t, s => t ∈ s.expired
  | futexWait t addr, s => addr ≠ 0 ∧ (s.tcb t).vspaceRoot ≠ none
  | futexWaitTimeout t addr _, s => addr ≠ 0 ∧ (s.tcb t).vspaceRoot ≠ none
  | _, _ => True

/-- A step can be taken: a thread that enters the kernel is running in user mode, the step fits what
remains to be done, and the locks it takes are free. -/
structure Enabled (a : Action) (s : System) : Prop where
  caller : ∀ t, a.caller? = some t → s.state t = .running ∧ s.kont t = .user
  fits : a.Fits s
  locks : ∀ e ∈ a.locks s, (s.endpoint e).locked = false

section Enabled

variable {s : System} {t e : ObjPtr}

section

variable {cpu : ℕ} (hstate : s.state t = .running) (hk : s.kont t = .user)
  (hl : (s.endpoint e).locked = false)
include hstate hk hl

/-- A thread in user mode can send to an endpoint that is not locked. -/
theorem enabled_send {kind : SendKind} {msg : Message} {badge : ℕ} :
  (send cpu kind t e msg badge).Enabled s
  := by
  constructor
  · rintro u ⟨⟩
    exact ⟨hstate, hk⟩
  · trivial
  · simpa [locks] using hl

/-- A thread in user mode can receive from an endpoint that is not locked. -/
theorem enabled_recv_one {late : ℕ} :
  (recv cpu (.one e) t late).Enabled s
  := by
  constructor
  · rintro u ⟨⟩
    exact ⟨hstate, hk⟩
  · exact ⟨by simp [RecvKind.endpoints], by simp [RecvKind.endpoints], by
      simp [RecvKind.endpoints, maxRecvWaitEndpoints]⟩
  · simpa [locks, RecvKind.endpoints] using hl

end

/-- A send whose transfer is under way can be completed. -/
theorem enabled_sendDone {cpu : ℕ} {copied : Bool} {kind : SendKind} {r : ObjPtr} {msg : Message}
    {badge : ℕ} {q : Bool} (hk : s.kont t = .sendTransfer kind e r msg badge q)
    (hl : (s.endpoint e).locked = false) :
  (sendDone cpu t copied).Enabled s
  := by
  constructor
  · rintro u ⟨⟩
  · exact ⟨kind, e, r, msg, badge, q, hk⟩
  · simpa [locks, hk, Kont.transfersOn] using hl

end Enabled

end Action

/-- A step of the system that meets a condition. -/
def StepWith (C : Action → System → Prop) (s s' : System) : Prop :=
  ∃ a : Action, a.Enabled s ∧ C a s ∧ s' = a.exec s

/-- A step of the system. -/
def Step (s s' : System) : Prop := ∃ a : Action, a.Enabled s ∧ s' = a.exec s

/-- Nobody waits for anything: all threads are in user mode or have not been started, and all
endpoints are new. -/
structure System.Initial (s : System) : Prop where
  kont : ∀ t, s.kont t = .user
  endpoint : ∀ e, s.endpoint e = .new
  reason : ∀ t, (s.tcb t).blockedReason = none
  blockedEndpoint : ∀ t, (s.tcb t).blockedEndpoint = none
  blockedNotification : ∀ t, (s.tcb t).blockedNotification = none
  recvWaits : ∀ t, (s.tcb t).recvWaits = []
  replyTcb : ∀ t, (s.tcb t).replyTcb = none
  woken : ∀ t, (s.tcb t).wokenByNotification = false
  futexAddr : ∀ t, (s.tcb t).futexAddr = 0
  waiting : ∀ n, (s.notification n).waiting = none
  sleepQueue : s.sleepQueue = []
  expired : s.expired = []
  futexQueue : s.futexQueue = []
  signals : s.signals = []
  receivedBy : ∀ t, s.receivedBy t = none

/-- The thread with the number `n` runs on the CPU with this number. -/
def Scheduler.runningSample : Scheduler where
  thread
    | .static n => { Thread.new 1 with state := .running, runOwner := some n, lastCpu := n }
    | _ => Thread.new 1
  context _ := { budget := 0, period := 0, deadline := 0, remaining := 0, boundTcb := none }
  ready _ := []
  current n := some (.static n)
  idle _ := none
  pending _ := none
  online := 4

/-- A system in which threads run in user mode, and the notification `9` is bound to the thread `0`,
which has a dispatcher. -/
def System.sample : System where
  sched := Scheduler.runningSample
  tcb
    | .static 0 => { Tcb.new with boundNotification := some (.static 9), notificationDispatcher := 1 }
    | _ => Tcb.new
  endpoint _ := .new
  notification
    | .static 9 => { bits := 0, waiting := none, boundTcb := some (.static 0) }
    | _ => { bits := 0, waiting := none, boundTcb := none }
  sleepQueue := []
  expired := []
  futexQueue := []
  reserved _ := []
  kont _ := .user
  signals := []
  returned _ := (.empty, 0, 0)
  receivedBy _ := none

theorem System.initial_sample :
  System.sample.Initial
  := by
  constructor
  all_goals first | rfl | (intro x; obtain (_ | (_ | n) | _ | _ | _ | _) := x <;> rfl) | skip
  intro x
  obtain _ | n | _ | _ | _ | _ := x
  all_goals first | rfl | skip
  by_cases h : n = 9
  · subst h
    rfl
  · simp [System.sample, h]

end SaltyOS.Ipc
