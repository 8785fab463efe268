import SaltyOS.Ipc.Endpoint

/-!
# Notifications, timers, futexes, and the suspension of threads

The other places where threads wait: the waiting slot of a notification, the sleep queue and the
futex table, with the operations that wake them, and the operations that take a thread out of
whatever it waits in: suspending, resuming and destroying it.

A signal takes the lock of the notification first and the lock of the endpoint later, so that it
consists of two steps; so does the expiry of timers, which first takes the expired threads out of the
sleep queue and then wakes one after the other. Waiting for the end of an address space is left out.
-/

namespace SaltyOS.Ipc.System

open BlockedReason

variable (s : System)

/-! ## Notifications -/

variable (cpu : ℕ) (t : ObjPtr)

/-- Wake a thread because of its bound notification. -/
def wakeByNotification : System :=
  ((s.setTcb t fun th => { th with wokenByNotification := true, blockedReason := none }).setState t
    .ready).enqueue cpu t

/-- A thread is blocked for a reason of the given kind. -/
def blockedFor (p : BlockedReason → Bool) : Bool :=
  s.state t == .blocked && (s.tcb t).blockedReason.any p

/-- Signal the thread bound to a notification. A thread with a dispatcher is interrupted in a call; a
thread that is blocked on an endpoint is looked at again under the lock of the endpoint. -/
def signalBound (n t : ObjPtr) : System :=
  if (s.tcb t).notificationDispatcher ≠ 0 ∧ s.blockedFor t isReplyWait then
    (s.pipCleanup t).wakeByNotification cpu t
  else
    match (s.tcb t).blockedEndpoint with
    | none => s
    | some e =>
      let callSend := (s.tcb t).notificationDispatcher ≠ 0 ∧ s.blockedFor t isCallSend
      { s with signals := { tcb := t, notification := n, endpoint := e, callSend } :: s.signals }

/-- Signal a notification. -/
def signal (n : ObjPtr) (bits : ℕ) : System :=
  let s := s.setNotification n fun ntfn => { ntfn with bits := ntfn.bits ||| bits }
  match (s.notification n).waiting with
  | some w =>
    (((s.setNotification n fun ntfn => { ntfn with waiting := none }).setTcb w fun th =>
      { th with blockedReason := none, blockedNotification := none }).setState w .ready).enqueue cpu w
  | none =>
    match (s.notification n).boundTcb with
    | none => s
    | some t => s.signalBound cpu n t

/-- Interrupt a call that no server has taken. -/
def interruptCallSend (sig : Signal) : System :=
  if s.blockedFor sig.tcb isCallSend ∧ (s.tcb sig.tcb).blockedEndpoint = some sig.endpoint then
    ((s.removeFromQueue sig.endpoint sig.tcb).setTcb sig.tcb fun th =>
      { th with blockedEndpoint := none }).wakeByNotification cpu sig.tcb
  else s

/-- Wake a receiver because of its bound notification. -/
def interruptRecv (sig : Signal) : System :=
  if s.blockedFor sig.tcb isRecv ∧ (s.tcb sig.tcb).blockedEndpoint = some sig.endpoint ∧
      (s.tcb sig.tcb).boundNotification = some sig.notification then
    let timed := (s.tcb sig.tcb).blockedReason == some .recvTimedBlocked
    let s := s.removeAllRecvWaits sig.tcb recvWaitSelectedNotification
    let s := if timed then
        (s.cancelTimer sig.tcb).setTcb sig.tcb fun th => { th with futexWakeupResult := 0 }
      else s
    s.wakeByNotification cpu sig.tcb
  else s

/-- The second half of a signal, under the lock of the endpoint. -/
def signalEndpoint (sig : Signal) : System :=
  let s := { s with signals := s.signals.erase sig }
  if sig.callSend then s.interruptCallSend cpu sig else s.interruptRecv cpu sig

/-- Wait for a notification. -/
def notificationWait (t n : ObjPtr) : System :=
  if (s.notification n).bits ≠ 0 then
    (s.setNotification n fun ntfn => { ntfn with bits := 0 }).ret t .empty (s.notification n).bits 0
  else
    (((s.setNotification n fun ntfn => { ntfn with waiting := some t }).setTcb t fun th =>
      { th with blockedNotification := some n }).block t .notificationWait).setKont t
        (.await (.notification n))

/-! ## The sleep queue -/

/-- Insert a thread into the sleep queue before the first one that is to be woken later. -/
def insertByWakeup (wakeup : ObjPtr → ℕ) (t : ObjPtr) : List ObjPtr → List ObjPtr
  | [] => [t]
  | x :: xs => if wakeup t < wakeup x then t :: x :: xs else x :: insertByWakeup wakeup t xs

/-- Insert a thread into the sleep queue. -/
def sleepInsert (wakeupNs : ℕ) : System :=
  let s := s.setTcb t fun th => { th with timerWakeupNs := wakeupNs }
  { s with sleepQueue := insertByWakeup (fun x => (s.tcb x).timerWakeupNs) t s.sleepQueue }

/-- Sleep until the given time. -/
def nanosleep (wakeupNs : ℕ) : System :=
  ((s.block t .timerBlocked).sleepInsert t wakeupNs).setKont t (.await .sleep)

/-- A thread that has released the lock under which it started a timed wait still waits. -/
def stillTimedBlocked : Bool :=
  s.state t == .blocked &&
    match (s.tcb t).blockedReason with
    | some .futexTimedBlocked => (s.tcb t).futexVSpace.isSome
    | some (.sendTimedBlocked _ _) => (s.tcb t).blockedEndpoint.isSome
    | some .recvTimedBlocked => (s.tcb t).blockedEndpoint.isSome
    | _ => false

/-- Take a thread out of the deferred slots of all CPUs. -/
def cancelPendingEnqueue : System :=
  { s with
    sched := { s.sched with
      pending := fun cpu => if s.sched.pending cpu = some t then none else s.sched.pending cpu } }

/-- Enter the sleep queue for a timed wait, unless the thread has been woken in the meantime. -/
def blockCurrentTimed (wait : Await) (nowNs timeoutNs : ℕ) : System :=
  if s.stillTimedBlocked t then
    (s.sleepInsert t (min (nowNs + timeoutNs) (2 ^ 64 - 1))).setKont t (.await wait)
  else
    let s := s.cancelPendingEnqueue t
    (if s.state t ≠ .inactive then s.setState t .running else s).setKont t (.await wait)

/-- The time of a thread in the sleep queue is up. -/
def due (nowNs : ℕ) (t : ObjPtr) : Bool := (s.tcb t).timerWakeupNs ≤ nowNs

/-- Take all threads out of the sleep queue whose time is up. -/
def detachExpired (nowNs : ℕ) : System :=
  { s with
    sleepQueue := s.sleepQueue.dropWhile (s.due nowNs)
    expired := s.expired ++ s.sleepQueue.takeWhile (s.due nowNs) }

/-! ## Futexes -/

/-- Take a thread out of the futex table. -/
def futexRemoveThread : System :=
  if (s.tcb t).futexAddr = 0 then s
  else
    { s with futexQueue := s.futexQueue.erase t }.setTcb t fun th =>
      { th with futexAddr := 0, futexVSpace := none }

/-- Wait on a futex whose value is the expected one. -/
def futexWait (addr : ℕ) : System :=
  (({ s with futexQueue := s.futexQueue ++ [t] }.setTcb t fun th =>
    { th with futexAddr := addr, futexVSpace := th.vspaceRoot }).block t .futexBlocked).setKont t
      (.await .futex)

/-- Wait on a futex whose value is the expected one, for a limited time. -/
def futexWaitTimeout (addr timeoutNs : ℕ) : System :=
  if timeoutNs = 0 then s
  else
    (({ s with futexQueue := s.futexQueue ++ [t] }.setTcb t fun th =>
      { th with futexAddr := addr, futexVSpace := th.vspaceRoot, futexWakeupResult := 0 }).block t
        .futexTimedBlocked).setKont t (.timedWait .futex timeoutNs)

/-- Wake a thread that has been taken out of the futex table. -/
def wakeFutexWaiter : System :=
  match (s.tcb t).blockedReason with
  | none => s
  | some reason =>
    let s := if reason = .futexTimedBlocked then
        (s.cancelTimer t).setTcb t fun th => { th with futexWakeupResult := 0 }
      else s
    ((s.setTcb t fun th => { th with blockedReason := none }).setState t .ready).enqueue cpu t

/-- Wake the given threads one after the other. -/
def wakeFutexWaiters (cpu : ℕ) : List ObjPtr → System → System
  | [], s => s
  | t :: ts, s => wakeFutexWaiters cpu ts (s.wakeFutexWaiter cpu t)

/-- The threads that a wake of the futex takes out of the table. -/
def futexWaiters (vspace : Option ObjPtr) (addr count : ℕ) : List ObjPtr :=
  (s.futexQueue.filter fun t =>
    (s.tcb t).futexVSpace == vspace && (s.tcb t).futexAddr == addr).take count

/-- Wake up to `count` threads waiting on a futex. -/
def futexWake (addr count : ℕ) : System :=
  match (s.tcb t).vspaceRoot with
  | none => s
  | some vspace =>
    let waiters := s.futexWaiters (some vspace) addr count
    let s := { s with
      futexQueue := s.futexQueue.filter fun x => x ∉ waiters
      tcb := fun x =>
        if x ∈ waiters then { s.tcb x with futexAddr := 0, futexVSpace := none } else s.tcb x }
    wakeFutexWaiters cpu waiters s

/-! ## Waking threads whose time is up -/

/-- Make a thread ready whose time is up. -/
def wakeExpiredThread : System :=
  ((s.setState t .ready).setTcb t fun th => { th with blockedReason := none }).enqueue cpu t

/-- Take a thread whose time is up out of the queues of the endpoint it is blocked on. -/
def timeoutEndpoint (t e : ObjPtr) : System :=
  let s := if (s.tcb t).blockedReason = some .recvTimedBlocked ∧ (s.tcb t).recvWaits ≠ [] then
      s.removeAllRecvWaits t recvWaitSelectedNone
    else s.removeFromQueue e t
  s.setTcb t fun th => { th with blockedEndpoint := none, futexWakeupResult := cancelled }

/-- Wake one of the threads that have been taken out of the sleep queue. A thread that is blocked for
a reason other than a timed wait on a futex or an endpoint is made ready whatever the reason. -/
def wakeExpired : System :=
  let s := { s with expired := s.expired.erase t }.setTcb t fun th => { th with timerWakeupNs := 0 }
  match (s.tcb t).blockedReason with
  | some .futexTimedBlocked =>
    ((s.futexRemoveThread t).setTcb t fun th =>
      { th with futexWakeupResult := cancelled }).wakeExpiredThread cpu t
  | some (.sendTimedBlocked _ _) =>
    match (s.tcb t).blockedEndpoint with
    | none => s
    | some e => (s.timeoutEndpoint t e).wakeExpiredThread cpu t
  | some .recvTimedBlocked =>
    match (s.tcb t).blockedEndpoint with
    | none => s
    | some e => (s.timeoutEndpoint t e).wakeExpiredThread cpu t
  | _ => s.wakeExpiredThread cpu t

/-! ## Suspending, resuming and destroying threads -/

/-- Take a thread out of the queues of the endpoint it is blocked on. -/
def detachEndpoint : System :=
  match (s.tcb t).blockedEndpoint with
  | none => s
  | some e =>
    let s := if (s.tcb t).blockedReason.any isRecv ∧ (s.tcb t).recvWaits ≠ [] then
        s.removeAllRecvWaits t recvWaitSelectedNone
      else s.removeFromQueue e t
    s.setTcb t fun th => { th with blockedEndpoint := none }

/-- Take a thread out of the waiting slot of the notification it is blocked on. -/
def detachNotification : System :=
  match (s.tcb t).blockedNotification with
  | none => s
  | some n =>
    (s.setNotification n fun ntfn =>
      { ntfn with waiting := if ntfn.waiting = some t then none else ntfn.waiting }).setTcb t
        fun th => { th with blockedNotification := none }

/-- Take a thread out of everything it waits in. -/
def detachThreadWaitQueues : System :=
  let reason := (s.tcb t).blockedReason
  let s := if reason.any isTimed then s.cancelTimer t else s
  let s := (s.detachEndpoint t).detachNotification t
  let s := if reason = some .futexBlocked ∨ reason = some .futexTimedBlocked then
      s.futexRemoveThread t
    else s
  if reason.any (fun r => r.isTimed && r != .timerBlocked) then
    s.setTcb t fun th => { th with futexWakeupResult := 0 }
  else s

/-- Wait until a suspended thread has left its CPU and take it out of the ready queues. -/
def quiesce : System :=
  let s := s.cancelPendingEnqueue t
  { s with sched := (s.sched.removeFromReadyQueue t).2 }

/-- Stop a thread. -/
def tcbSuspend (current t : ObjPtr) : System :=
  let s := s.pipCleanup t
  match s.state t with
  | .running =>
    let s := s.setState t .inactive
    if current = t then s else (s.detachThreadWaitQueues t).quiesce t
  | .ready => (s.setState t .inactive).quiesce t
  | .blocked =>
    ((((s.detachThreadWaitQueues t).setState t .inactive).setTcb t fun th =>
      { th with
        blockedReason := none
        replyTcb := none
        replyCanGrant := false
        savedCallerMsg := .empty
        savedCallerBadge := 0 })).quiesce t
  | .waiting =>
    (((s.detachThreadWaitQueues t).setState t .inactive).setTcb t fun th =>
      { th with blockedReason := none }).quiesce t
  | .inactive => s

/-- Make a thread runnable. -/
def tcbResume : System :=
  match s.state t with
  | .running => s
  | .ready => s
  | .inactive => s.enqueue cpu t
  | _ =>
    ((s.detachThreadWaitQueues t).setTcb t fun th => { th with blockedReason := none }).enqueue cpu t

/-! ## Running again -/

/-- The interruption code that a call returns when the caller runs again: `0` for a reply, `1` for an
interruption before a server has received the message, `2` for one afterwards. -/
def callCode (wait : Await) : ℕ :=
  match (s.tcb t).wokenByNotification, wait with
  | true, .callQueued => 1
  | true, .callReply => 2
  | _, _ => 0

/-- The source that has been selected for a receiver. -/
def currentMultiwaitSource : ℕ :=
  if (s.tcb t).recvWaitSelected = recvWaitSelectedNotification then notificationSource
  else if (s.tcb t).recvWaitSelected = recvWaitSelectedNone then 0
  else (s.tcb t).recvWaitSelected

/-- A receiver that was blocked returns with the bits of the notification that woke it, or else with
the message it was handed. -/
def resumeRecv (timed : Bool) : System :=
  if (s.tcb t).wokenByNotification then
    let (bits, s) := (s.setTcb t fun th => { th with wokenByNotification := false }).takeBits t
    s.ret t .empty bits notificationSource
  else if timed ∧ (s.tcb t).futexWakeupResult ≠ 0 then s.ret t .empty 0 0
  else
    s.ret t (s.tcb t).savedCallerMsg (s.tcb t).savedCallerBadge (s.currentMultiwaitSource t)

/-- A thread that was blocked returns to user mode. One that waited for a notification takes the bits
now. -/
def resume (wait : Await) : System :=
  match wait with
  | .notification n =>
    (s.setNotification n fun ntfn => { ntfn with bits := 0 }).ret t .empty (s.notification n).bits 0
  | .recv => s.resumeRecv t false
  | .recvTimed => s.resumeRecv t true
  | .callQueued =>
    (s.setTcb t fun th => { th with wokenByNotification := false }).ret t (s.tcb t).savedCallerMsg
      (s.callCode t wait) 0
  | .callReply =>
    (s.setTcb t fun th => { th with wokenByNotification := false }).ret t (s.tcb t).savedCallerMsg
      (s.callCode t wait) 0
  | _ => s.setKont t .user

end SaltyOS.Ipc.System
