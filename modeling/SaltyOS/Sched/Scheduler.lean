import SaltyOS.Cap.Types
import Mathlib.Data.List.Basic

/-!
# The scheduler

The scheduling fields of the threads, the per-CPU ready queues and the operations on them: insertion
in the order of the deadlines, removal, the deferred enqueueing of a thread that is still on its way
off a CPU, and the choice of the next thread to run.

A ready queue is kept as the list of its threads in the order of the `next` links. The priority of a
thread is its effective deadline, so that a smaller number is more urgent. The bootstrap thread and
the interrupts sent between CPUs are left out.
-/

open Function

namespace SaltyOS

/-- Reduction of a machine word modulo `2 ^ 16`. -/
def wrap16 (n : ℕ) : ℕ := n % 2 ^ 16

/-- The states of a thread. -/
inductive ThreadState where
  | inactive
  | ready
  | running
  | blocked
  | waiting
  deriving DecidableEq, Repr

/-- The number of CPUs the kernel has room for. -/
def maxCpus : ℕ := 16

/-- The affinity of a thread that may run on any CPU, and the CPU of a thread in no ready queue. -/
def anyCpu : ℕ := 0xFFFFFFFF

/-- The scheduling fields of a thread control block. -/
structure Thread where
  state : ThreadState
  priority : ℕ
  basePriority : ℕ
  pipDonatingTo : Option ObjPtr
  pipDonationCount : ℕ
  schedContext : Option ObjPtr
  cpuAffinity : ℕ
  lastCpu : ℕ
  runOwner : Option ℕ
  readyQueued : Bool
  queuedCpu : ℕ
  deriving DecidableEq, Repr

/-- A new thread with the given deadline. -/
def Thread.new (deadline : ℕ) : Thread :=
  { state := .inactive, priority := deadline, basePriority := deadline, pipDonatingTo := none,
    pipDonationCount := 0, schedContext := none, cpuAffinity := anyCpu, lastCpu := anyCpu,
    runOwner := none, readyQueued := false, queuedCpu := anyCpu }

/-- A scheduling context. -/
structure SchedContext where
  budget : ℕ
  period : ℕ
  deadline : ℕ
  remaining : ℕ
  boundTcb : Option ObjPtr
  deriving DecidableEq, Repr

/-- The state of the scheduler. -/
structure Scheduler where
  thread : ObjPtr → Thread
  context : ObjPtr → SchedContext
  ready : ℕ → List ObjPtr
  current : ℕ → Option ObjPtr
  idle : ℕ → Option ObjPtr
  pending : ℕ → Option ObjPtr
  online : ℕ

namespace Scheduler

variable (s : Scheduler) (cpu : ℕ) (t : ObjPtr)

/-- Change the scheduling fields of one thread. -/
def setThread (f : Thread → Thread) : Scheduler :=
  { s with thread := update s.thread t (f (s.thread t)) }

@[simp]
theorem setThread_thread_same (f : Thread → Thread) :
  (s.setThread t f).thread t = f (s.thread t)
  := update_self t _ _

theorem setThread_thread (t u : ObjPtr) (f : Thread → Thread) :
  (s.setThread t f).thread u = if u = t then f (s.thread t) else s.thread u
  := update_apply s.thread t _ u

@[simp]
theorem setThread_thread_of_ne {t u : ObjPtr} (f : Thread → Thread) (h : u ≠ t) :
  (s.setThread t f).thread u = s.thread u
  := update_of_ne h _ _

/-- Change the state of a thread. -/
def setState (state : ThreadState) : Scheduler :=
  s.setThread t fun th => { th with state }

/-- Change the ready queue of a CPU. -/
def setReady (queue : List ObjPtr) : Scheduler :=
  { s with ready := update s.ready cpu queue }

/-- Change the deferred slot of a CPU. -/
def setPending (t : Option ObjPtr) : Scheduler :=
  { s with pending := update s.pending cpu t }

/-! ## Ready queues -/

/-- Insert a thread into a queue before the first thread with a later deadline. -/
def insertByPriority (priority : ObjPtr → ℕ) (t : ObjPtr) : List ObjPtr → List ObjPtr
  | [] => [t]
  | x :: xs => if priority t < priority x then t :: x :: xs else x :: insertByPriority priority t xs

/-- Insert a thread into the ready queue of a CPU. -/
def insertSorted : Scheduler :=
  let s := s.setThread t fun th => { th with readyQueued := true, queuedCpu := cpu }
  s.setReady cpu (insertByPriority (fun x => (s.thread x).priority) t (s.ready cpu))

/-- Mark a thread as being in no ready queue. -/
def unqueue : Scheduler :=
  s.setThread t fun th => { th with readyQueued := false, queuedCpu := anyCpu }

/-- Remove a thread from the ready queue it is in, and say whether it was found. -/
def removeFromReadyQueue : Bool × Scheduler :=
  let th := s.thread t
  if th.readyQueued = false ∨ maxCpus ≤ th.queuedCpu then (false, s)
  else if t ∈ s.ready th.queuedCpu then
    (true, (s.setReady th.queuedCpu ((s.ready th.queuedCpu).erase t)).unqueue t)
  else (false, s)

/-- Move a thread to its place in its ready queue after its priority has changed. -/
def resortReadyThread : Scheduler :=
  let cpu := (s.thread t).queuedCpu
  match s.removeFromReadyQueue t with
  | (true, s') => s'.insertSorted cpu t
  | (false, _) => s

/-- The CPU in whose ready queue a thread is to be inserted. -/
def selectTargetCpu : ℕ :=
  let th := s.thread t
  if th.cpuAffinity ≠ anyCpu then th.cpuAffinity
  else if th.lastCpu < s.online then th.lastCpu
  else cpu

/-- The thread is the current one of a CPU that is online. -/
def runsOn (cpu : ℕ) : Bool := cpu < s.online && s.current cpu == some t

/-- The CPU a thread is the current thread of: the two hints first, then all CPUs in turn. -/
def findRunningCpu : Option ℕ :=
  (s.thread t).runOwner.filter (s.runsOn t) <|> (some (s.thread t).lastCpu).filter (s.runsOn t)
    <|> (List.range s.online).find? (s.runsOn t)

/-- The CPU whose deferred slot holds a thread. -/
def pendingCpu : Option ℕ :=
  (List.range s.online).find? fun cpu => s.pending cpu == some t

/-- Make a thread ready that is the current thread of no CPU. It is inserted into a ready queue
unless it already is in one or in a deferred slot. -/
def enqueueOffCpu : Scheduler :=
  if (s.thread t).readyQueued ∨ (s.pendingCpu t).isSome then s.setState t .ready
  else (s.setState t .ready).insertSorted (s.selectTargetCpu cpu t) t

/-- Give up the ownership of the registers of the thread displaced from a deferred slot, and make it
ready if it is to run. It has been switched out, so that no CPU has it as its current thread. -/
def releaseDisplaced (old : Option ObjPtr) : Scheduler :=
  match old with
  | none => s
  | some o =>
    if o = t then s
    else
      let s := s.setThread o fun th => { th with runOwner := none }
      if (s.thread o).state = .ready then s.enqueueOffCpu cpu o else s

/-- Put a thread into the deferred slot of a CPU, to be enqueued when it has been switched out. -/
def setPendingEnqueue (cpu target : ℕ) (t : ObjPtr) : Scheduler :=
  if (s.thread t).state = .inactive then s
  else ((s.setState t .ready).setPending target (some t)).releaseDisplaced cpu t (s.pending target)

/-- Record in the deferred slot of a CPU that a thread which is not ready is being switched out. -/
def trackPendingSwitchOut : Scheduler :=
  (s.setPending cpu (some t)).releaseDisplaced cpu t (s.pending cpu)

/-- Make a thread ready, on the CPU `cpu`. A thread that is still the current thread of some CPU goes
to the deferred slot of that CPU. -/
def enqueue : Scheduler :=
  match s.findRunningCpu t with
  | some running =>
    if (s.thread t).state ≠ .running then s.setPendingEnqueue cpu running t else s
  | none => s.enqueueOffCpu cpu t

/-- Enqueue the thread in the deferred slot of a CPU after it has been switched out. -/
def processPendingEnqueue : Scheduler :=
  match s.pending cpu with
  | none => s
  | some t =>
    let s := (s.setPending cpu none).setThread t fun th => { th with runOwner := none }
    if (s.thread t).state = .ready then s.enqueue cpu t else s

/-! ## Choosing the next thread -/

/-- Install a thread as the current one of a CPU. -/
def setCurrent : Scheduler :=
  { s.setThread t fun th => { th with runOwner := some cpu } with
    current := update s.current cpu (some t) }

/-- Run a thread that was taken out of a ready queue. -/
def dispatch : Scheduler :=
  (s.setThread t fun th => { th with state := .running, lastCpu := cpu }).setCurrent cpu t

/-- The threads of a queue are taken out one after the other until one can run. -/
def pickLocal (cpu : ℕ) : List ObjPtr → Scheduler → Option ObjPtr × Scheduler
  | [], s => (none, s)
  | t :: queue, s =>
    let s := (s.setReady cpu queue).unqueue t
    if (s.thread t).state = .ready ∧ s.findRunningCpu t = none ∧ s.pendingCpu t = none then
      (some t, s.dispatch cpu t)
    else pickLocal cpu queue s

/-- The first thread of the queue of another CPU that may run anywhere. -/
def stealFrom (victim : ℕ) : Option ObjPtr :=
  (s.ready victim).find? fun t => (s.thread t).cpuAffinity == anyCpu && (s.thread t).state == .ready

/-- Take a thread from the first CPU that has one to give. -/
def steal (cpu : ℕ) : List ℕ → Scheduler → Option ObjPtr × Scheduler
  | [], s => (none, s)
  | victim :: victims, s =>
    match s.stealFrom victim with
    | some t =>
      (some t, ((s.setReady victim ((s.ready victim).erase t)).unqueue t).dispatch cpu t)
    | none => steal cpu victims s

/-- Choose the next thread for a CPU: the first runnable one of its own queue, else one of another
CPU, else its idle thread. -/
def schedule : Option ObjPtr × Scheduler :=
  match pickLocal cpu (s.ready cpu) s with
  | (some t, s') => (some t, s')
  | (none, s') =>
    match steal cpu ((List.range s'.online).filter (· ≠ cpu)) s' with
    | (some t, s'') => (some t, s'')
    | (none, s'') => (s''.idle cpu, s'')

/-- Prepare the current thread of a CPU for being switched out. A thread that is still running is to be
enqueued again afterwards. -/
def switchOut : Scheduler :=
  match s.current cpu with
  | none => s
  | some old =>
    if s.idle cpu = some old then s
    else
      match (s.thread old).state with
      | .running => s.setPendingEnqueue cpu cpu old
      | .inactive => s
      | _ => s.trackPendingSwitchOut cpu old

/-- Hand the CPU over to the next thread. -/
def reschedule : Scheduler :=
  let s := (s.processPendingEnqueue cpu).switchOut cpu
  match s.schedule cpu with
  | (some new, s') => if s.current cpu = some new then s' else s'.setCurrent cpu new
  | (none, s') => s'

end Scheduler

end SaltyOS
