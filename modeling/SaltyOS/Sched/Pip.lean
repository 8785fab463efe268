import SaltyOS.Sched.Scheduler

/-!
# Priority inheritance

A thread that calls a server donates its priority to the server. The file contains the operations of
the protocol (`pip_donate`, `pip_undonate`, `pip_cleanup`), the other operations that write
priorities (`TCB_SET_PRIORITY`, `SC_BIND` and the replenishment of budgets), and the view of the
scheduler that only shows priorities and donations. Moving threads between queues does not change
that view.
-/

namespace SaltyOS

/-- The maximal number of threads a boost is passed on to. -/
def maxPipDepth : ℕ := 8

/-- The deadline of a scheduling context after its budget has been replenished. -/
def SchedContext.nextDeadline (sc : SchedContext) : ℕ :=
  if 0 < sc.period then wrap64 (sc.deadline + sc.period) else 2 ^ 64 - 1

namespace Scheduler

variable (s : Scheduler) (t : ObjPtr)

/-- Set the effective priority of a thread. -/
def setEffective (priority : ℕ) : Scheduler :=
  s.setThread t fun th => { th with priority }

/-- Set the effective priority of a thread and restore the order of its ready queue. -/
def boost (priority : ℕ) : Scheduler :=
  let s := s.setEffective t priority
  if (s.thread t).state = .ready then s.resortReadyThread t else s

/-- Let `donor` point to `holder` and count the donation. -/
def recordDonation (donor holder : ObjPtr) : Scheduler :=
  let s := s.setThread donor fun th => { th with pipDonatingTo := some holder }
  s.setThread holder fun th => { th with pipDonationCount := wrap16 (th.pipDonationCount + 1) }

/-- Pass a boost on along the donations, for at most the given number of threads. -/
def propagate (priority : ℕ) : ℕ → Option ObjPtr → Scheduler → Scheduler
  | 0, _, s => s
  | _ + 1, none, s => s
  | n + 1, some t, s =>
    if (s.thread t).priority ≤ priority then s
    else propagate priority n (s.thread t).pipDonatingTo (s.boost t priority)

/-- Donate the priority of `donor` to `holder`. -/
def pipDonate (donor holder : ObjPtr) : Scheduler :=
  if (s.thread holder).priority ≤ (s.thread donor).priority then s.recordDonation donor holder
  else
    propagate (s.thread donor).priority maxPipDepth (some holder) (s.recordDonation donor holder)

/-- Let a thread donate to nobody. -/
def clearPipTarget : Scheduler :=
  s.setThread t fun th => { th with pipDonatingTo := none }

/-- Count one donation less, and restore the base priority when none is left. -/
def dropDonation (holder : ObjPtr) : Scheduler :=
  let s := s.setThread holder fun th => { th with pipDonationCount := th.pipDonationCount - 1 }
  if (s.thread holder).pipDonationCount = 0 then s.boost holder (s.thread holder).basePriority
  else s

/-- Revert the donation of `caller` to `holder`. -/
def pipUndonate (holder caller : ObjPtr) : Scheduler :=
  if (s.thread caller).pipDonatingTo = some holder then (s.clearPipTarget caller).dropDonation holder
  else s.dropDonation holder

/-- Revert the donation a thread makes. -/
def withdraw : Scheduler :=
  match (s.thread t).pipDonatingTo with
  | some holder => (s.dropDonation holder).clearPipTarget t
  | none => s

/-- Forget the donations from and to a thread. -/
def pipCleanup : Scheduler :=
  (s.withdraw t).setThread t fun th =>
    { th with pipDonationCount := 0, priority := th.basePriority }

/-! ## Other operations that write priorities -/

/-- Set both priorities of a thread, and insert it anew into a ready queue if it is ready. -/
def setPriorities (cpu : ℕ) (t : ObjPtr) (priority : ℕ) : Scheduler :=
  let s := s.setThread t fun th => { th with basePriority := priority, priority }
  if (s.thread t).state = .ready then (s.removeFromReadyQueue t).2.enqueue cpu t else s

/-- The system call that sets the priority of a thread. -/
def tcbSetPriority (cpu : ℕ) (t : ObjPtr) (priority : ℕ) : Scheduler :=
  s.setPriorities cpu t priority

/-- The system call that binds a scheduling context to a thread. -/
def scBind (cpu : ℕ) (sc t : ObjPtr) : Scheduler :=
  if (s.context sc).boundTcb ≠ none ∨ (s.thread t).schedContext ≠ none then s
  else
    let s := { s with
      context := Function.update s.context sc { s.context sc with boundTcb := some t } }
    let s := s.setThread t fun th => { th with schedContext := some sc }
    s.setPriorities cpu t (s.context sc).deadline

/-- Replenish the budget of a thread whose budget is used up. -/
def replenishBudget : Scheduler :=
  match (s.thread t).schedContext with
  | none => s
  | some sc =>
    let deadline := (s.context sc).nextDeadline
    let s := { s with
      context := Function.update s.context sc
        { s.context sc with deadline, remaining := (s.context sc).budget } }
    s.setThread t fun th =>
      { th with
        basePriority := deadline
        priority := if th.pipDonationCount = 0 then deadline else th.priority }

end Scheduler

end SaltyOS
