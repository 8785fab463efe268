import SaltyOS.Lib.Donation
import SaltyOS.Lib.Prog
import SaltyOS.Sched.Pip
import Mathlib.Data.Set.Card

/-!
# Exactness of priority inheritance

The donations a scheduler keeps track of, and the operations on them in terms of the donations alone.
Counts and effective priorities are exact along every run whose operations leave no boost behind:
donations are withdrawn only where the priority of the holder does not depend on them or falls back
to the base priority with nobody further up the chain depending on the boost, and priorities are set
only to values that agree with the donations there are.
-/

namespace SaltyOS

open Function Relation Donations Scheduler

variable {s s' : Scheduler}

namespace Scheduler

/-- The priorities and donations of the threads. -/
def donations (s : Scheduler) : Donations ObjPtr ℕ where
  base t := (s.thread t).basePriority
  priority t := (s.thread t).priority
  target t := (s.thread t).pipDonatingTo

/-- The number of donations a thread has counted. -/
def donationCount (s : Scheduler) (t : ObjPtr) : ℕ := (s.thread t).pipDonationCount

/-- Priority inheritance is exact: every thread has counted its donors, and its effective priority is
the least of its base priority and the effective priorities of its donors. -/
structure PipExact (s : Scheduler) : Prop where
  count : ∀ t, (s.donations.donors t).encard = s.donationCount t
  priority : s.donations.Exact

/-! ## What the operations write -/

/-- The fields of a thread that priority inheritance reads and writes. -/
structure PipFields where
  base : ℕ
  priority : ℕ
  target : Option ObjPtr
  count : ℕ

end Scheduler

/-- The fields of a thread that priority inheritance reads and writes. -/
def Thread.pip (th : Thread) : Scheduler.PipFields where
  base := th.basePriority
  priority := th.priority
  target := th.pipDonatingTo
  count := th.pipDonationCount

namespace Scheduler

/-- The fields of all threads that priority inheritance reads and writes. -/
def pip (s : Scheduler) : ObjPtr → PipFields := fun t => (s.thread t).pip

/-- The two states agree on priorities and donations. -/
structure SamePip (s s' : Scheduler) : Prop where
  donations : s'.donations = s.donations
  count : s'.donationCount = s.donationCount

/-- Exactness only depends on priorities and donations. -/
theorem SamePip.exact {s s' : Scheduler} (h : SamePip s s') (hs : s.PipExact) :
  s'.PipExact
  := by
  constructor
  · rw [h.donations, h.count]
    apply hs.count
  · rw [h.donations]
    apply hs.priority

theorem samePip_of_pip {s s' : Scheduler} (h : s'.pip = s.pip) :
  SamePip s s'
  := ⟨Donations.ext (congrArg (PipFields.base ∘ ·) h) (congrArg (PipFields.priority ∘ ·) h)
    (congrArg (PipFields.target ∘ ·) h), congrArg (PipFields.count ∘ ·) h⟩

theorem pip_setThread (s : Scheduler) (t : ObjPtr) (f : Thread → Thread) :
  (s.setThread t f).pip = update s.pip t (f (s.thread t)).pip
  := comp_update Thread.pip s.thread t _

/-- Changing other fields. -/
theorem pip_setThread_same (s : Scheduler) {t : ObjPtr} {f : Thread → Thread}
    (h : (f (s.thread t)).pip = (s.thread t).pip) :
  (s.setThread t f).pip = s.pip
  := by
  rw [pip_setThread, h]
  apply update_eq_self

section Queues

variable (s : Scheduler) (cpu : ℕ) (t : ObjPtr)

@[simp] theorem pip_setState (state : ThreadState) :
  (s.setState t state).pip = s.pip
  := s.pip_setThread_same rfl

@[simp] theorem pip_insertSorted :
  (s.insertSorted cpu t).pip = s.pip
  := by
  have hset : (s.setThread t fun th => { th with readyQueued := true, queuedCpu := cpu }).pip =
      s.pip := s.pip_setThread_same rfl
  exact hset

theorem pip_unqueue :
  (s.unqueue t).pip = s.pip
  := s.pip_setThread_same rfl

@[simp] theorem pip_removeFromReadyQueue :
  (s.removeFromReadyQueue t).2.pip = s.pip
  := by
  unfold removeFromReadyQueue
  dsimp only
  split_ifs
  · rfl
  · apply pip_unqueue
  · rfl

@[simp] theorem pip_resortReadyThread :
  (s.resortReadyThread t).pip = s.pip
  := by
  have hremove := s.pip_removeFromReadyQueue t
  unfold resortReadyThread
  split
  · rename_i s' heq
    rw [heq] at hremove
    simpa using hremove
  · rfl

@[simp] theorem pip_enqueueOffCpu :
  (s.enqueueOffCpu cpu t).pip = s.pip
  := by
  unfold enqueueOffCpu
  split_ifs <;> simp

@[simp] theorem pip_releaseDisplaced (old : Option ObjPtr) :
  (s.releaseDisplaced cpu t old).pip = s.pip
  := by
  unfold releaseDisplaced
  split
  · rfl
  rename_i o
  have howner : (s.setThread o fun th => { th with runOwner := none }).pip = s.pip :=
    s.pip_setThread_same rfl
  dsimp only
  split_ifs
  · rfl
  · rw [pip_enqueueOffCpu, howner]
  · exact howner

@[simp] theorem pip_enqueue :
  (s.enqueue cpu t).pip = s.pip
  := by
  unfold enqueue setPendingEnqueue
  split
  · split_ifs
    · rfl
    · rw [pip_releaseDisplaced]
      exact s.pip_setState t .ready
    · rfl
  · simp

end Queues

/-! ## The operations in terms of the donations -/

section Operations

variable {s s' : Scheduler} {t : ObjPtr} {x : PipFields}

/-- The fields of a thread are replaced. -/
theorem donations_of_update (h : s'.pip = update s.pip t x) :
  s'.donations = ((s.donations.setBase t x.base).setPriority t x.priority).setTarget t x.target ∧
    s'.donationCount = update s.donationCount t x.count
  := by
  constructor
  · apply Donations.ext
    · exact (congrArg (PipFields.base ∘ ·) h).trans (comp_update ..)
    · exact (congrArg (PipFields.priority ∘ ·) h).trans (comp_update ..)
    · exact (congrArg (PipFields.target ∘ ·) h).trans (comp_update ..)
  · exact (congrArg (PipFields.count ∘ ·) h).trans (comp_update ..)

variable (s t)

/-- Boosting a thread changes its priority. -/
theorem boost_donations (p : ℕ) :
  (s.boost t p).donations = s.donations.setPriority t p ∧
    (s.boost t p).donationCount = s.donationCount
  := by
  have hpip : (s.boost t p).pip = update s.pip t { s.pip t with priority := p } := by
    have hset : (s.setEffective t p).pip = _ := pip_setThread s t _
    unfold boost
    dsimp only
    split_ifs
    · rw [pip_resortReadyThread, hset]
      rfl
    · exact hset
  obtain ⟨hdonations, hcount⟩ := donations_of_update hpip
  rw [hdonations, hcount]
  exact ⟨Donations.ext (update_eq_self t _) rfl (update_eq_self t _),
    update_eq_self t _⟩

/-- Passing on a boost only changes priorities, and it changes them along the donations. -/
theorem propagate_donations (p n : ℕ) (x : Option ObjPtr) :
  (propagate p n x s).donations = Donations.propagate p n x s.donations ∧
    (propagate p n x s).donationCount = s.donationCount
  := by
  induction n generalizing x s with
  | zero => exact ⟨rfl, rfl⟩
  | succ n ih =>
    obtain _ | t := x
    · exact ⟨rfl, rfl⟩
    obtain ⟨hdonations, hcount⟩ := boost_donations s t p
    rw [propagate, Donations.propagate]
    split
    · rename_i hle
      have hle' : s.donations.priority t ≤ p := hle
      rw [if_pos hle']
      exact ⟨rfl, rfl⟩
    · rename_i hle
      have hle' : ¬ s.donations.priority t ≤ p := hle
      rw [if_neg hle', (ih (s.boost t p) _).1, (ih (s.boost t p) _).2, hdonations, hcount]
      exact ⟨rfl, rfl⟩

theorem clearPipTarget_donations :
  (s.clearPipTarget t).donations = s.donations.setTarget t none ∧
    (s.clearPipTarget t).donationCount = s.donationCount
  := by
  obtain ⟨hdonations, hcount⟩ := donations_of_update (pip_setThread s t _)
  rw [clearPipTarget, hdonations, hcount]
  exact ⟨Donations.ext (update_eq_self t _) (update_eq_self t _) rfl,
    update_eq_self t _⟩

/-- Counting one donation less restores the base priority when none is left. -/
theorem dropDonation_donations :
  (s.dropDonation t).donations =
      (if s.donationCount t - 1 = 0 then s.donations.setPriority t (s.donations.base t)
        else s.donations) ∧
    (s.dropDonation t).donationCount =
      update s.donationCount t (s.donationCount t - 1)
  := by
  let s₁ := s.setThread t fun th => { th with pipDonationCount := th.pipDonationCount - 1 }
  have hpip : s₁.pip = _ := pip_setThread s t _
  obtain ⟨hdonations, hcount⟩ := donations_of_update hpip
  have hsame : s₁.donations = s.donations :=
    hdonations.trans (Donations.ext (update_eq_self t _) (update_eq_self t _) (update_eq_self t _))
  unfold dropDonation
  simp only [setThread_thread_same]
  split_ifs with hzero hzero' hzero'
  · obtain ⟨hboost, hboost'⟩ := boost_donations s₁ t (s.thread t).basePriority
    rw [hboost, hboost', hsame]
    exact ⟨rfl, hcount⟩
  · exact absurd hzero hzero'
  · exact absurd hzero' hzero
  · exact ⟨hsame, hcount⟩

/-- Recording a donation. -/
theorem recordDonation_donations (holder : ObjPtr) :
  (s.recordDonation t holder).donations = s.donations.setTarget t (some holder) ∧
    (s.recordDonation t holder).donationCount =
      update s.donationCount holder (wrap16 (s.donationCount holder + 1))
  := by
  constructor
  · ext u
    all_goals
      simp only [donations, recordDonation, setThread_thread, setTarget,
        update_apply]
      split_ifs <;> simp_all
  · funext u
    simp only [donationCount, recordDonation, setThread_thread, update_apply]
    split_ifs <;> simp_all

theorem setPriorities_donations (cpu p : ℕ) :
  (s.setPriorities cpu t p).donations = (s.donations.setBase t p).setPriority t p ∧
    (s.setPriorities cpu t p).donationCount = s.donationCount
  := by
  have hset := pip_setThread s t fun th => { th with basePriority := p, priority := p }
  have hpip : (s.setPriorities cpu t p).pip =
      update s.pip t { s.pip t with base := p, priority := p } := by
    unfold setPriorities
    dsimp only
    split_ifs
    · rw [pip_enqueue, pip_removeFromReadyQueue, hset]
      rfl
    · exact hset
  obtain ⟨hdonations, hcount⟩ := donations_of_update hpip
  rw [hdonations, hcount]
  exact ⟨Donations.ext rfl rfl (update_eq_self t _), update_eq_self t _⟩

end Operations

/-! ## Making a donation -/

section Exactness

variable {s s' : Scheduler} {d h t : ObjPtr}

/-- A thread has counted no donations exactly if nobody donates to it. -/
theorem PipExact.count_eq_zero (hs : s.PipExact) :
  s.donationCount t = 0 ↔ s.donations.donors t = ∅
  := by
  rw [← Set.encard_eq_zero, hs.count, Nat.cast_eq_zero]

/-- Without donors the effective priority is the base priority. -/
theorem PipExact.priority_of_no_donors (hs : s.PipExact) (ht : s.donations.donors t = ∅) :
  s.donations.priority t = s.donations.base t
  := by
  obtain ⟨hmem, -⟩ := hs.priority t
  rw [demands, demandsOf, ht, Set.image_empty, insert_empty_eq,
    Set.mem_singleton_iff] at hmem
  apply hmem

/-- A donation keeps exactness if the donor donated to nobody and the chains stay short. -/
theorem PipExact.pipDonate (hs : s.PipExact) (hd : s.donations.target d = none)
    (hbound : (s.donations.setTarget d (some h)).Bounded maxPipDepth)
    (hcount : s.donationCount h + 1 < 2 ^ 16) :
  (s.pipDonate d h).PipExact ∧
    (s.pipDonate d h).donations.target = (s.donations.setTarget d (some h)).target
  := by
  obtain ⟨hrecord, hrecordCount⟩ := recordDonation_donations s d h
  have hwrap : wrap16 (s.donationCount h + 1) = s.donationCount h + 1 := Nat.mod_eq_of_lt hcount
  have hcounts : ∀ t, ((s.donations.setTarget d (some h)).donors t).encard =
      (update s.donationCount h (wrap16 (s.donationCount h + 1)) t : ℕ) := by
    intro t
    by_cases ht : t = h
    · subst ht
      have hne : s.donations.target d ≠ some t := by
        rw [hd]
        simp
      obtain ⟨hdonors, hnot⟩ := donors_setTarget_same hne
      rw [hdonors, Set.encard_insert_of_notMem hnot, hs.count, update_self, hwrap,
        Nat.cast_add, Nat.cast_one]
    · rw [donors_setTarget_other hd ht, update_of_ne ht, hs.count]
  simp only [Scheduler.pipDonate]
  split_ifs with hle
  · constructor
    · constructor
      · rw [hrecord, hrecordCount]
        apply hcounts
      · rw [hrecord]
        apply hs.priority.donate_of_le hd hle
    · rw [hrecord]
  have hdue := hs.priority.due_of_lt hd (lt_of_not_ge hle)
  obtain ⟨hprop, hpropCount⟩ := propagate_donations (s.recordDonation d h)
    (s.thread d).priority maxPipDepth (some h)
  have htarget := propagate_target (s.thread d).priority maxPipDepth (some h)
    (s.donations.setTarget d (some h))
  have hchain : climb (s.donations.setTarget d (some h)).target maxPipDepth
      (some h) = none := by
    have hclimb := hbound d
    change climb _ _ (update s.donations.target d (some h) d) = none at hclimb
    rw [update_self] at hclimb
    apply hclimb
  rw [hrecord] at hprop
  constructor
  · constructor
    · intro t
      rw [hpropCount, hrecordCount, hprop, donors, htarget]
      apply hcounts t
    · rw [hprop]
      apply hdue.exact_propagate maxPipDepth hchain
  · rw [hprop, htarget]

/-! ## Withdrawing a donation -/

/-- The donation of `d` to `h` can be withdrawn without leaving a boost behind: either the priority
of `h` does not depend on it, or it is the only one, and the thread that `h` donates to does not
depend on `h`. -/
def CanWithdraw (s : Scheduler) (d h : ObjPtr) : Prop :=
  s.donations.Slack d h ∨
    s.donations.donors h = {d} ∧ ∀ g, s.donations.target h = some g → s.donations.Slack h g

/-- The base priority of a thread without donors is its priority already. -/
theorem PipExact.setPriority_base (hs : s.PipExact) (ht : s.donations.donors t = ∅) :
  s.donations.setPriority t (s.donations.base t) = s.donations
  := by
  rw [setPriority, ← hs.priority_of_no_donors ht, update_eq_self]

/-- Withdrawing a donation keeps exactness. -/
theorem PipExact.of_withdraw (hs : s.PipExact) (hd : s.donations.target d = some h)
    (hself : ∀ t, s.donations.target t ≠ some t) (hcan : s.CanWithdraw d h)
    (hcount : s'.donationCount = update s.donationCount h (s.donationCount h - 1))
    (hdonations : s'.donations =
      if s.donationCount h - 1 = 0 then
        (s.donations.setTarget d none).setPriority h (s.donations.base h)
      else s.donations.setTarget d none) :
  s'.PipExact ∧
    ∀ t, s'.donations.target t = s.donations.target t ∨ s'.donations.target t = none
  := by
  have hmem : d ∈ s.donations.donors h := hd
  have hne : d ≠ h := by
    rintro rfl
    apply hself d hd
  have hdonors : ∀ t, (s'.donations.donors t) = s.donations.donors t \ {d} := by
    intro t
    rw [hdonations]
    split <;> apply donors_setTarget_none
  refine ⟨⟨?_, ?_⟩, fun t => ?_⟩
  · intro t
    rw [hdonors, hcount]
    by_cases ht : t = h
    · subst ht
      rw [update_self, Set.encard_sdiff_singleton_of_mem hmem, hs.count]
      norm_cast
    have hother : s.donations.target d ≠ some t := by
      rw [hd]
      intro heq
      apply ht (Option.some.inj heq).symm
    rw [update_of_ne ht, donors_diff_of_ne hother, hs.count]
  · rw [hdonations]
    obtain hslack | ⟨hsole, hslack⟩ := hcan
    · have hexact := hs.priority.withdraw_of_slack hd hslack
      split
      · have hnone : s.donations.donors h \ {d} = ∅ := by
          rw [← Set.encard_eq_zero, Set.encard_sdiff_singleton_of_mem hmem, hs.count]
          norm_cast
        obtain ⟨hbase, -⟩ := hexact h
        rw [demands, donors_setTarget_none, hnone, demandsOf,
          Set.image_empty, insert_empty_eq, Set.mem_singleton_iff] at hbase
        have hsame : (s.donations.setTarget d none).setPriority h (s.donations.base h) =
            s.donations.setTarget d none := by
          rw [setPriority]
          congr 1
          change update (s.donations.setTarget d none).priority h
            ((s.donations.setTarget d none).base h) = _
          rw [← hbase, update_eq_self]
          rfl
        rw [hsame]
        apply hexact
      · apply hexact
    · have hone : s.donationCount h = 1 := by
        have hcard := hs.count h
        rw [hsole, Set.encard_singleton] at hcard
        exact_mod_cast hcard.symm
      rw [hone, if_pos rfl]
      apply hs.priority.withdraw_sole hsole hne (hself h) hslack
  · have htarget : s'.donations.target t = update s.donations.target d none t := by
      rw [hdonations]
      split <;> rfl
    rw [htarget, update_apply]
    split_ifs
    · exact .inr rfl
    · exact .inl rfl

section

variable (hs : s.PipExact) (hself : ∀ t, s.donations.target t ≠ some t)
include hs hself

/-- Reverting a donation keeps exactness if it can be withdrawn, or if there are no donations. -/
theorem PipExact.pipUndonate
    (hcan : s.donations.target d = some h ∧ s.CanWithdraw d h ∨ s.donations.donors h = ∅) :
  (s.pipUndonate h d).PipExact ∧
    ∀ t, (s.pipUndonate h d).donations.target t = s.donations.target t ∨
      (s.pipUndonate h d).donations.target t = none
  := by
  obtain ⟨hclear, hclearCount⟩ := clearPipTarget_donations s d
  obtain ⟨hdrop, hdropCount⟩ := dropDonation_donations (s.clearPipTarget d) h
  obtain ⟨hdrop', hdropCount'⟩ := dropDonation_donations s h
  rw [hclear, hclearCount] at hdrop
  rw [hclearCount] at hdropCount
  simp only [Scheduler.pipUndonate]
  obtain ⟨hd, hcan⟩ | hnone := hcan
  · have hd' : (s.thread d).pipDonatingTo = some h := hd
    rw [if_pos hd']
    apply hs.of_withdraw hd hself hcan hdropCount hdrop
  have hd' : (s.thread d).pipDonatingTo ≠ some h := by
    intro hd
    have hmem : d ∈ s.donations.donors h := hd
    rw [hnone] at hmem
    apply hmem
  have hzero : s.donationCount h = 0 := hs.count_eq_zero.2 hnone
  rw [if_neg hd']
  rw [hzero, if_pos rfl, hs.setPriority_base hnone] at hdrop'
  have hsame : SamePip s (s.dropDonation h) := by
    constructor
    · apply hdrop'
    · rw [hdropCount', update_eq_self_iff, hzero]
  constructor
  · apply hsame.exact hs
  · intro t
    left
    rw [hsame.donations]

/-- Forgetting the donations of a thread keeps exactness if it has no donors and its own donation
can be withdrawn. -/
theorem PipExact.pipCleanup (hdonors : s.donations.donors t = ∅)
    (hcan : ∀ h, s.donations.target t = some h → s.CanWithdraw t h) :
  (s.pipCleanup t).PipExact ∧
    ∀ u, (s.pipCleanup t).donations.target u = s.donations.target u ∨
      (s.pipCleanup t).donations.target u = none
  := by
  have hwithdraw : (s.withdraw t).PipExact ∧
      ∀ u, (s.withdraw t).donations.target u = s.donations.target u ∨
        (s.withdraw t).donations.target u = none := by
    simp only [withdraw]
    split
    · rename_i h hh
      have htarget : s.donations.target t = some h := hh
      obtain ⟨hdrop, hdropCount⟩ := dropDonation_donations s h
      obtain ⟨hclear, hclearCount⟩ := clearPipTarget_donations (s.dropDonation h) t
      apply hs.of_withdraw htarget hself (hcan h htarget)
      · rw [hclearCount, hdropCount]
      · rw [hclear, hdrop]
        split <;> rfl
    · exact ⟨hs, fun _ => .inl rfl⟩
  obtain ⟨hexact, htargets⟩ := hwithdraw
  have hnone : (s.withdraw t).donations.donors t = ∅ := by
    rw [Set.eq_empty_iff_forall_notMem] at hdonors ⊢
    intro u hu
    obtain heq | heq := htargets u
    · apply hdonors u
      apply heq.symm.trans hu
    · have habsurd := heq.symm.trans hu
      cases habsurd
  have hsame : SamePip (s.withdraw t) (s.pipCleanup t) := by
    apply samePip_of_pip (pip_setThread_same _ _)
    simp only [Thread.pip, PipFields.mk.injEq, true_and]
    exact ⟨(hexact.priority_of_no_donors hnone).symm, (hexact.count_eq_zero.2 hnone).symm⟩
  constructor
  · apply hsame.exact hexact
  · rw [hsame.donations]
    apply htargets

end

/-! ## Setting priorities -/

/-- Both priorities of a thread can be set to `p`: no donor is stricter, and the thread it donates to
does not depend on the difference. -/
def CanSet (s : Scheduler) (t : ObjPtr) (p : ℕ) : Prop :=
  (∀ d ∈ s.donations.donors t, p ≤ s.donations.priority d) ∧
    (p = s.donations.priority t ∨
      ∀ g, s.donations.target t = some g → s.donations.Slack t g ∧ s.donations.priority g ≤ p)

section

variable (hs : s.PipExact) (hself : ∀ t, s.donations.target t ≠ some t)
include hs hself

/-- Setting both priorities keeps exactness. -/
theorem PipExact.of_set {p : ℕ} (hcan : s.CanSet t p)
    (hcount : s'.donationCount = s.donationCount)
    (hdonations : s'.donations = (s.donations.setBase t p).setPriority t p) :
  s'.PipExact
  := by
  constructor
  · rw [hdonations, hcount]
    apply hs.count
  · rw [hdonations]
    apply hs.priority.setBoth (hself t) hcan.1 hcan.2

theorem setPriorities_exact {p : ℕ} (hcan : s.CanSet t p) (cpu : ℕ) :
  (s.setPriorities cpu t p).PipExact ∧
    (s.setPriorities cpu t p).donations.target = s.donations.target
  := by
  obtain ⟨hdonations, hcount⟩ := setPriorities_donations s t cpu p
  constructor
  · apply hs.of_set hself hcan hcount hdonations
  · rw [hdonations]
    rfl

/-- Binding a scheduling context sets both priorities to its deadline. -/
theorem PipExact.scBind (cpu : ℕ) (sc : ObjPtr) (hcan : s.CanSet t (s.context sc).deadline) :
  (s.scBind cpu sc t).PipExact ∧ (s.scBind cpu sc t).donations.target = s.donations.target
  := by
  simp only [Scheduler.scBind]
  split
  · exact ⟨hs, rfl⟩
  let s₁ : Scheduler := { s with
    context := update s.context sc { s.context sc with boundTcb := some t } }
  let s₂ := s₁.setThread t fun th => { th with schedContext := some sc }
  have hsame : SamePip s s₂ := samePip_of_pip (s₁.pip_setThread_same rfl)
  have hdeadline : (s₂.context sc).deadline = (s.context sc).deadline := by
    change (update s.context sc _ sc).deadline = _
    rw [update_self]
  have hcan' : s₂.CanSet t (s₂.context sc).deadline := by
    rw [CanSet, hsame.donations, hdeadline]
    apply hcan
  obtain ⟨hexact, htarget⟩ := setPriorities_exact (hsame.exact hs)
    (by rw [hsame.donations]; apply hself) hcan' cpu
  rw [hsame.donations] at htarget
  exact ⟨hexact, htarget⟩

end

/-- The deadline to which a replenishment sets the base priority agrees with the donations: without
donors both priorities can be set to it, and otherwise the effective priority stays as it is because
some donor accounts for it. -/
def CanReplenish (s : Scheduler) (t : ObjPtr) (p : ℕ) : Prop :=
  (s.donations.donors t = ∅ → s.CanSet t p) ∧
    (s.donations.donors t ≠ ∅ →
      s.donations.priority t ≤ p ∧
        (p = s.donations.priority t ∨
          ∃ d ∈ s.donations.donors t, s.donations.priority d = s.donations.priority t))

/-- Replenishing a budget keeps exactness. -/
theorem PipExact.replenishBudget (hs : s.PipExact) (hself : ∀ t, s.donations.target t ≠ some t)
    (hcan : ∀ sc, (s.thread t).schedContext = some sc →
      s.CanReplenish t (s.context sc).nextDeadline) :
  (s.replenishBudget t).PipExact ∧ (s.replenishBudget t).donations.target = s.donations.target
  := by
  simp only [Scheduler.replenishBudget]
  split
  · exact ⟨hs, rfl⟩
  rename_i sc hsc
  obtain ⟨hset, hstay⟩ := hcan sc hsc
  generalize (s.context sc).nextDeadline = p at hset hstay ⊢
  let s₁ : Scheduler := { s with
    context := update s.context sc
      { s.context sc with deadline := p, remaining := (s.context sc).budget } }
  let s₂ := s₁.setThread t fun th => { th with
    basePriority := p, priority := if th.pipDonationCount = 0 then p else th.priority }
  have hpip : s₂.pip = update s.pip t { s.pip t with
      base := p, priority := if s.donationCount t = 0 then p else s.donations.priority t } :=
    s₁.pip_setThread t _
  obtain ⟨hdonations, hcount⟩ := donations_of_update hpip
  have hcount : s₂.donationCount = s.donationCount := hcount.trans (update_eq_self t _)
  have hdonations : s₂.donations = if s.donationCount t = 0 then
      (s.donations.setBase t p).setPriority t p else s.donations.setBase t p := by
    rw [hdonations]
    split_ifs
    · exact Donations.ext rfl rfl (update_eq_self t _)
    · exact Donations.ext rfl (update_eq_self t _) (update_eq_self t _)
  by_cases hzero : s.donationCount t = 0
  · rw [if_pos hzero] at hdonations
    constructor
    · apply hs.of_set hself (hset (hs.count_eq_zero.1 hzero)) hcount hdonations
    · rw [hdonations]
      rfl
  rw [if_neg hzero] at hdonations
  rw [hs.count_eq_zero] at hzero
  obtain ⟨hle, hmem⟩ := hstay hzero
  constructor
  · constructor
    · rw [hdonations, hcount]
      apply hs.count
    · rw [hdonations]
      apply hs.priority.setBase
      constructor
      · obtain heq | ⟨d, hd, heq⟩ := hmem
        · left
          apply heq.symm
        · right
          exact ⟨d, hd, heq⟩
      · rintro x (rfl | ⟨d, hd, rfl⟩)
        · apply hle
        · apply (hs.priority t).2
          right
          exact ⟨d, hd, rfl⟩
  · rw [hdonations]
    rfl

end Exactness

end Scheduler

/-! ## Runs -/

/-- The operations that write priorities and donations. -/
inductive PipOp where
  | donate (donor holder : ObjPtr)
  | undonate (holder caller : ObjPtr)
  | cleanup (tcb : ObjPtr)
  | setPriority (cpu : ℕ) (tcb : ObjPtr) (priority : ℕ)
  | scBind (cpu : ℕ) (sc tcb : ObjPtr)
  | replenish (tcb : ObjPtr)

namespace PipOp

/-- Run an operation. -/
def exec : PipOp → Scheduler → Scheduler
  | donate donor holder, s => s.pipDonate donor holder
  | undonate holder caller, s => s.pipUndonate holder caller
  | cleanup t, s => s.pipCleanup t
  | setPriority cpu t priority, s => s.tcbSetPriority cpu t priority
  | scBind cpu sc t, s => s.scBind cpu sc t
  | replenish t, s => s.replenishBudget t

/-- A thread donates to at most one holder at a time, and the donation makes no chain of donations
longer than the depth to which boosts are passed on. A chain that is bounded has no cycle. -/
def Bounded : PipOp → Scheduler → Prop
  | donate donor holder, s =>
    s.donations.target donor = none ∧
      (s.donations.setTarget donor (some holder)).Bounded maxPipDepth
  | _, _ => True

/-- The operation leaves no boost behind and sets no priority that the donations do not allow. -/
def Settled : PipOp → Scheduler → Prop
  | donate _ holder, s => s.donationCount holder + 1 < 2 ^ 16
  | undonate holder caller, s =>
    s.donations.target caller = some holder ∧ s.CanWithdraw caller holder ∨
      s.donations.donors holder = ∅
  | cleanup t, s =>
    s.donations.donors t = ∅ ∧ ∀ h, s.donations.target t = some h → s.CanWithdraw t h
  | setPriority _ t priority, s => s.CanSet t priority
  | scBind _ sc t, s => s.CanSet t (s.context sc).deadline
  | replenish t, s =>
    ∀ sc, (s.thread t).schedContext = some sc → s.CanReplenish t (s.context sc).nextDeadline

end PipOp

/-- A step of the protocol by an operation that keeps chains bounded and leaves no boost behind. -/
def PipStep (s s' : Scheduler) : Prop :=
  ∃ op : PipOp, op.Bounded s ∧ op.Settled s ∧ s' = op.exec s

/-- The invariant of the runs: exactness and bounded chains. -/
structure PipInv (s : Scheduler) : Prop where
  exact : s.PipExact
  bounded : s.donations.Bounded maxPipDepth

theorem PipInv.of_le (hs : PipInv s) (hexact : s'.PipExact)
    (hle : ∀ t, s'.donations.target t = s.donations.target t ∨ s'.donations.target t = none) :
  PipInv s'
  := by
  use hexact
  intro t
  apply climb_none_of_le hle _ _ (hs.bounded t)

theorem PipInv.of_eq (hs : PipInv s) (h : s'.PipExact ∧ s'.donations.target = s.donations.target) :
  PipInv s'
  := by
  apply hs.of_le h.1
  intro t
  left
  rw [h.2]

/-- Every operation of the protocol keeps the invariant. -/
theorem PipInv.step (hs : PipInv s) (h : PipStep s s') :
  PipInv s'
  := by
  obtain ⟨op, hbounded, hsettled, rfl⟩ := h
  have hself := fun t => Donations.target_ne_self (hs.bounded t)
  cases op with
  | donate donor holder =>
    obtain ⟨hdonor, hchains⟩ := hbounded
    obtain ⟨hexact, htarget⟩ := hs.exact.pipDonate hdonor hchains hsettled
    use hexact
    change (s.pipDonate donor holder).donations.Bounded maxPipDepth
    rw [Donations.Bounded, htarget]
    apply hchains
  | undonate holder caller =>
    obtain ⟨hexact, hle⟩ := hs.exact.pipUndonate hself hsettled
    apply hs.of_le hexact hle
  | cleanup t =>
    obtain ⟨hexact, hle⟩ := hs.exact.pipCleanup hself hsettled.1 hsettled.2
    apply hs.of_le hexact hle
  | setPriority cpu t priority =>
    apply hs.of_eq (setPriorities_exact hs.exact hself hsettled cpu)
  | scBind cpu sc t =>
    apply hs.of_eq (hs.exact.scBind hself cpu sc hsettled)
  | replenish t =>
    apply hs.of_eq (hs.exact.replenishBudget hself hsettled)

/-- Nobody donates, and every priority is a base priority. -/
structure Scheduler.NoDonations (s : Scheduler) : Prop where
  target : ∀ t, (s.thread t).pipDonatingTo = none
  count : ∀ t, (s.thread t).pipDonationCount = 0
  priority : ∀ t, (s.thread t).priority = (s.thread t).basePriority

theorem Scheduler.NoDonations.pipInv (hs : s.NoDonations) :
  PipInv s
  := by
  have hdonors : ∀ t, s.donations.donors t = ∅ := by
    intro t
    rw [Set.eq_empty_iff_forall_notMem]
    intro d hd
    have habsurd := (hs.target d).symm.trans hd
    cases habsurd
  constructor
  · constructor
    · intro t
      rw [hdonors, Set.encard_empty, donationCount, hs.count, Nat.cast_zero]
    · intro t
      rw [demands, demandsOf, hdonors, Set.image_empty, insert_empty_eq]
      change IsLeast {(s.thread t).basePriority} (s.thread t).priority
      rw [hs.priority]
      apply isLeast_singleton
  · intro t
    change climb _ _ (s.thread t).pipDonatingTo = none
    rw [hs.target, climb_none]

/-- Along every run from a state without donations, in which each thread donates to at most one
holder, chains stay within the depth of the boosts and no step leaves a boost behind, every count of
donations is the number of donors and every effective priority is the least of the base priority and
the effective priorities of the donors. -/
theorem pipExact_of_run {s s' : Scheduler} (hs : s.NoDonations)
    (hrun : ReflTransGen PipStep s s') :
  s'.PipExact
  := by
  have hinv : PipInv s' := invariant_of_run (fun _ _ ht hstep => ht.step hstep) hs.pipInv hrun
  apply hinv.exact

/-- A scheduler with threads that have the deadlines `1`, `5`, `9` and so on. -/
def Scheduler.deadlineSample : Scheduler where
  thread
    | .static n => Thread.new (4 * n + 1)
    | _ => Thread.new 0
  context _ := { budget := 0, period := 0, deadline := 0, remaining := 0, boundTcb := none }
  ready _ := []
  current _ := none
  idle _ := none
  pending _ := none
  online := 1

theorem Scheduler.noDonations_deadlineSample :
  deadlineSample.NoDonations
  := by
  constructor
  all_goals
    intro t
    cases t with
    | static n => rfl
    | _ => rfl

/-- A donation of one static thread to another keeps the chains of a state bounded if the donor has
the smaller number and so have all donors before. -/
theorem Scheduler.bounded_of_increasing {m n : ℕ} (hm : m < n) (hn : n ≤ maxPipDepth)
    (hs : ∀ t u, s.donations.target t = some u →
      ∃ i j, t = .static i ∧ u = .static j ∧ i < j ∧ j ≤ maxPipDepth) :
  (s.donations.setTarget (.static m) (some (.static n))).Bounded maxPipDepth
  := by
  let rank : ObjPtr → ℕ := fun t =>
    match t with
    | .static i => maxPipDepth - i
    | _ => 0
  apply bounded_of_rank rank
  · intro t u htu
    have hedge : ∃ i j, t = .static i ∧ u = .static j ∧ i < j ∧ j ≤ maxPipDepth := by
      change update s.donations.target (.static m) (some (.static n)) t = some u at htu
      by_cases ht : t = .static m
      · subst ht
        rw [update_self] at htu
        exact ⟨m, n, rfl, (Option.some.inj htu).symm, hm, hn⟩
      · rw [update_of_ne ht] at htu
        apply hs t u htu
    obtain ⟨i, j, rfl, rfl, hij, hj⟩ := hedge
    apply Nat.sub_lt_sub_left (hij.trans_le hj) hij
  · intro t
    cases t with
    | static i => apply Nat.sub_le
    | _ => apply Nat.zero_le

theorem Scheduler.deadlineSample_target {t u : ObjPtr}
    (h : deadlineSample.donations.target t = some u) :
  ∃ i j, t = .static i ∧ u = .static j ∧ i < j ∧ j ≤ maxPipDepth
  := by
  have habsurd := (noDonations_deadlineSample.target t).symm.trans h
  cases habsurd

/-- A client with an early deadline calls a server and gets its reply. -/
theorem pipExact_call_reply :
  ((deadlineSample.pipDonate (.static 0) (.static 1)).pipUndonate
    (.static 1) (.static 0)).PipExact
  := by
  have htarget : (deadlineSample.pipDonate (.static 0) (.static 1)).donations.donors
      (.static 1) = {.static 0} := by
    ext d
    constructor
    · intro hd
      obtain _ | (_ | _ | n) | _ | _ | _ | _ := d
      all_goals first | rfl | cases hd
    · rintro rfl
      rfl
  apply pipExact_of_run noDonations_deadlineSample
  refine (ReflTransGen.refl.tail ⟨.donate (.static 0) (.static 1), ?_, ?_, rfl⟩).tail
    ⟨.undonate (.static 1) (.static 0), trivial, ?_, rfl⟩
  · left
    use rfl
    right
    use htarget
    intro g hg
    cases hg
  · use rfl
    apply bounded_of_increasing (by decide) (by decide)
    apply deadlineSample_target
  · exact (by decide : deadlineSample.donationCount (.static 1) + 1 < 2 ^ 16)

/-- A step of the protocol by an operation that keeps chains bounded, whatever it leaves behind. -/
def BoundedPipStep (s s' : Scheduler) : Prop :=
  ∃ op : PipOp, op.Bounded s ∧ s' = op.exec s

/-- A client calls a server, which calls another server on its behalf. When the client is interrupted
its donation is withdrawn, but only the first server loses the boost: the second one keeps the
priority `1`, although its only donor has the priority `5` again. -/
theorem boost_left_behind :
  ∃ s, ReflTransGen BoundedPipStep deadlineSample s ∧
    (s.thread (.static 2)).priority = 1 ∧ (s.thread (.static 1)).priority = 5 ∧ ¬ s.PipExact
  := by
  let s₁ := deadlineSample.pipDonate (.static 0) (.static 1)
  let s₂ := s₁.pipDonate (.static 1) (.static 2)
  have hdonors : (s₂.pipCleanup (.static 0)).donations.donors (.static 2) = {.static 1} := by
    ext d
    constructor
    · intro hd
      obtain _ | (_ | _ | _ | n) | _ | _ | _ | _ := d
      all_goals first | rfl | cases hd
    · rintro rfl
      rfl
  have htarget : ∀ t u, s₁.donations.target t = some u →
      ∃ i j, t = .static i ∧ u = .static j ∧ i < j ∧ j ≤ maxPipDepth := by
    intro t u htu
    obtain _ | (_ | _ | n) | _ | _ | _ | _ := t
    case static.zero =>
      cases htu
      exact ⟨0, 1, rfl, rfl, by decide, by decide⟩
    all_goals cases htu
  refine ⟨s₂.pipCleanup (.static 0), ?_, by decide, by decide, ?_⟩
  · refine ((ReflTransGen.refl.tail ⟨.donate (.static 0) (.static 1), ?_, rfl⟩).tail
      ⟨.donate (.static 1) (.static 2), ?_, rfl⟩).tail ⟨.cleanup (.static 0), trivial, rfl⟩
    · use rfl
      apply bounded_of_increasing (by decide) (by decide)
      apply deadlineSample_target
    · use rfl
      apply bounded_of_increasing (by decide) (by decide) htarget
  · intro hexact
    obtain ⟨hmem, -⟩ := hexact.priority (.static 2)
    rw [demands, demandsOf, hdonors, Set.image_singleton] at hmem
    obtain hmem | hmem := hmem
    · cases hmem
    · cases hmem

end SaltyOS
