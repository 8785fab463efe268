import SaltyOS.Sched.Pip
import Mathlib.Algebra.BigOperators.Group.Finset.Basic

/-!
# Deadlines and budgets

A scheduling context has a budget that the timer uses up. A context whose budget is used up gets its
budget back and a later deadline: a periodic one the deadline of the next period, a sporadic one the
latest deadline there is. What is left of a budget can be handed to another context.

The state is the map of the scheduling contexts. A tick charges the context of the current thread, which
is given here: the choice of the next thread neither reads nor writes a context. Deadlines and budgets are
words of `64` bits, and the additions wrap. The count of the ticks consumed is left out.
-/

namespace SaltyOS

/-- The scheduling contexts. -/
abbrev Contexts := ObjPtr → SchedContext

namespace Contexts

/-- Replace a context. -/
def set (f : Contexts) (sc : ObjPtr) (c : SchedContext) : Contexts :=
  Function.update f sc c

/-- `timer_tick`, for a current thread with the given context. A thread that has been suspended gets no new
budget. -/
def timerTick (f : Contexts) (sc : ObjPtr) (inactive : Bool) : Contexts :=
  let c := { f sc with remaining := (f sc).remaining - 1 }
  f.set sc <|
    if c.remaining = 0 ∧ inactive = false then
      { c with deadline := c.nextDeadline, remaining := c.budget }
    else c

/-- `SC_CONFIGURE`, at the given time. Invalid arguments change nothing. -/
def scConfigure (f : Contexts) (sc : ObjPtr) (budgetUs periodUs now : ℕ) : Contexts :=
  let budget := budgetUs / 1000
  let period := periodUs / 1000
  if budgetUs = 0 ∨ periodUs ≠ 0 ∧ periodUs < budgetUs ∨ budget = 0 then f
  else f.set sc { f sc with
    budget, period, remaining := budget
    deadline := if 0 < period then wrap64 (now + period) else 2 ^ 64 - 1 }

/-- `SC_YIELD_TO`. The remaining budget is added before it is cleared, also if the two contexts are the
same. -/
def scYieldTo (f : Contexts) (current target : ObjPtr) : Contexts :=
  let f := f.set target { f target with
    remaining := wrap64 ((f target).remaining + (f current).remaining) }
  f.set current { f current with remaining := 0 }

end Contexts

/-- The operations on scheduling contexts. -/
inductive EdfOp where
  | tick (sc : ObjPtr) (inactive : Bool)
  | configure (sc : ObjPtr) (budgetUs periodUs now : ℕ)
  | yieldTo (current target : ObjPtr)

namespace EdfOp

/-- Run an operation. -/
def exec : EdfOp → Contexts → Contexts
  | tick sc inactive, f => f.timerTick sc inactive
  | configure sc budgetUs periodUs now, f => f.scConfigure sc budgetUs periodUs now
  | yieldTo current target, f => f.scYieldTo current target

/-- The arguments are machine words. -/
def Words : EdfOp → Prop
  | configure _ budgetUs periodUs _ => budgetUs < 2 ^ 64 ∧ periodUs < 2 ^ 64
  | _ => True

/-- The operation lowers no deadline except that of a context that it configures, and a transfer conserves
the sum of the remaining budgets of the contexts involved. -/
def Right : EdfOp → Contexts → Prop
  | tick sc inactive, f => ∀ sc', (f sc').deadline ≤ (f.timerTick sc inactive sc').deadline
  | configure sc budgetUs periodUs now, f => ∀ sc' ≠ sc,
    (f sc').deadline ≤ (f.scConfigure sc budgetUs periodUs now sc').deadline
  | yieldTo current target, f =>
    (∀ sc, (f sc).deadline ≤ (f.scYieldTo current target sc).deadline)
      ∧ ∑ sc ∈ {current, target}, (f.scYieldTo current target sc).remaining =
        ∑ sc ∈ {current, target}, (f sc).remaining

/-- The sums that the operation computes fit into a word, and no budget is transferred from a context to
itself. -/
def Careful : EdfOp → Contexts → Prop
  | tick sc inactive, f => (f sc).remaining ≤ 1 → inactive = false → 0 < (f sc).period →
    (f sc).deadline + (f sc).period < 2 ^ 64
  | configure .., _ => True
  | yieldTo current target, f =>
    if current = target then (f current).remaining = 0
    else (f current).remaining + (f target).remaining < 2 ^ 64

/-- A property of an operation and the state before it, for all operations of a run. -/
def Along (P : EdfOp → Contexts → Prop) : List EdfOp → Contexts → Prop
  | [], _ => True
  | op :: ops, f => P op f ∧ Along P ops (op.exec f)

end EdfOp

namespace Contexts

/-- The numbers of the contexts are machine words. -/
def Words (f : Contexts) : Prop :=
  ∀ sc, (f sc).budget < 2 ^ 64 ∧ (f sc).period < 2 ^ 64 ∧ (f sc).deadline < 2 ^ 64 ∧
    (f sc).remaining < 2 ^ 64

variable {f : Contexts} {sc : ObjPtr} {c : SchedContext}

theorem Words.set (hf : f.Words) (hc : c.budget < 2 ^ 64 ∧ c.period < 2 ^ 64 ∧
    c.deadline < 2 ^ 64 ∧ c.remaining < 2 ^ 64) :
  (f.set sc c).Words
  := by
  intro sc'
  rw [Contexts.set, Function.update_apply]
  split_ifs
  · exact hc
  · exact hf sc'

/-- A change of one context lowers a deadline only if it lowers the one of this context. -/
theorem deadlines_set :
  (∀ sc', (f sc').deadline ≤ (f.set sc c sc').deadline) ↔ (f sc).deadline ≤ c.deadline
  := by
  constructor
  · intro h
    simpa [set] using h sc
  · intro h sc'
    rw [set, Function.update_apply]
    split_ifs with heq
    · rw [heq]
      exact h
    · exact le_rfl

theorem wrap64_lt (n : ℕ) :
  wrap64 n < 2 ^ 64
  := Nat.mod_lt _ (by decide)

theorem nextDeadline_lt (c : SchedContext) :
  c.nextDeadline < 2 ^ 64
  := by
  unfold SchedContext.nextDeadline
  split_ifs
  · apply wrap64_lt
  · decide

/-- Machine words stay machine words. -/
theorem Words.exec (hf : f.Words) {op : EdfOp} (hop : op.Words) :
  (op.exec f).Words
  := by
  cases op with
  | tick sc inactive =>
    obtain ⟨hbudget, hperiod, hdeadline, hremaining⟩ := hf sc
    apply hf.set
    split_ifs
    · exact ⟨hbudget, hperiod, nextDeadline_lt _, hbudget⟩
    · exact ⟨hbudget, hperiod, hdeadline, (Nat.sub_le _ _).trans_lt hremaining⟩
  | configure sc budgetUs periodUs now =>
    have hbudget := (Nat.div_le_self budgetUs 1000).trans_lt hop.1
    have hperiod := (Nat.div_le_self periodUs 1000).trans_lt hop.2
    change (f.scConfigure sc budgetUs periodUs now).Words
    unfold scConfigure
    dsimp only
    split_ifs
    · exact hf
    · exact hf.set ⟨hbudget, hperiod, wrap64_lt _, hbudget⟩
    · exact hf.set ⟨hbudget, hperiod, Nat.sub_lt (by decide) (by decide), hbudget⟩
  | yieldTo current target =>
    obtain ⟨hbudget, hperiod, hdeadline, -⟩ := hf target
    have htarget : (f.set target { f target with
        remaining := wrap64 ((f target).remaining + (f current).remaining) }).Words :=
      hf.set ⟨hbudget, hperiod, hdeadline, wrap64_lt _⟩
    obtain ⟨hbudget', hperiod', hdeadline', -⟩ := htarget current
    exact htarget.set ⟨hbudget', hperiod', hdeadline', Nat.two_pow_pos 64⟩

/-- An operation is right exactly if it is careful. -/
theorem right_iff_careful (hf : f.Words) (op : EdfOp) :
  op.Right f ↔ op.Careful f
  := by
  cases op with
  | tick sc inactive =>
    obtain ⟨-, hperiod, hdeadline, -⟩ := hf sc
    apply deadlines_set.trans
    dsimp only [EdfOp.Careful, SchedContext.nextDeadline, wrap64]
    split_ifs with hspent hpos
    · have hle : (f sc).remaining ≤ 1 := by omega
      simp only [hle, hspent.2, hpos, forall_const]
      omega
    · simp only [hpos]
      omega
    · exact iff_of_true le_rfl fun hle hactive => absurd ⟨by omega, hactive⟩ hspent
  | configure sc budgetUs periodUs now =>
    refine iff_of_true ?_ trivial
    intro sc' hne
    unfold scConfigure set
    split_ifs <;> simp [hne]
  | yieldTo current target =>
    have hdeadlines : ∀ sc, (f sc).deadline ≤ (f.scYieldTo current target sc).deadline := by
      intro sc
      refine (deadlines_set.mpr ?_ sc).trans (deadlines_set.mpr ?_ sc)
      · exact le_rfl
      · exact le_rfl
    apply (and_iff_right hdeadlines).trans
    dsimp only [EdfOp.Careful, scYieldTo, set]
    split_ifs with heq
    · subst heq
      simp [eq_comm]
    have hsum : wrap64 ((f target).remaining + (f current).remaining) =
        (f current).remaining + (f target).remaining ↔
          (f current).remaining + (f target).remaining < 2 ^ 64 := by
      unfold wrap64
      omega
    rw [Finset.sum_pair heq, Finset.sum_pair heq]
    simpa [Ne.symm heq] using hsum

/-- Along a run, deadlines do not go backwards and transfers conserve budgets exactly if the operations
are careful. -/
theorem deadlines_right_iff_careful (hf : f.Words) (ops : List EdfOp) (hops : ∀ op ∈ ops, op.Words) :
  EdfOp.Along EdfOp.Right ops f ↔ EdfOp.Along EdfOp.Careful ops f
  := by
  induction ops generalizing f with
  | nil => rfl
  | cons op ops ih =>
    obtain ⟨hop, hrest⟩ := List.forall_mem_cons.mp hops
    exact and_congr (right_iff_careful hf op) (ih (hf.exec hop) hrest)

/-- A context with the longest period there is, which has had a thousand of them. -/
def longPeriod : Contexts :=
  fun _ =>
    { budget := 1, period := 18446744073709551, deadline := 1000 * 18446744073709551,
      remaining := 1, boundTcb := none }

/-- A tick is right after the context has got a shorter period. -/
theorem deadlines_right_shorter_period :
  EdfOp.Along EdfOp.Right [.configure .null 1000 1000 0, .tick .null false] longPeriod
  := by
  refine (deadlines_right_iff_careful (fun _ => ?_) _ (by simp [EdfOp.Words])).mpr ?_
  · exact (by decide : 1 < 2 ^ 64 ∧ 18446744073709551 < 2 ^ 64 ∧
      1000 * 18446744073709551 < 2 ^ 64 ∧ 1 < 2 ^ 64)
  · exact ⟨trivial, fun _ _ _ => by decide, trivial⟩

/-- The next tick wraps the deadline, and a transfer of the context to itself loses its budget. -/
theorem deadline_wraps_and_budget_is_lost :
  (longPeriod.timerTick .null false .null).deadline < (longPeriod .null).deadline
    ∧ (longPeriod.scYieldTo .null .null .null).remaining = 0 ∧ (longPeriod .null).remaining = 1
  := by
  decide

end Contexts

end SaltyOS
