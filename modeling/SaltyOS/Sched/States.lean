import SaltyOS.Sched.Pip

/-!
# The states of the threads

What the operations of the scheduler do to the states of the threads. Priorities and queues can change
without a change of state; making a thread ready, and handing a CPU over, change the states of the
threads concerned.
-/

open Function

namespace SaltyOS

/-- The scheduler may run a thread, or runs it. -/
def ThreadState.Active (state : ThreadState) : Prop := state = .ready ∨ state = .running

namespace Scheduler

/-- The states of all threads. -/
def states (s : Scheduler) : ObjPtr → ThreadState := fun t => (s.thread t).state

variable (s : Scheduler) (cpu : ℕ) (t : ObjPtr)

/-- A thread is changed and the others keep their states. -/
theorem states_setThread (f : Thread → Thread) :
  (s.setThread t f).states = update s.states t (f (s.thread t)).state
  := comp_update Thread.state s.thread t _

/-- Fields other than the state. -/
theorem setThread_states {s : Scheduler} {t : ObjPtr} {f : Thread → Thread}
    (hf : ∀ th, (f th).state = th.state) :
  (s.setThread t f).states = s.states
  := by
  rw [states_setThread, hf]
  apply update_eq_self

@[simp] theorem setState_states (state : ThreadState) :
  (s.setState t state).states = update s.states t state
  := states_setThread s t _

@[simp] theorem setReady_states (queue : List ObjPtr) :
  (s.setReady cpu queue).states = s.states
  := rfl

@[simp] theorem setPending_states (slot : Option ObjPtr) :
  (s.setPending cpu slot).states = s.states
  := rfl

/-! ## Ready queues -/

@[simp] theorem insertSorted_states :
  (s.insertSorted cpu t).states = s.states
  := by
  unfold insertSorted
  rw [setReady_states]
  apply setThread_states
  intro th
  rfl

@[simp] theorem unqueue_states :
  (s.unqueue t).states = s.states
  := by
  apply setThread_states
  intro th
  rfl

@[simp] theorem removeFromReadyQueue_states :
  (s.removeFromReadyQueue t).2.states = s.states
  := by
  unfold removeFromReadyQueue
  dsimp only
  split_ifs <;> simp

@[simp] theorem resortReadyThread_states :
  (s.resortReadyThread t).states = s.states
  := by
  have hremove := s.removeFromReadyQueue_states t
  unfold resortReadyThread
  split
  · rename_i s' heq
    rw [heq] at hremove
    simpa using hremove
  · rfl

/-- A thread that runs on no CPU becomes ready and is queued. -/
@[simp] theorem enqueueOffCpu_states :
  (s.enqueueOffCpu cpu t).states = update s.states t .ready
  := by
  unfold enqueueOffCpu
  split_ifs <;> simp

@[simp] theorem releaseDisplaced_states (old : Option ObjPtr) :
  (s.releaseDisplaced cpu t old).states = s.states
  := by
  unfold releaseDisplaced
  split
  · rfl
  rename_i o
  split_ifs with ho
  · rfl
  dsimp only
  have hrelease : (s.setThread o fun th => { th with runOwner := none }).states = s.states :=
    setThread_states fun _ => rfl
  split_ifs with hready
  · rw [enqueueOffCpu_states, hrelease, update_eq_self_iff]
    rw [← hrelease]
    exact hready.symm
  · exact hrelease

/-- A thread that is still on its CPU becomes ready, unless it was suspended. -/
theorem setPendingEnqueue_states (target : ℕ) :
  (s.setPendingEnqueue cpu target t).states =
    if s.states t = .inactive then s.states else update s.states t .ready
  := by
  unfold setPendingEnqueue
  have hstate : (s.thread t).state = s.states t := rfl
  rw [hstate]
  split_ifs
  · rfl
  · simp

/-- A thread that leaves its CPU is queued later. -/
@[simp] theorem trackPendingSwitchOut_states :
  (s.trackPendingSwitchOut cpu t).states = s.states
  := by
  unfold trackPendingSwitchOut
  simp

/-- Making a thread ready changes the state of this thread only. -/
theorem enqueue_states :
  (s.enqueue cpu t).states = s.states ∨ (s.enqueue cpu t).states = update s.states t .ready
  := by
  unfold enqueue
  split
  · split_ifs
    · rw [setPendingEnqueue_states]
      split_ifs
      · left
        rfl
      · right
        rfl
    · left
      rfl
  · right
    simp

/-- A thread that is ready already stays so. -/
theorem enqueue_states_of_ready (h : s.states t = .ready) :
  (s.enqueue cpu t).states = s.states
  := by
  obtain heq | heq := s.enqueue_states cpu t
  · exact heq
  · rw [heq, update_eq_self_iff, h]

@[simp] theorem processPendingEnqueue_states :
  (s.processPendingEnqueue cpu).states = s.states
  := by
  unfold processPendingEnqueue
  split
  · rfl
  rename_i o _
  have hrelease : ((s.setPending cpu none).setThread o fun th =>
      { th with runOwner := none }).states = s.states :=
    setThread_states fun _ => rfl
  dsimp only
  split_ifs with hready
  · rw [enqueue_states_of_ready _ _ _ hready, hrelease]
  · exact hrelease

/-! ## Priorities -/

@[simp] theorem boost_states (priority : ℕ) :
  (s.boost t priority).states = s.states
  := by
  have heffective : (s.setEffective t priority).states = s.states := setThread_states fun _ => rfl
  unfold boost
  dsimp only
  split_ifs
  · rw [resortReadyThread_states, heffective]
  · exact heffective

@[simp] theorem recordDonation_states (holder : ObjPtr) :
  (s.recordDonation t holder).states = s.states
  := by
  have hdonor : (s.setThread t fun th => { th with pipDonatingTo := some holder }).states = s.states :=
    setThread_states fun _ => rfl
  rw [← hdonor]
  unfold recordDonation
  apply setThread_states
  intro th
  rfl

/-- A priority goes along the chain of donations. -/
@[simp] theorem propagate_states (priority n : ℕ) (x : Option ObjPtr) :
  (propagate priority n x s).states = s.states
  := by
  induction n generalizing x s with
  | zero => rfl
  | succ n ih =>
    obtain _ | t := x
    · rfl
    unfold propagate
    split_ifs
    · rfl
    · rw [ih, boost_states]

@[simp] theorem pipDonate_states (holder : ObjPtr) :
  (s.pipDonate t holder).states = s.states
  := by
  unfold pipDonate
  split_ifs <;> simp

@[simp] theorem clearPipTarget_states :
  (s.clearPipTarget t).states = s.states
  := by
  apply setThread_states
  intro th
  rfl

@[simp] theorem dropDonation_states :
  (s.dropDonation t).states = s.states
  := by
  have hdrop : (s.setThread t fun th =>
      { th with pipDonationCount := th.pipDonationCount - 1 }).states = s.states :=
    setThread_states fun _ => rfl
  unfold dropDonation
  dsimp only
  split_ifs
  · rw [boost_states, hdrop]
  · exact hdrop

@[simp] theorem pipUndonate_states (caller : ObjPtr) :
  (s.pipUndonate t caller).states = s.states
  := by
  unfold pipUndonate
  split_ifs <;> simp

@[simp] theorem pipCleanup_states :
  (s.pipCleanup t).states = s.states
  := by
  have hwithdraw : (s.withdraw t).states = s.states := by
    unfold withdraw
    split <;> simp
  rw [← hwithdraw]
  apply setThread_states
  intro th
  rfl

/-! ## Handing over a CPU -/

@[simp] theorem setCurrent_states :
  (s.setCurrent cpu t).states = s.states
  := by
  have hset : (s.setThread t fun th => { th with runOwner := some cpu }).states = s.states :=
    setThread_states fun _ => rfl
  exact hset

/-- A thread runs on a CPU. -/
@[simp] theorem dispatch_states :
  (s.dispatch cpu t).states = update s.states t .running
  := by
  unfold dispatch
  rw [setCurrent_states]
  apply states_setThread

/-- Taking threads out of a queue until one can run: only the state of this one changes. -/
theorem pickLocal_states (queue : List ObjPtr) :
  match pickLocal cpu queue s with
  | (some t, s') => s.states t = .ready ∧ s'.states = update s.states t .running
  | (none, s') => s'.states = s.states
  := by
  induction queue generalizing s with
  | nil => rfl
  | cons t queue ih =>
    unfold pickLocal
    dsimp only
    have hskip : ((s.setReady cpu queue).unqueue t).states = s.states := by simp
    split_ifs with hrun
    · obtain ⟨hready, -⟩ := hrun
      refine ⟨?_, ?_⟩
      · rw [← hskip]
        exact hready
      · rw [dispatch_states, hskip]
    · have hrest := ih ((s.setReady cpu queue).unqueue t)
      rw [hskip] at hrest
      exact hrest

/-- Stealing a thread from another CPU. -/
theorem steal_states (victims : List ℕ) :
  match steal cpu victims s with
  | (some t, s') => s.states t = .ready ∧ s'.states = update s.states t .running
  | (none, s') => s'.states = s.states
  := by
  induction victims generalizing s with
  | nil => rfl
  | cons victim victims ih =>
    unfold steal
    cases hsteal : s.stealFrom victim with
    | some t =>
      have hready := List.find?_some hsteal
      rw [Bool.and_eq_true, beq_iff_eq, beq_iff_eq] at hready
      use hready.2
      simp
    | none => exact ih s

/-- The same threads are active, and the other threads are in the same states. -/
def SameActive (f g : ObjPtr → ThreadState) : Prop :=
  ∀ u, g u = f u ∨ (f u).Active ∧ (g u).Active

theorem SameActive.refl (f : ObjPtr → ThreadState) :
  SameActive f f
  := fun _ => .inl rfl

theorem SameActive.trans {f g h : ObjPtr → ThreadState} (hfg : SameActive f g) (hgh : SameActive g h) :
  SameActive f h
  := by
  intro u
  obtain heq | ⟨hg, hh⟩ := hgh u
  · rw [heq]
    exact hfg u
  obtain heq | ⟨hf, -⟩ := hfg u
  · rw [heq] at hg
    exact .inr ⟨hg, hh⟩
  · exact .inr ⟨hf, hh⟩

/-- An active thread goes to another active state. -/
theorem SameActive.update {f : ObjPtr → ThreadState} {t : ObjPtr} {state : ThreadState}
    (ht : (f t).Active) (hstate : state.Active) :
  SameActive f (update f t state)
  := by
  intro u
  obtain rfl | hne := eq_or_ne u t
  · right
    simpa using ⟨ht, hstate⟩
  · left
    simp [hne]

/-- Choosing the next thread. -/
theorem schedule_sameActive :
  SameActive s.states (s.schedule cpu).2.states
  := by
  have hlocal := s.pickLocal_states cpu (s.ready cpu)
  unfold schedule
  split
  · rename_i t s' heq
    rw [heq] at hlocal
    obtain ⟨hready, hstates⟩ := hlocal
    rw [hstates]
    exact .update (.inl hready) (.inr rfl)
  rename_i s' heq
  rw [heq] at hlocal
  have hsteal := s'.steal_states cpu ((List.range s'.online).filter (· ≠ cpu))
  split
  · rename_i t s'' heq'
    rw [heq'] at hsteal
    obtain ⟨hready, hstates⟩ := hsteal
    rw [hstates, hlocal]
    rw [hlocal] at hready
    exact .update (.inl hready) (.inr rfl)
  · rename_i s'' heq'
    rw [heq'] at hsteal
    rw [hsteal, hlocal]
    exact .refl _

/-- The thread that is switched out stays active if it was. -/
theorem switchOut_sameActive :
  SameActive s.states (s.switchOut cpu).states
  := by
  unfold switchOut
  split
  · exact .refl _
  split_ifs
  · exact .refl _
  split
  · rename_i hrunning
    rw [setPendingEnqueue_states]
    split_ifs
    · exact .refl _
    · exact .update (.inr hrunning) (.inl rfl)
  · exact .refl _
  · rw [trackPendingSwitchOut_states]
    exact .refl _

/-- Handing a CPU over to the next thread. -/
theorem reschedule_sameActive :
  SameActive s.states (s.reschedule cpu).states
  := by
  have hout := (s.processPendingEnqueue cpu).switchOut_sameActive cpu
  have hnext := ((s.processPendingEnqueue cpu).switchOut cpu).schedule_sameActive cpu
  rw [processPendingEnqueue_states] at hout
  apply hout.trans
  unfold reschedule
  dsimp only
  split
  · rename_i new s' heq
    rw [heq] at hnext
    split_ifs
    · exact hnext
    · rw [setCurrent_states]
      exact hnext
  · rename_i s' heq
    rw [heq] at hnext
    exact hnext

end Scheduler

end SaltyOS
