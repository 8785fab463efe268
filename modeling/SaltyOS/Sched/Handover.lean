import SaltyOS.Sched.States
import Mathlib.Data.List.Find

/-!
# Handing a CPU over to a receiver

A thread that calls a server blocks, donates its priority to the server and makes it ready. Then the
scheduler chooses the next thread for the CPU. The file says when it chooses the server.

Where a thread is (on a CPU, in a ready queue, in a deferred slot) is its placement. Changes of states
and priorities keep the placements, as long as no thread has to move in its queue.
-/

open Function

namespace SaltyOS

namespace Scheduler

variable {s : Scheduler} {cpu : ℕ} {t r : ObjPtr}

/-! ## Placements -/

/-- The fields of a thread that say where it is. -/
def place (s : Scheduler) (u : ObjPtr) :=
  ((s.thread u).runOwner, (s.thread u).lastCpu, (s.thread u).cpuAffinity, (s.thread u).readyQueued)

/-- Two schedulers place the threads in the same way. -/
structure SamePlacement (s s' : Scheduler) : Prop where
  ready : s'.ready = s.ready
  current : s'.current = s.current
  idle : s'.idle = s.idle
  pending : s'.pending = s.pending
  online : s'.online = s.online
  place : s'.place = s.place

theorem SamePlacement.trans {s m s' : Scheduler} (h : SamePlacement s m) (h' : SamePlacement m s') :
  SamePlacement s s'
  := ⟨h'.ready.trans h.ready, h'.current.trans h.current, h'.idle.trans h.idle,
    h'.pending.trans h.pending, h'.online.trans h.online, h'.place.trans h.place⟩

theorem SamePlacement.thread {s s' : Scheduler} (h : SamePlacement s s') (u : ObjPtr) :
  (s'.thread u).runOwner = (s.thread u).runOwner ∧ (s'.thread u).lastCpu = (s.thread u).lastCpu ∧
    (s'.thread u).cpuAffinity = (s.thread u).cpuAffinity ∧
    (s'.thread u).readyQueued = (s.thread u).readyQueued
  := by
  simpa [Scheduler.place] using congrFun h.place u

/-- Fields of a thread that do not say where it is. -/
theorem samePlacement_setThread {f : Thread → Thread} (hf : (s.setThread t f).place t = s.place t) :
  SamePlacement s (s.setThread t f)
  := by
  refine ⟨rfl, rfl, rfl, rfl, rfl, funext fun u => ?_⟩
  by_cases hu : u = t
  · rw [hu, hf]
  · simp only [Scheduler.place, setThread_thread, if_neg hu]

theorem samePlacement_setState (state : ThreadState) :
  SamePlacement s (s.setState t state)
  := samePlacement_setThread (by simp [Scheduler.place])

theorem samePlacement_recordDonation :
  SamePlacement s (s.recordDonation t r)
  := by
  have hdonor : SamePlacement s (s.setThread t fun th => { th with pipDonatingTo := some r }) :=
    samePlacement_setThread (by simp [Scheduler.place])
  unfold recordDonation
  apply hdonor.trans
  apply samePlacement_setThread
  simp [Scheduler.place]

/-- A thread in no ready queue gets another priority. -/
theorem boost_of_unqueued (h : (s.thread t).readyQueued = false) (priority : ℕ) :
  s.boost t priority = s.setEffective t priority
  := by
  have hstill : ((s.setEffective t priority).thread t).readyQueued = false := by
    simp [setEffective, h]
  unfold boost
  dsimp only
  split_ifs
  · unfold resortReadyThread removeFromReadyQueue
    simp [hstill]
  · rfl

/-- The priorities of the threads when the receiver has the one of the caller. -/
def donatedPriority (s : Scheduler) (t r u : ObjPtr) : ℕ :=
  if u = r then min (s.thread r).priority (s.thread t).priority else (s.thread u).priority

/-- A donation to a thread that is in no ready queue and donates to nobody. -/
theorem pipDonate_of_unqueued (h : (s.thread r).readyQueued = false)
    (hdonating : (s.thread r).pipDonatingTo = none) (hne : r ≠ t) :
  SamePlacement s (s.pipDonate t r)
    ∧ ∀ u, ((s.pipDonate t r).thread u).priority = s.donatedPriority t r u
  := by
  have hrecord : SamePlacement s (s.recordDonation t r) := samePlacement_recordDonation
  have hpriority : ∀ u, ((s.recordDonation t r).thread u).priority = (s.thread u).priority := by
    intro u
    simp only [recordDonation, setThread_thread]
    split_ifs <;> simp_all
  have hnone : ((s.recordDonation t r).thread r).pipDonatingTo = none := by
    simp [recordDonation, hne, hdonating]
  have hunqueued : ((s.recordDonation t r).thread r).readyQueued = false := by
    rw [(hrecord.thread r).2.2.2, h]
  unfold pipDonate
  split_ifs with hle
  · refine ⟨hrecord, fun u => ?_⟩
    rw [hpriority, donatedPriority]
    split_ifs with hu
    · rw [hu, Nat.min_eq_left hle]
    · rfl
  have hpropagate : propagate (s.thread t).priority maxPipDepth (some r) (s.recordDonation t r) =
      (s.recordDonation t r).setEffective r (s.thread t).priority := by
    rw [← boost_of_unqueued hunqueued]
    unfold maxPipDepth propagate
    rw [hpriority, if_neg hle, hnone]
    rfl
  rw [hpropagate]
  refine ⟨hrecord.trans ?_, fun u => ?_⟩
  · exact samePlacement_setThread (by simp [place])
  simp only [setEffective, setThread_thread, donatedPriority]
  split_ifs with hu
  · rw [Nat.min_eq_right (by omega)]
  · exact hpriority u

/-! ## The choice of the next thread -/

/-- A thread in a ready queue can be chosen to run. -/
def runnable (s : Scheduler) (t : ObjPtr) : Bool :=
  decide ((s.thread t).state = .ready) && (s.findRunningCpu t).isNone && (s.pendingCpu t).isNone

section

variable {s' : Scheduler} (h : SamePlacement s s') (u : ObjPtr)
include h

theorem findRunningCpu_congr :
  s'.findRunningCpu u = s.findRunningCpu u
  := by
  have hruns : s'.runsOn u = s.runsOn u := by
    funext c
    simp only [runsOn, h.current, h.online]
  simp only [findRunningCpu, hruns, h.thread u, h.online]

theorem pendingCpu_congr :
  s'.pendingCpu u = s.pendingCpu u
  := by
  simp only [pendingCpu, h.pending, h.online]

theorem selectTargetCpu_congr :
  s'.selectTargetCpu cpu u = s.selectTargetCpu cpu u
  := by
  simp only [selectTargetCpu, h.thread u, h.online]

end

/-- Leaving a ready queue does not change what can run. -/
theorem unqueue_runnable (s : Scheduler) (cpu : ℕ) (t : ObjPtr) (queue : List ObjPtr) (u : ObjPtr) :
  ((s.setReady cpu queue).unqueue t).runnable u = s.runnable u
  := by
  have hthread : ∀ x, (((s.setReady cpu queue).unqueue t).thread x).state = (s.thread x).state
      ∧ (((s.setReady cpu queue).unqueue t).thread x).runOwner = (s.thread x).runOwner
      ∧ (((s.setReady cpu queue).unqueue t).thread x).lastCpu = (s.thread x).lastCpu := by
    intro x
    simp only [unqueue, setThread_thread]
    split_ifs with hx
    · subst hx
      exact ⟨rfl, rfl, rfl⟩
    · exact ⟨rfl, rfl, rfl⟩
  have hruns : ((s.setReady cpu queue).unqueue t).findRunningCpu u = s.findRunningCpu u := by
    simp only [findRunningCpu, hthread]
    rfl
  unfold runnable
  rw [hruns, (hthread u).1]
  rfl

/-- The first thread of the queue that can run is chosen. -/
theorem pickLocal_find (queue : List ObjPtr) (s : Scheduler) :
  (pickLocal cpu queue s).1 = queue.find? s.runnable
  := by
  induction queue generalizing s with
  | nil => rfl
  | cons x queue ih =>
    have hrun : ((((s.setReady cpu queue).unqueue x).thread x).state = .ready
        ∧ ((s.setReady cpu queue).unqueue x).findRunningCpu x = none
        ∧ ((s.setReady cpu queue).unqueue x).pendingCpu x = none) ↔ s.runnable x = true := by
      rw [← unqueue_runnable s cpu x queue x]
      simp [runnable, and_assoc]
    unfold pickLocal
    rw [List.find?_cons]
    cases hx : s.runnable x with
    | true => rw [if_pos (hrun.mpr hx)]
    | false =>
      rw [if_neg (by rw [hrun, hx]; exact Bool.false_ne_true), ih]
      congr 1
      funext u
      exact unqueue_runnable s cpu x queue u

/-- A thread is inserted behind those whose deadlines are not later. -/
theorem insertByPriority_eq (priority deadline : ObjPtr → ℕ) (queue : List ObjPtr)
    (h : ∀ x ∈ queue, priority x = deadline x) :
  insertByPriority priority t queue = queue.takeWhile (fun x => deadline x ≤ priority t) ++
      t :: queue.dropWhile (fun x => deadline x ≤ priority t)
  := by
  induction queue with
  | nil => rfl
  | cons x queue ih =>
    obtain ⟨hx, hqueue⟩ := List.forall_mem_cons.mp h
    unfold insertByPriority
    rw [hx]
    split_ifs with hlt
    · simp [Nat.not_le.mpr hlt]
    · simp [Nat.not_lt.mp hlt, ih hqueue]

/-! ## The receiver of a call -/

/-- A thread runs on a CPU in user mode, and the flags of the threads say where they are. -/
structure RunsUser (s : Scheduler) (cpu : ℕ) (t : ObjPtr) : Prop where
  online : cpu < s.online
  online_le : s.online ≤ maxCpus
  current : s.current cpu = some t
  running : (s.thread t).state = .running
  not_idle : s.idle cpu ≠ some t
  pending : s.pending cpu = none
  queued : ∀ u ∈ s.ready cpu, (s.thread u).readyQueued = true
  owner_of_current : ∀ c u, c < s.online → s.current c = some u → (s.thread u).runOwner = some c
  owner_of_pending : ∀ c u, c < s.online → s.pending c = some u → (s.thread u).runOwner ≠ none

/-- A thread has been switched out and is in no ready queue; it would be made ready on this CPU. -/
structure Parked (s : Scheduler) (cpu : ℕ) (r : ObjPtr) : Prop where
  owner : (s.thread r).runOwner = none
  unqueued : (s.thread r).readyQueued = false
  target : s.selectTargetCpu cpu r = cpu
  donating : (s.thread r).pipDonatingTo = none

/-- No thread that can run stands in the ready queue before the place of the receiver, which is given
by the earlier of its own deadline and the one of the caller. -/
def FirstInLine (s : Scheduler) (cpu : ℕ) (t r : ObjPtr) : Prop :=
  ∀ u ∈ (s.ready cpu).takeWhile fun u =>
      (s.thread u).priority ≤ min (s.thread r).priority (s.thread t).priority,
    s.runnable u = false

namespace RunsUser

variable (h : s.RunsUser cpu t) (hr : s.Parked cpu r)

include h hr

theorem parked_ne :
  r ≠ t
  := by
  rintro rfl
  have howner := h.owner_of_current cpu r h.online h.current
  rw [hr.owner] at howner
  cases howner

theorem findRunningCpu_parked :
  s.findRunningCpu r = none
  := by
  have hruns : ∀ c, s.runsOn r c = false := by
    intro c
    by_contra hc
    simp only [runsOn, Bool.not_eq_false, Bool.and_eq_true, decide_eq_true_eq, beq_iff_eq] at hc
    have howner := h.owner_of_current c r hc.1 hc.2
    rw [hr.owner] at howner
    cases howner
  simp [findRunningCpu, hruns, hr.owner]

theorem pendingCpu_parked :
  s.pendingCpu r = none
  := by
  unfold pendingCpu
  rw [List.find?_eq_none]
  intro c hc heq
  exact h.owner_of_pending c r (List.mem_range.mp hc) (by simpa using heq) hr.owner

/-- The scheduler before the call is handed over: the caller is blocked, the receiver has its priority
and is ready. -/
theorem handover_placement :
  SamePlacement s (((s.setState t .blocked).pipDonate t r).setState r .ready)
    ∧ (((s.setState t .blocked).pipDonate t r).setState r .ready).states =
      update (update s.states t .blocked) r .ready
    ∧ ∀ u, ((((s.setState t .blocked).pipDonate t r).setState r .ready).thread u).priority =
      s.donatedPriority t r u
  := by
  have hne := h.parked_ne hr
  have hblock : SamePlacement s (s.setState t .blocked) := samePlacement_setState _
  have hthread : (s.setState t .blocked).thread r = s.thread r := by simp [setState, hne]
  have hpriority : ∀ u, ((s.setState t .blocked).thread u).priority = (s.thread u).priority := by
    intro u
    simp only [setState, setThread_thread]
    split_ifs with hu
    · rw [hu]
    · rfl
  obtain ⟨hdonate, hmin⟩ := pipDonate_of_unqueued (s := s.setState t .blocked)
    (hthread ▸ hr.unqueued) (hthread ▸ hr.donating) hne
  refine ⟨(hblock.trans hdonate).trans (samePlacement_setState _), by simp, fun u => ?_⟩
  simp only [donatedPriority, hpriority] at hmin ⊢
  rw [← hmin u]
  simp only [setState, setThread_thread]
  split_ifs with hu
  · rw [hu]
  · rfl

omit h hr in
/-- A parked thread that is made ready goes to the queue of the CPU. -/
theorem enqueue_parked (hrunning : s.findRunningCpu r = none) (hpending : s.pendingCpu r = none)
    (hunqueued : (s.thread r).readyQueued = false) (htarget : s.selectTargetCpu cpu r = cpu) :
  s.enqueue cpu r = (s.setState r .ready).insertSorted cpu r
  := by
  unfold enqueue
  rw [hrunning]
  unfold enqueueOffCpu
  simp [hpending, hunqueued, htarget]

omit h hr in
/-- A blocked thread is switched out. -/
theorem reschedule_states_of_blocked (hpending : s.pending cpu = none) (hcurrent : s.current cpu = some t)
    (hidle : s.idle cpu ≠ some t) (hblocked : s.states t = .blocked) :
  (s.reschedule cpu).states = ((s.setPending cpu (some t)).schedule cpu).2.states
  := by
  have hprocess : s.processPendingEnqueue cpu = s := by
    unfold processPendingEnqueue
    rw [hpending]
  have hout : s.switchOut cpu = s.setPending cpu (some t) := by
    unfold switchOut
    simp only [states] at hblocked
    simp only [hcurrent, if_neg hidle, hblocked, trackPendingSwitchOut, hpending, releaseDisplaced]
  unfold reschedule
  rw [hprocess, hout]
  dsimp only
  split
  · rename_i new s' heq
    rw [heq]
    split_ifs
    · rfl
    · rw [setCurrent_states]
  · rename_i s' heq
    rw [heq]

omit h hr in
/-- Entering a ready queue, and the deferred slot of the CPU, does not change what else can run. -/
theorem runnable_insertSorted (hpending : s.pending cpu = none) (hblocked : s.states t = .blocked)
    (u : ObjPtr) :
  ((s.insertSorted cpu r).setPending cpu (some t)).runnable u = s.runnable u
  := by
  have hthread : ∀ x, ((s.insertSorted cpu r).thread x).state = (s.thread x).state
      ∧ ((s.insertSorted cpu r).thread x).runOwner = (s.thread x).runOwner
      ∧ ((s.insertSorted cpu r).thread x).lastCpu = (s.thread x).lastCpu := by
    intro x
    simp only [insertSorted, setReady, setThread_thread]
    split_ifs with hx
    · subst hx
      exact ⟨rfl, rfl, rfl⟩
    · exact ⟨rfl, rfl, rfl⟩
  have hruns : ((s.insertSorted cpu r).setPending cpu (some t)).findRunningCpu u = s.findRunningCpu u := by
    simp only [findRunningCpu, setPending, hthread]
    rfl
  have hstate : (((s.insertSorted cpu r).setPending cpu (some t)).thread u).state = (s.thread u).state :=
    (hthread u).1
  unfold runnable
  rw [hruns, hstate]
  obtain rfl | hut := eq_or_ne u t
  · simp only [states] at hblocked
    simp [hblocked]
  have hslot : ((s.insertSorted cpu r).setPending cpu (some t)).pendingCpu u = s.pendingCpu u := by
    unfold pendingCpu
    congr 1
    funext c
    simp only [setPending, insertSorted, setReady, setThread, update_apply]
    split_ifs with hc
    · rw [hc, hpending]
      simp [hut.symm]
    · rfl
  rw [hslot]

/-- What the scheduler can choose from when the caller is on its way off the CPU. -/
theorem handover_schedule :
  ∃ m : Scheduler,
    (((((s.setState t .blocked).pipDonate t r).setState r .ready).enqueue cpu r).reschedule cpu).states
      = (m.schedule cpu).2.states
    ∧ m.states = update (update s.states t .blocked) r .ready
    ∧ m.ready cpu = insertByPriority (s.donatedPriority t r) r (s.ready cpu)
    ∧ ∀ u, m.runnable u = (decide (u = r) || s.runnable u)
  := by
  obtain ⟨hplace, hstates, hpriority⟩ := h.handover_placement hr
  generalize hk : ((s.setState t .blocked).pipDonate t r).setState r .ready = k at *
  have hready : k.setState r .ready = k := by
    rw [← hk]
    simp [setState, setThread]
  have henqueue : k.enqueue cpu r = k.insertSorted cpu r := by
    rw [enqueue_parked, hready]
    · rw [findRunningCpu_congr hplace, h.findRunningCpu_parked hr]
    · rw [pendingCpu_congr hplace, h.pendingCpu_parked hr]
    · rw [(hplace.thread r).2.2.2, hr.unqueued]
    · rw [selectTargetCpu_congr hplace, hr.target]
  have hblocked : k.states t = .blocked := by
    rw [hstates]
    simp [(h.parked_ne hr).symm]
  have hpending : k.pending cpu = none := by rw [hplace.pending, h.pending]
  refine ⟨(k.insertSorted cpu r).setPending cpu (some t), ?_, ?_, ?_, fun u => ?_⟩
  · rw [henqueue]
    apply reschedule_states_of_blocked
    · exact hpending
    · rw [← h.current, ← hplace.current]
      rfl
    · rw [show (k.insertSorted cpu r).idle = s.idle from hplace.idle]
      exact h.not_idle
    · rw [insertSorted_states, hblocked]
  · rw [setPending_states, insertSorted_states, hstates]
  · rw [← hplace.ready]
    simp only [insertSorted, setPending, setReady, update_self]
    congr 1
    funext u
    rw [← hpriority u, setThread_thread]
    split_ifs with hu
    · rw [hu]
    · rfl
  · rw [runnable_insertSorted hpending hblocked]
    unfold runnable
    rw [findRunningCpu_congr hplace, pendingCpu_congr hplace]
    have hstate := congrFun hstates u
    unfold states at hstate
    rw [hstate]
    obtain rfl | hur := eq_or_ne u r
    · simp [h.findRunningCpu_parked hr, h.pendingCpu_parked hr]
    obtain rfl | hut := eq_or_ne u t
    · simp [hur, h.running]
    · simp [hur, hut]

/-- The scheduler runs the receiver exactly if it is the first in line. -/
theorem handover_states_iff :
  (((((s.setState t .blocked).pipDonate t r).setState r .ready).enqueue cpu r).reschedule cpu).states =
      update (update s.states t .blocked) r .running
    ↔ s.FirstInLine cpu t r
  := by
  obtain ⟨m, hstates, hm, hready, hrun⟩ := h.handover_schedule hr
  have hnotin : r ∉ s.ready cpu := by
    intro hmem
    have hqueued := h.queued r hmem
    rw [hr.unqueued] at hqueued
    cases hqueued
  have hqueue := insertByPriority_eq (t := r) (s.donatedPriority t r) (fun u => (s.thread u).priority)
    (s.ready cpu) fun u hu => if_neg (ne_of_mem_of_not_mem hu hnotin)
  have hplace : s.donatedPriority t r r = min (s.thread r).priority (s.thread t).priority := if_pos rfl
  rw [hplace] at hqueue
  generalize hl : ((s.ready cpu).takeWhile fun u =>
    (s.thread u).priority ≤ min (s.thread r).priority (s.thread t).priority) = l at hqueue
  have hmem : ∀ u ∈ l, u ≠ r := by
    intro u hu
    rw [← hl] at hu
    exact ne_of_mem_of_not_mem ((List.takeWhile_sublist _).subset hu) hnotin
  have hfind : (pickLocal cpu (m.ready cpu) m).1 = some ((l.find? s.runnable).getD r) := by
    have hsame : l.find? m.runnable = l.find? s.runnable := by
      apply List.find?_congr
      intro u hu
      simp [hrun, hmem u hu]
    rw [pickLocal_find, hready, hqueue, List.find?_append, hsame, List.find?_cons, hrun]
    cases l.find? s.runnable with
    | none => simp
    | some u => simp
  have hchosen : (m.schedule cpu).2.states =
      update m.states ((l.find? s.runnable).getD r) .running := by
    have hpick := m.pickLocal_states cpu (m.ready cpu)
    unfold schedule
    split
    · rename_i u s' heq
      rw [heq] at hfind hpick
      cases hfind
      exact hpick.2
    · rename_i s' heq
      rw [heq] at hfind
      cases hfind
  rw [hstates, hchosen, hm]
  unfold FirstInLine
  rw [hl]
  constructor
  · intro heq
    have hr' := congrFun heq r
    cases hfirst : l.find? s.runnable with
    | none =>
      intro u hu
      simpa using List.find?_eq_none.mp hfirst u hu
    | some u =>
      have hur := hmem u (List.mem_of_find?_eq_some hfirst)
      rw [hfirst] at hr'
      simp [hur.symm] at hr'
  · intro hfirst
    have hnone : l.find? s.runnable = none := by
      rw [List.find?_eq_none]
      intro u hu
      simp [hfirst u hu]
    rw [hnone]
    simp

end RunsUser

end Scheduler

end SaltyOS
