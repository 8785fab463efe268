import SaltyOS.Ipc.Wait
import SaltyOS.Lib.Prog
import SaltyOS.Sched.States

/-!
# Waiting for a notification

The threads that signal, wait for and poll one notification. Signalling and waiting hold the lock of the
notification. Bits are taken by an atomic exchange, which needs no lock; a thread that was blocked takes
them when it runs again. So a step is a critical section or an exchange. An exchange inside of a critical
section could as well come after it, since it does not concern the waiter. Without a waiter a signal may
wake the thread that is bound to the notification, which does not change the bits either.

The history of a notification are the bits that were signalled and the bits that waits and polls returned
to their callers. The last section says that this is what the whole system does to one notification.
-/

namespace SaltyOS.Ipc

open Function

/-- Where a thread is in `wait`: outside, blocked, or woken and about to take the bits. -/
inductive WaitPhase where
  | outside
  | blocked
  | woken
  deriving DecidableEq

/-- What the callers see: bits are signalled, and bits are returned by a wait or a poll. -/
inductive NotificationEvent where
  | signalled (bits : BitVec 64)
  | returned (bits : BitVec 64)
  deriving DecidableEq

/-- A notification and the threads that wait for it, with its history, the latest event first. -/
structure Waiters where
  bits : BitVec 64
  waiting : Option ObjPtr
  phase : ObjPtr → WaitPhase
  events : List NotificationEvent

namespace Waiters

/-- A notification that has not been used. -/
def new : Waiters :=
  { bits := 0, waiting := none, phase := fun _ => .outside, events := [] }

variable (s : Waiters)

/-- Take the pending bits. -/
def swap : BitVec 64 × Waiters := (s.bits, { s with bits := 0 })

/-- `signal` -/
def signal (bits : BitVec 64) : Waiters :=
  let s := { s with bits := s.bits ||| bits }
  match s.waiting with
  | some waiter => { s with waiting := none, phase := update s.phase waiter .woken }
  | none => s

/-- `wait`, up to where the thread returns or blocks. A thread that blocks has no result yet. -/
def wait (t : ObjPtr) : Option (BitVec 64) × Waiters :=
  let (bits, s) := s.swap
  if bits ≠ 0 then (some bits, s)
  else (none, { s with waiting := some t, phase := update s.phase t .blocked })

/-- The end of `wait` for a thread that was blocked. -/
def resumeWait (t : ObjPtr) : BitVec 64 × Waiters :=
  let (bits, s) := s.swap
  (bits, { s with phase := update s.phase t .outside })

/-- `poll` -/
def poll : Option (BitVec 64) × Waiters :=
  let (bits, s) := s.swap
  (if bits ≠ 0 then some bits else none, s)

/-- Record what a step has returned, if anything. -/
def record (step : Option (BitVec 64) × Waiters) : Waiters :=
  match step with
  | (some bits, s) => { s with events := .returned bits :: s.events }
  | (none, s) => s

end Waiters

/-- The steps of the threads. -/
inductive NotificationOp where
  | signal (bits : BitVec 64)
  | wait (t : ObjPtr)
  | resumeWait (t : ObjPtr)
  | poll

namespace NotificationOp

/-- Run a step. -/
def exec : NotificationOp → Waiters → Waiters
  | signal bits, s => { s.signal bits with events := .signalled bits :: s.events }
  | wait t, s => .record (s.wait t)
  | resumeWait t, s => .record ((s.resumeWait t).map some id)
  | poll, s => .record s.poll

/-- The step fits where the thread is. -/
def Fits : NotificationOp → Waiters → Prop
  | wait t, s => s.phase t = .outside
  | resumeWait t, s => s.phase t = .woken
  | _, _ => True

/-- Bits are signalled to a waiter only if there are some, and nobody waits or polls while another thread
is blocked or has been woken and has not taken the bits yet. -/
def Careful : NotificationOp → Waiters → Prop
  | signal bits, s => bits ≠ 0 ∨ s.waiting = none
  | wait _, s => s.waiting = none ∧ ∀ t, s.phase t ≠ .woken
  | resumeWait _, _ => True
  | poll, s => ∀ t, s.phase t ≠ .woken

end NotificationOp

/-- A step that meets a condition. -/
def NotificationStep (C : NotificationOp → Waiters → Prop) (s s' : Waiters) : Prop :=
  ∃ op : NotificationOp, op.Fits s ∧ C op s ∧ s' = op.exec s

/-- The runs whose steps all meet a condition. -/
def NotificationRun (C : NotificationOp → Waiters → Prop) : Waiters → Prop :=
  Relation.ReflTransGen (NotificationStep C) Waiters.new

theorem NotificationRun.exec {C : NotificationOp → Waiters → Prop} {s : Waiters}
    (h : NotificationRun C s) (op : NotificationOp) (hfits : op.Fits s) (hC : C op s) :
  NotificationRun C (op.exec s)
  := by
  exact h.tail ⟨op, hfits, hC, rfl⟩

/-! ## Histories -/

namespace NotificationEvent

/-- The bits that have been signalled since bits were returned last. -/
def pending : List NotificationEvent → BitVec 64
  | [] => 0
  | signalled bits :: events => pending events ||| bits
  | returned _ :: _ => 0

/-- Whatever was returned are the bits that had been signalled since bits were returned before. -/
def Exact : List NotificationEvent → Prop
  | [] => True
  | signalled _ :: events => Exact events
  | returned bits :: events => bits = pending events ∧ Exact events

/-- How often a bit has become pending. -/
def raised (i : ℕ) : List NotificationEvent → ℕ
  | [] => 0
  | signalled bits :: events =>
    raised i events + (bits.getLsbD i && !(pending events).getLsbD i).toNat
  | returned _ :: events => raised i events

/-- How often a bit has been returned. -/
def received (i : ℕ) : List NotificationEvent → ℕ
  | [] => 0
  | signalled _ :: events => received i events
  | returned bits :: events => received i events + (bits.getLsbD i).toNat

/-- In an exact history every bit has been returned as often as it became pending, unless it still is. -/
theorem Exact.raised_eq {events : List NotificationEvent} (h : Exact events) (i : ℕ) :
  raised i events = received i events + ((pending events).getLsbD i).toNat
  := by
  induction events with
  | nil => simp [raised, received, pending]
  | cons event events ih =>
    cases event with
    | signalled bits =>
      have hi := ih h
      simp only [raised, received, pending, BitVec.getLsbD_or]
      cases hb : bits.getLsbD i <;> cases hp : (pending events).getLsbD i <;> simp_all
    | returned bits =>
      obtain ⟨rfl, hexact⟩ := h
      simpa [raised, received, pending] using ih hexact

end NotificationEvent

namespace Waiters

open NotificationEvent

variable {s s' : Waiters}

/-- What is pending and what has been returned are what the history says. -/
structure Faithful (s : Waiters) : Prop where
  exact : Exact s.events
  bits : s.bits = pending s.events

/-- A wait that finds bits returns them. -/
theorem exec_wait_of_ne (h : s.bits ≠ 0) (t : ObjPtr) :
  (NotificationOp.wait t).exec s = { s with bits := 0, events := .returned s.bits :: s.events }
  := by
  unfold NotificationOp.exec wait swap
  dsimp only
  rw [if_pos h]
  rfl

/-- A wait that finds no bits blocks. -/
theorem exec_wait_of_eq (h : s.bits = 0) (t : ObjPtr) :
  (NotificationOp.wait t).exec s = { s with waiting := some t, phase := update s.phase t .blocked }
  := by
  simp [NotificationOp.exec, wait, swap, record, h]

/-- A poll that finds bits returns them. -/
theorem exec_poll_of_ne (h : s.bits ≠ 0) :
  NotificationOp.poll.exec s = { s with bits := 0, events := .returned s.bits :: s.events }
  := by
  unfold NotificationOp.exec poll swap
  dsimp only
  rw [if_pos h]
  rfl

/-- A poll that finds no bits changes nothing. -/
theorem exec_poll_of_eq (h : s.bits = 0) :
  NotificationOp.poll.exec s = s
  := by
  simp [NotificationOp.exec, poll, swap, record, ← h]

/-- All pending bits are returned. -/
theorem Faithful.returned (h : s.Faithful) (hevents : s'.events = .returned s.bits :: s.events)
    (hbits : s'.bits = 0) :
  s'.Faithful
  := by
  constructor
  · rw [hevents]
    exact ⟨h.bits, h.exact⟩
  · rw [hevents, hbits]
    rfl

/-- Every step keeps the history faithful, careful or not. -/
theorem Faithful.exec (h : s.Faithful) (op : NotificationOp) :
  (op.exec s).Faithful
  := by
  cases op with
  | signal bits =>
    refine ⟨h.exact, ?_⟩
    change (s.signal bits).bits = pending s.events ||| bits
    rw [← h.bits]
    unfold signal
    dsimp only
    split <;> rfl
  | wait t =>
    obtain hbits | hbits := eq_or_ne s.bits 0
    · rw [exec_wait_of_eq hbits]
      exact ⟨h.exact, h.bits⟩
    · rw [exec_wait_of_ne hbits]
      exact h.returned rfl rfl
  | resumeWait t => exact h.returned rfl rfl
  | poll =>
    obtain hbits | hbits := eq_or_ne s.bits 0
    · rw [exec_poll_of_eq hbits]
      exact h
    · rw [exec_poll_of_ne hbits]
      exact h.returned rfl rfl

theorem faithful_new :
  new.Faithful
  := ⟨trivial, rfl⟩

/-- In every run, careful or not, a wait or a poll returns the bits that have been signalled since bits
were returned before, all of them and no others; and the bits signalled since then are pending. -/
theorem returned_of_run (ops : List NotificationOp) :
  let s := ops.foldl (fun s op => op.exec s) new
  Exact s.events ∧ s.bits = pending s.events
  := by
  have hfaithful : (ops.foldl (fun s op => op.exec s) new).Faithful :=
    List.foldlRecOn ops _ faithful_new fun _ hs op _ => hs.exec op
  exact ⟨hfaithful.exact, hfaithful.bits⟩

/-! ## Careful runs -/

/-- No bit and no waiter is lost: a blocked thread is the registered waiter, a bit has been returned as
often as it has become pending unless it still is, and no wait has returned nothing. -/
structure Sound (s : Waiters) : Prop where
  registered : ∀ t, s.phase t = .blocked → s.waiting = some t
  conserved : ∀ i, raised i s.events = received i s.events + (s.bits.getLsbD i).toNat
  nonzero : .returned 0 ∉ s.events

/-- No thread is in `wait`. -/
def nobody : ObjPtr → WaitPhase := fun _ => .outside

/-- Who is in `wait` in a careful run: nobody, the registered waiter, or a thread that was woken and for
which there are bits. -/
inductive Occupied (s : Waiters) : Prop
  | free (hwaiting : s.waiting = none) (hphase : s.phase = nobody)
  | blocked (t : ObjPtr) (hwaiting : s.waiting = some t) (hphase : s.phase = update nobody t .blocked)
  | woken (t : ObjPtr) (hwaiting : s.waiting = none)
      (hphase : s.phase = update nobody t .woken) (hbits : s.bits ≠ 0)

theorem Occupied.registered (h : s.Occupied) (t : ObjPtr) (ht : s.phase t = .blocked) :
  s.waiting = some t
  := by
  obtain ⟨-, hphase⟩ | ⟨u, hwaiting, hphase⟩ | ⟨u, -, hphase, -⟩ := h
  · cases ht.symm.trans (congrFun hphase t)
  · rw [hwaiting]
    by_contra hne
    rw [hphase, update_of_ne fun heq => hne (congrArg some heq.symm)] at ht
    cases ht
  · rw [hphase, update_apply] at ht
    split_ifs at ht
    cases ht

/-- A woken thread is the only one in `wait`, and there are bits for it. -/
theorem Occupied.of_woken (h : s.Occupied) {t : ObjPtr} (ht : s.phase t = .woken) :
  s.waiting = none ∧ s.phase = update nobody t .woken ∧ s.bits ≠ 0
  := by
  obtain ⟨-, hphase⟩ | ⟨u, -, hphase⟩ | ⟨u, hwaiting, hphase, hbits⟩ := h
  · cases ht.symm.trans (congrFun hphase t)
  all_goals rw [hphase, update_apply] at ht; split_ifs at ht with heq <;> cases ht
  subst heq
  exact ⟨hwaiting, hphase, hbits⟩

/-- If nobody is woken and nobody is registered then nobody is in `wait`. -/
theorem Occupied.phase_eq (h : s.Occupied) (hwaiting : s.waiting = none)
    (hwoken : ∀ t, s.phase t ≠ .woken) :
  s.phase = nobody
  := by
  obtain ⟨-, hphase⟩ | ⟨u, hsome, -⟩ | ⟨u, -, hphase, -⟩ := h
  · exact hphase
  · cases hwaiting.symm.trans hsome
  · exact absurd (by rw [hphase, update_self]) (hwoken u)

/-- A careful step keeps the invariant. -/
theorem Occupied.step (h : s.Occupied) {op : NotificationOp} (hfits : op.Fits s)
    (hcareful : op.Careful s) :
  (op.exec s).Occupied
  := by
  cases op with
  | signal bits =>
    obtain ⟨hwaiting, hphase⟩ | ⟨t, hwaiting, hphase⟩ | ⟨t, hwaiting, hphase, hbits⟩ := h
    · exact .free (by simp only [NotificationOp.exec, signal, hwaiting])
        (by simp only [NotificationOp.exec, signal, hwaiting, hphase])
    · have hbits : bits ≠ 0 := hcareful.resolve_right (by simp [hwaiting])
      refine .woken t ?_ ?_ ?_ <;> simp only [NotificationOp.exec, signal, hwaiting]
      · rw [hphase, update_idem]
      · exact fun h0 => hbits (BitVec.or_eq_zero_iff.mp h0).2
    · refine .woken t ?_ ?_ ?_ <;> simp only [NotificationOp.exec, signal, hwaiting]
      · exact hphase
      · exact fun h0 => hbits (BitVec.or_eq_zero_iff.mp h0).1
  | wait t =>
    obtain ⟨hwaiting, hwoken⟩ := hcareful
    have hphase := h.phase_eq hwaiting hwoken
    obtain hbits | hbits := eq_or_ne s.bits 0
    · rw [exec_wait_of_eq hbits]
      exact .blocked t rfl (congrArg (update · t _) hphase)
    · rw [exec_wait_of_ne hbits]
      exact .free hwaiting hphase
  | resumeWait t =>
    obtain ⟨hwaiting, hphase, -⟩ := h.of_woken hfits
    refine .free hwaiting ?_
    change update s.phase t .outside = nobody
    rw [hphase, update_idem]
    exact update_eq_self t nobody
  | poll =>
    obtain hbits | hbits := eq_or_ne s.bits 0
    · rwa [exec_poll_of_eq hbits]
    rw [exec_poll_of_ne hbits]
    obtain ⟨hwaiting, hphase⟩ | ⟨t, hwaiting, hphase⟩ | ⟨t, -, hphase, -⟩ := h
    · exact .free hwaiting hphase
    · exact .blocked t hwaiting hphase
    · exact absurd (by rw [hphase, update_self]) (hcareful t)

/-- A wait returns nothing only if there are no bits when the thread runs again. -/
theorem nonzero_exec (h : s.Occupied) (hnonzero : .returned 0 ∉ s.events) {op : NotificationOp}
    (hfits : op.Fits s) :
  .returned 0 ∉ (op.exec s).events
  := by
  have hreturned : s.bits ≠ 0 → .returned 0 ∉ NotificationEvent.returned s.bits :: s.events := by
    intro hbits hmem
    obtain heq | hmem := List.mem_cons.mp hmem
    · exact hbits (NotificationEvent.returned.inj heq).symm
    · exact hnonzero hmem
  cases op with
  | signal bits =>
    change _ ∉ NotificationEvent.signalled bits :: s.events
    simpa using hnonzero
  | wait t =>
    obtain hbits | hbits := eq_or_ne s.bits 0
    · rwa [exec_wait_of_eq hbits]
    · rw [exec_wait_of_ne hbits]
      exact hreturned hbits
  | resumeWait t => exact hreturned (h.of_woken hfits).2.2
  | poll =>
    obtain hbits | hbits := eq_or_ne s.bits 0
    · rwa [exec_poll_of_eq hbits]
    · rw [exec_poll_of_ne hbits]
      exact hreturned hbits

/-- A careful run of any number of threads loses neither bits nor waiters. -/
theorem sound_of_careful (h : NotificationRun NotificationOp.Careful s) :
  s.Sound
  := by
  have hinv : s.Occupied ∧ s.Faithful ∧ .returned 0 ∉ s.events := by
    refine invariant_of_run (I := fun s => s.Occupied ∧ s.Faithful ∧ .returned 0 ∉ s.events) ?_ ?_ h
    · rintro s s' ⟨hoccupied, hfaithful, hnonzero⟩ ⟨op, hfits, hcareful, rfl⟩
      exact ⟨hoccupied.step hfits hcareful, hfaithful.exec op, nonzero_exec hoccupied hnonzero hfits⟩
    · exact ⟨.free rfl rfl, faithful_new, List.not_mem_nil⟩
  obtain ⟨hoccupied, hfaithful, hnonzero⟩ := hinv
  refine ⟨hoccupied.registered, fun i => ?_, hnonzero⟩
  rw [hfaithful.bits]
  exact hfaithful.exact.raised_eq i

/-- The thread `1` waits, is signalled twice and takes the bits. -/
theorem sound_of_careful_signal :
  ∃ s : Waiters, s.Sound ∧ s.events = [.returned 7, .signalled 3, .signalled 5]
  := by
  have hnew : NotificationRun NotificationOp.Careful new := .refl
  have hwait := hnew.exec (.wait (.static 1)) rfl ⟨rfl, fun _ => WaitPhase.noConfusion⟩
  have hsignal := hwait.exec (.signal 5) trivial (.inl (by decide))
  have hagain := hsignal.exec (.signal 3) trivial (.inl (by decide))
  exact ⟨_, sound_of_careful (hagain.exec (.resumeWait (.static 1)) rfl trivial), by decide⟩

/-- A second waiter takes the place of the first, which stays blocked; and a poll before the woken thread
runs leaves nothing for it. -/
theorem waiter_and_bits_lost :
  ∃ s s', NotificationRun (fun _ _ => True) s ∧ NotificationRun (fun _ _ => True) s' ∧
    s.phase (.static 1) = .blocked ∧ s.waiting = some (.static 2) ∧ .returned 0 ∈ s'.events
  := by
  have hnew : NotificationRun (fun _ _ => True) new := .refl
  have hwait := hnew.exec (.wait (.static 1)) rfl trivial
  have hpoll := (hwait.exec (.signal 5) trivial trivial).exec .poll trivial trivial
  exact ⟨_, _, hwait.exec (.wait (.static 2)) rfl trivial,
    hpoll.exec (.resumeWait (.static 1)) rfl trivial, rfl, rfl, by decide⟩

end Waiters

/-! ## One notification of the system -/

namespace System

variable (s : System) (n : ObjPtr) (events : List NotificationEvent)

/-- Where a thread of the system is in `wait` for a notification. -/
def waitPhase (t : ObjPtr) : WaitPhase :=
  if s.kont t ≠ .await (.notification n) then .outside
  else if s.state t = .blocked then .blocked
  else .woken

/-- A notification of the system and the threads that wait for it. -/
def waiters : Waiters :=
  { bits := .ofNat 64 (s.notification n).bits
    waiting := (s.notification n).waiting
    phase := s.waitPhase n
    events }

variable {s n} {s' : System} {t : ObjPtr}

/-- One thread changes. -/
theorem waitPhase_update {phase : WaitPhase} (ht : s'.waitPhase n t = phase)
    (hne : ∀ u ≠ t, s'.kont u = s.kont u ∧ s'.state u = s.state u) :
  s'.waitPhase n = update (s.waitPhase n) t phase
  := by
  funext u
  obtain rfl | hu := eq_or_ne u t
  · rw [update_self, ht]
  · rw [update_of_ne hu]
    simp only [waitPhase, hne u hu]

/-- Waking a thread that waits for nothing else. -/
theorem states_wake (s : Scheduler) (cpu : ℕ) (w : ObjPtr) :
  ((s.setState w .ready).enqueue cpu w).states = update s.states w .ready
  := by
  rw [Scheduler.enqueue_states_of_ready, Scheduler.setState_states]
  rw [Scheduler.setState_states, update_self]

/-- A signal without a waiter moves no thread that waits for the notification. -/
theorem signalBound_waitPhase (s : System) (cpu : ℕ) (hk : s.kont t ≠ .await (.notification n)) :
  (s.signalBound cpu n t).waitPhase n = s.waitPhase n
  := by
  unfold signalBound
  split_ifs
  · have hstates : ((s.pipCleanup t).wakeByNotification cpu t).sched.states
        = update s.sched.states t .ready := by
      change (((s.sched.pipCleanup t).setState t .ready).enqueue cpu t).states = _
      rw [states_wake, Scheduler.pipCleanup_states]
    funext u
    obtain rfl | hu := eq_or_ne u t
    · exact (if_pos hk).trans (if_pos hk).symm
    · have hstate : ((s.pipCleanup t).wakeByNotification cpu t).state u = s.state u := by
        refine (congrFun hstates u).trans ?_
        rw [update_of_ne hu]
        rfl
      unfold waitPhase
      rw [hstate]
      rfl
  · split <;> rfl

/-- What a signal does to the notification. -/
theorem signal_notification (s : System) (cpu : ℕ) (n : ObjPtr) (bits : ℕ) :
  (s.signal cpu n bits).notification n =
    { s.notification n with bits := (s.notification n).bits ||| bits, waiting := none }
  := by
  unfold signal
  dsimp only
  split
  · simp [setNotification, setTcb, setState, enqueue]
  rename_i hnone
  have hwaiting : (s.notification n).waiting = none := by simpa [setNotification] using hnone
  have hself : (s.setNotification n fun ntfn => { ntfn with bits := ntfn.bits ||| bits }).notification n
      = { s.notification n with bits := (s.notification n).bits ||| bits, waiting := none } := by
    simp [setNotification, ← hwaiting]
  split
  · exact hself
  unfold signalBound
  split_ifs
  · exact hself
  · split <;> exact hself

/-- A signal does to one notification of the system what `signal` says. The bound thread is not waiting
for the notification itself. -/
theorem waiters_signal (cpu bits : ℕ)
    (hw : ∀ w, (s.notification n).waiting = some w → s.kont w = .await (.notification n))
    (hb : ∀ t, (s.notification n).boundTcb = some t → s.kont t ≠ .await (.notification n)) :
  (s.signal cpu n bits).waiters n events = (s.waiters n events).signal (.ofNat 64 bits)
  := by
  have hor : BitVec.ofNat 64 ((s.notification n).bits ||| bits)
      = BitVec.ofNat 64 (s.notification n).bits ||| .ofNat 64 bits := BitVec.ofNat_or ..
  cases hcase : (s.notification n).waiting with
  | some w =>
    have hstates : (s.signal cpu n bits).sched.states = update s.sched.states w .ready := by
      unfold signal
      simp only [setNotification, update_self, hcase]
      exact states_wake s.sched cpu w
    have hkont : (s.signal cpu n bits).kont = s.kont := by
      unfold signal
      simp only [setNotification, update_self, hcase]
      rfl
    have hphase : (s.signal cpu n bits).waitPhase n = update (s.waitPhase n) w .woken := by
      apply waitPhase_update
      · have hstate : (s.signal cpu n bits).state w = .ready :=
          (congrFun hstates w).trans (update_self ..)
        simp [waitPhase, hkont, hw w hcase, hstate]
      · intro u hu
        exact ⟨congrFun hkont u, (congrFun hstates u).trans (update_of_ne hu ..)⟩
    simp only [waiters, Waiters.signal, hcase, signal_notification, hor, hphase]
  | none =>
    have hphase : (s.signal cpu n bits).waitPhase n = s.waitPhase n := by
      unfold signal
      simp only [setNotification, update_self, hcase]
      split
      · rfl
      next t hbound => exact signalBound_waitPhase _ cpu (hb t hbound)
    simp only [waiters, Waiters.signal, hcase, signal_notification, hor, hphase]

/-- A thread returns with the bits. -/
theorem waiters_ret (s : System) (t n : ObjPtr) :
  ((s.setNotification n fun ntfn => { ntfn with bits := 0 }).ret t .empty (s.notification n).bits
    0).waiters n events = ((s.waiters n events).resumeWait t).2
  := by
  have hphase : ((s.setNotification n fun ntfn => { ntfn with bits := 0 }).ret t .empty
      (s.notification n).bits 0).waitPhase n = update (s.waitPhase n) t .outside := by
    apply waitPhase_update
    · simp [waitPhase, ret, setKont]
    · intro u hu
      exact ⟨update_of_ne hu .., rfl⟩
  simp only [waiters, hphase, Waiters.resumeWait, Waiters.swap]
  simp [ret, setNotification, setKont]

/-- The bits of a notification are the word that the threads see. -/
theorem toNat_bits (h : (s.notification n).bits < 2 ^ 64) :
  (s.waiters n events).bits.toNat = (s.notification n).bits
  := (BitVec.toNat_ofNat ..).trans (Nat.mod_eq_of_lt h)

/-- A wait does to one notification of the system what `wait` says, and returns the same bits. -/
theorem waiters_notificationWait (hbits : (s.notification n).bits < 2 ^ 64) (hk : s.kont t = .user) :
  (s.notificationWait t n).waiters n events = ((s.waiters n events).wait t).2
    ∧ ∀ bits, ((s.waiters n events).wait t).1 = some bits →
      (s.notificationWait t n).returned t = (.empty, bits.toNat, 0)
  := by
  have houtside : s.waitPhase n t = .outside := by simp [waitPhase, hk]
  by_cases hzero : (s.waiters n events).bits = 0
  · have hwait : (s.waiters n events).wait t = (none, { s.waiters n events with
        bits := 0, waiting := some t, phase := update (s.waitPhase n) t .blocked }) :=
      if_neg (not_not.mpr hzero)
    have hnone : (s.notification n).bits = 0 := by
      rw [← toNat_bits events hbits, hzero]
      rfl
    have hphase : (s.notificationWait t n).waitPhase n = update (s.waitPhase n) t .blocked := by
      simp only [notificationWait, hnone, ne_eq, not_true_eq_false, if_false]
      apply waitPhase_update
      · simp [waitPhase, setKont, block, setState, setTcb, state, Scheduler.setState]
      · intro u hu
        refine ⟨update_of_ne hu .., ?_⟩
        exact congrArg Thread.state (update_of_ne hu ..)
    rw [hwait]
    refine ⟨?_, by rintro _ ⟨⟩⟩
    simp only [waiters, hphase]
    simp [notificationWait, hnone, setNotification, setKont, block, setState, setTcb]
  · have hwait : (s.waiters n events).wait t
        = (some (s.waiters n events).bits, { s.waiters n events with bits := 0 }) := if_pos hzero
    have hsome : (s.notification n).bits ≠ 0 := by
      intro hnone
      apply hzero
      simp [waiters, hnone]
    rw [hwait]
    simp only [notificationWait, if_pos hsome]
    constructor
    · rw [waiters_ret]
      simp only [Waiters.resumeWait, Waiters.swap]
      congr 1
      rw [update_eq_self_iff]
      exact houtside.symm
    · rintro _ ⟨⟩
      rw [toNat_bits events hbits]
      exact update_self ..

/-- A thread that runs again after a wait does to the notification what the end of `wait` says, and
returns the same bits. -/
theorem waiters_resume (hbits : (s.notification n).bits < 2 ^ 64) :
  (s.resume t (.notification n)).waiters n events = ((s.waiters n events).resumeWait t).2
    ∧ (s.resume t (.notification n)).returned t =
      (.empty, ((s.waiters n events).resumeWait t).1.toNat, 0)
  := by
  use waiters_ret events s t n
  change _ = (_, (s.waiters n events).bits.toNat, 0)
  rw [toNat_bits events hbits]
  exact update_self ..

end System

end SaltyOS.Ipc
