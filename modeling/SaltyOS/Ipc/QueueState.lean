import SaltyOS.Ipc.Senders
import SaltyOS.Lib.Prog

/-!
# The queues and the state of an endpoint

An operation that transfers capabilities recomputes the state of the endpoint from what it saw of the
queue before it released the lock. In every run in which nobody takes the lock in between, the queues of
all endpoints fit their states and every blocked sender is in a queue. If a second sender takes the lock it
is forgotten in an idle endpoint.

The send queues and the ready queues are threaded through one link of the threads. They can be taken for
lists as long as no thread is in two of them, which a reply to a thread that has faulted again violates.
-/

namespace SaltyOS.Ipc

open Relation SaltyOS.Ipc.System

namespace Action

/-- The thread whose transfer a step completes. -/
def completes : Action → Option ObjPtr
  | sendDone _ t _ => some t
  | recvDone _ t _ => some t
  | _ => none

/-- While a transfer on an endpoint is under way no other step takes the lock of the endpoint. -/
def Exclusive (a : Action) (s : System) : Prop :=
  ∀ e ∈ a.locks s, ∀ t, (s.kont t).transfersOn = some e → a.completes = some t

end Action

/-- The queues that are threaded through the same link: the send queues of the endpoints and the ready
queues of the CPUs. -/
def System.linked (s : System) : ObjPtr ⊕ ℕ → List ObjPtr
  | .inl e => (s.endpoint e).sendQueue
  | .inr cpu => s.sched.ready cpu

/-- No thread is in two of these queues, or twice in one. -/
structure System.LinksApart (s : System) : Prop where
  nodup : ∀ q, (s.linked q).Nodup
  unique : ∀ t q q', t ∈ s.linked q → t ∈ s.linked q' → q = q'

/-- A step that takes no lock in the middle of a transfer of another thread, and leaves every thread in one
queue at most. A thread that faults names no endpoint, and a receiver that is to wait again does not send. -/
structure Action.Orderly (a : Action) (s : System) : Prop where
  exclusive : a.Exclusive s
  reason : a.KeepsReason s
  links : (a.exec s).LinksApart

/-- The endpoints are not concerned by a signal until it takes the lock of the endpoint. -/
theorem System.signal_frame (s : System) (cpu : ℕ) (n : ObjPtr) (bits : ℕ) :
  (s.signal cpu n bits).endpoint = s.endpoint ∧ (s.signal cpu n bits).kont = s.kont
  := by
  unfold signal
  dsimp only
  split
  · exact ⟨rfl, rfl⟩
  split
  · exact ⟨rfl, rfl⟩
  unfold signalBound
  split_ifs
  · exact ⟨rfl, rfl⟩
  · split <;> exact ⟨rfl, rfl⟩

/-- The endpoints are not concerned by futexes. -/
theorem System.wakeFutexWaiters_frame (cpu : ℕ) (ts : List ObjPtr) (s : System) :
  (wakeFutexWaiters cpu ts s).endpoint = s.endpoint ∧ (wakeFutexWaiters cpu ts s).kont = s.kont
  := by
  induction ts generalizing s with
  | nil => exact ⟨rfl, rfl⟩
  | cons t ts ih =>
    obtain ⟨hend, hkont⟩ := ih (s.wakeFutexWaiter cpu t)
    unfold wakeFutexWaiters
    constructor
    · rw [hend]
      simp
    · rw [hkont]
      simp

theorem System.futexWake_frame (s : System) (cpu : ℕ) (t : ObjPtr) (addr count : ℕ) :
  (s.futexWake cpu t addr count).endpoint = s.endpoint ∧ (s.futexWake cpu t addr count).kont = s.kont
  := by
  unfold futexWake
  split
  · exact ⟨rfl, rfl⟩
  · exact wakeFutexWaiters_frame cpu _ _

/-- A thread that returns to user mode changes no endpoint. -/
theorem System.resume_frame (s : System) (t : ObjPtr) (wait : Await) :
  (s.resume t wait).endpoint = s.endpoint ∧ (s.resume t wait).kont = Function.update s.kont t .user
  := by
  have hrecv : ∀ timed, (s.resumeRecv t timed).endpoint = s.endpoint
      ∧ (s.resumeRecv t timed).kont = Function.update s.kont t .user := by
    intro timed
    unfold resumeRecv
    split_ifs <;> simp
  cases wait with
  | recv => exact hrecv false
  | recvTimed => exact hrecv true
  | _ => exact ⟨rfl, rfl⟩

/-- The invariant is kept by a step under whose locks no other transfer is open. -/
theorem QueueInv.exec {a : Action} {s : System} (h : QueueInv s) (ha : a.Enabled s)
    (hex : a.Exclusive s) :
  QueueInv (a.exec s)
  := by
  have hheld : Held a.actor? (a.locks s) s := by
    apply h.held
    intro e he t ht
    have hcompletes := hex e he t ht
    cases a with
    | sendDone => exact hcompletes
    | recvDone => exact hcompletes
    | _ => cases hcompletes
  have hcaller : ∀ t, a.caller? = some t → (s.kont t).transfersOn = none := by
    intro t ht
    rw [(ha.caller t ht).2]
    rfl
  cases a with
  | send cpu kind t e msg badge =>
    have hbegin : Held (some t) [e] (s.beginCall kind t) := hheld.of_eq (by simp) (by simp)
    exact hbegin.sendSection List.mem_cons_self kind msg badge (by simpa using hcaller t rfl)
  | sendDone cpu t copied =>
    obtain ⟨kind, e, r, msg, badge, q, hk⟩ := ha.fits
    refine hheld.sendDone (e := e) ?_ copied hk (h.window t (Option.some_ne_none t).symm)
    simp [Action.locks, hk, Kont.transfersOn]
  | recv cpu kind t late =>
    have hclear : Held (some t) kind.endpoints (s.clearReply t) := hheld.of_eq (by simp) (by simp)
    exact hclear.recvSection _ none late
  | recvDone cpu t copied =>
    obtain ⟨kind, e, x, msg, badge, keep, q, w, hk⟩ := ha.fits
    refine hheld.recvDone (e := e) ?_ copied hk (h.window t (Option.some_ne_none t).symm)
    simp [Action.locks, hk, Kont.transfersOn]
  | replyRecv cpu kind t reply late => exact hheld.replyRecv late reply
  | replyDone cpu t copied late =>
    obtain ⟨kind, caller, msg, hk⟩ := ha.fits
    simp only [Action.locks, hk] at hheld
    exact hheld.replyDone late copied hk
  | recvPhase cpu t late =>
    obtain ⟨kind, w, hk⟩ := ha.fits
    simp only [Action.locks, hk] at hheld
    simp only [Action.exec, recvPhase, hk]
    exact hheld.recvSection _ w late
  | fastpathCall cpu t e msg badge =>
    exact hheld.fastpathCall List.mem_cons_self msg badge (hcaller t rfl)
  | fastpathReplyRecv cpu t e reply =>
    exact hheld.fastpathReplyRecv List.mem_cons_self reply (hcaller t rfl)
  | fastpathReplyRecvAny cpu t es reply => exact hheld.fastpathReplyRecvAny reply (hcaller t rfl)
  | deliverFault cpu t e msg =>
    simp only [Action.exec, deliverFault]
    split_ifs
    · exact h
    have hblock : Held (some t) [e] (s.block t (.faultBlocked msg (s.tcb t).faultHandlerBadge)) :=
      hheld.of_eq rfl rfl
    exact (hblock.faultSection List.mem_cons_self msg _).go rfl rfl (.of_none rfl)
  | signal cpu n bits =>
    obtain ⟨hend, hkont⟩ := s.signal_frame cpu n bits
    exact h.of_eq hend hkont
  | signalEndpoint cpu sig => exact (hheld.signalEndpoint sig List.mem_cons_self).release
  | notificationWait t n =>
    simp only [Action.exec, notificationWait]
    split_ifs <;> exact hheld.go rfl rfl (.of_none rfl)
  | nanosleep t wakeupNs => exact hheld.go rfl rfl (.of_none rfl)
  | blockTimed t nowNs =>
    obtain ⟨wait, timeoutNs, hk⟩ := ha.fits
    simp only [Action.exec, hk, blockCurrentTimed]
    split_ifs
    all_goals exact hheld.go rfl rfl (.of_none rfl)
  | detachExpired nowNs => exact h.of_eq rfl rfl
  | wakeExpired cpu t => exact (hheld.wakeExpired (by simp [Action.locks])).release
  | futexWait t addr => exact hheld.go rfl rfl (.of_none rfl)
  | futexWaitTimeout t addr timeoutNs =>
    simp only [Action.exec, futexWaitTimeout]
    split_ifs
    · exact h
    · exact hheld.go rfl rfl (.of_none rfl)
  | futexWake cpu t addr count =>
    obtain ⟨hend, hkont⟩ := s.futexWake_frame cpu t addr count
    exact h.of_eq hend hkont
  | tcbSuspend current t => exact (hheld.tcbSuspend current (by simp [Action.locks])).release
  | tcbResume cpu t => exact (hheld.tcbResume (by simp [Action.locks])).release
  | endpointCleanup cpu e => exact (hheld.endpointCleanup List.mem_cons_self).release
  | reschedule cpu => exact h.of_eq rfl rfl
  | processPending cpu => exact h.of_eq rfl rfl
  | resume t =>
    obtain ⟨⟨wait, hk⟩, -⟩ := ha.fits
    obtain ⟨hend, hkont⟩ := s.resume_frame t wait
    simp only [Action.exec, hk]
    exact hheld.go hend hkont (.of_none rfl)

/-- Nobody waits at first. -/
theorem System.Initial.queueInv {s : System} (hs : s.Initial) :
  QueueInv s
  := by
  constructor
  · intro e
    rw [hs.endpoint e]
    exact consistent_of_nil rfl rfl
  · intro t _
    rw [hs.kont t]
    trivial
  · intro t _ e he
    cases he

/-- Nobody sends at first. -/
theorem System.Initial.sendInv {s : System} (hs : s.Initial) :
  SendInv s
  := by
  intro x e
  exact .of_none (Tcb.sendsTo_of_endpoint (hs.blockedEndpoint x))

/-- A message with a capability. -/
def Message.capSample : Message := { Message.empty with extraCaps := 1 }

/-- Nobody is in a ready queue, and senders wait at one endpoint only. -/
theorem System.linksApart_of_single {s : System} (e : ObjPtr)
    (hother : ∀ e' ≠ e, (s.endpoint e').sendQueue = []) (hself : (s.endpoint e).sendQueue.Nodup)
    (hready : ∀ cpu, s.sched.ready cpu = []) :
  s.LinksApart
  := by
  have heq : ∀ t q, t ∈ s.linked q → q = .inl e := by
    intro t q ht
    cases q with
    | inl e' =>
      by_contra hne
      change t ∈ (s.endpoint e').sendQueue at ht
      rw [hother e' fun heq => hne (congrArg _ heq)] at ht
      cases ht
    | inr cpu =>
      change t ∈ s.sched.ready cpu at ht
      rw [hready cpu] at ht
      cases ht
  constructor
  · intro q
    cases q with
    | inl e' =>
      obtain rfl | hne := eq_or_ne e' e
      · exact hself
      · change (s.endpoint e').sendQueue.Nodup
        rw [hother e' hne]
        exact List.nodup_nil
    | inr cpu =>
      change (s.sched.ready cpu).Nodup
      rw [hready cpu]
      exact List.nodup_nil
  · intro t q q' hq hq'
    rw [heq t q hq, heq t q' hq']

end SaltyOS.Ipc
