import SaltyOS.Ipc.Frame

/-!
# Sends whose capabilities cannot be copied

A send that finds a receiver takes it out of all queues it waits in before the capabilities are copied. If
they cannot be copied the receiver has to wait again. It is put back into the queue of the endpoint of the
send only, as its first link.
-/

namespace SaltyOS.Ipc.System

/-- A thread waits to receive on the given endpoints: they are the endpoints of its links, and its link in
the queue of each of them has the index of the endpoint. -/
structure WaitsOn (s : System) (r : ObjPtr) (es : List ObjPtr) : Prop where
  waits : (s.tcb r).recvWaits = es
  links : ∀ e, (s.endpoint e).recvQueue.filter (fun link => link.1 = r) =
    if e ∈ es then [(r, es.idxOf e)] else []

/-- A send that returns an error because its capabilities could not be copied. -/
def failedSend (s : System) (cpu : ℕ) (kind : SendKind) (t e : ObjPtr) (msg : Message) (badge : ℕ) :
    System :=
  (s.send cpu kind t e msg badge).sendDone cpu t false

variable {s : System} {r t e : ObjPtr} {es : List ObjPtr} {msg : Message} {selected : ℕ}
  {queue : List (ObjPtr × ℕ)}

section

variable (cpu : ℕ) (kind : SendKind) (badge : ℕ) (hstate : (s.endpoint e).state = .recvBlocked)
  (hqueue : (s.endpoint e).recvQueue = (r, selected) :: queue) (hcaps : 0 < msg.capCount)
include hstate hqueue hcaps

/-- The receiver is taken out of its queues and put back into one. -/
theorem failedSend_eq :
  s.failedSend cpu kind t e msg badge =
    (((((s.beginCall kind t).setEndpoint e fun ep => { ep with recvQueue := queue }).removeAllRecvWaits r
      selected).setKont t .user).restoreSingleRecvWait r e)
  := by
  obtain ⟨hend, -⟩ := s.beginCall_frame kind t
  unfold failedSend send sendSection popRecvWaiter
  rw [hend, hstate, hqueue]
  dsimp only
  rw [if_pos hcaps]
  simp [sendDone, sendFail, restoreSingleRecvWait, armRecvWait]

/-- The receiver waits on the endpoint of the send only. -/
theorem waitsOn_failedSend (hwaits : s.WaitsOn r es) :
  (s.failedSend cpu kind t e msg badge).WaitsOn r [e]
  := by
  obtain ⟨hend, -⟩ := s.beginCall_frame kind t
  have htcb : (s.beginCall kind t).tcb = s.tcb := by cases kind <;> rfl
  rw [failedSend_eq cpu kind badge hstate hqueue hcaps]
  refine ⟨by simp [restoreSingleRecvWait, armRecvWait], fun e' => ?_⟩
  have hlinks := hwaits.links e'
  simp only [restoreSingleRecvWait, armRecvWait, removeAllRecvWaits, setTcb, setEndpoint, setKont, hend, htcb,
    hwaits.waits, Function.update_apply, List.mem_singleton]
  by_cases he : e' = e
  · subst he
    have hmem : e' ∈ es := by
      by_contra hnot
      rw [if_neg hnot, hqueue] at hlinks
      simp at hlinks
    simp [hmem]
  · by_cases hmem : e' ∈ es
    · simp [he, hmem]
    · simpa [he, hmem] using hlinks

/-- After a failed send the receiver is blocked as before exactly if it waits on one endpoint. -/
theorem failedSend_restores_iff (hwaits : s.WaitsOn r es) :
  ((s.failedSend cpu kind t e msg badge).state r = s.state r
      ∧ ((s.failedSend cpu kind t e msg badge).tcb r).blockedReason = (s.tcb r).blockedReason
      ∧ (s.failedSend cpu kind t e msg badge).WaitsOn r es)
    ↔ es = [e]
  := by
  have hrestored := waitsOn_failedSend (t := t) cpu kind badge hstate hqueue hcaps hwaits
  constructor
  · rintro ⟨-, -, hsame⟩
    exact hsame.waits.symm.trans hrestored.waits
  · rintro rfl
    refine ⟨?_, ?_, hrestored⟩
    all_goals
      rw [failedSend_eq cpu kind badge hstate hqueue hcaps]
      cases kind <;> simp [beginCall, restoreSingleRecvWait, armRecvWait, removeAllRecvWaits, state]

end

/-- The thread `0` has started to wait on the given endpoints. -/
def receiverSample (es : List ObjPtr) : System :=
  (System.sample.armRecvAny (.static 0) es).block (.static 0) .recvBlocked

theorem waitsOn_receiverSample (es : List ObjPtr) :
  (receiverSample es).WaitsOn (.static 0) es
  := by
  refine ⟨rfl, fun e => ?_⟩
  by_cases he : e ∈ es
  · simp [receiverSample, armRecvAny, he, System.sample, Endpoint.new]
  · simp [receiverSample, armRecvAny, he, System.sample, Endpoint.new]

/-- A message with a capability is sent to a receiver that waits on one endpoint. -/
theorem failedSend_restores_one :
  ((receiverSample [.static 8]).failedSend 1 .call (.static 1) (.static 8)
    { Message.empty with extraCaps := 1 } 0).WaitsOn (.static 0) [.static 8]
  := ((failedSend_restores_iff 1 .call 0 rfl rfl (by decide) (waitsOn_receiverSample _)).mpr rfl).2.2

/-- The receiver waits on two endpoints. After a send to the second one it waits on this one only, as if it
were the first. -/
theorem failedSend_forgets :
  (receiverSample [.static 8, .static 7]).WaitsOn (.static 0) [.static 8, .static 7]
    ∧ ((receiverSample [.static 8, .static 7]).failedSend 1 .call (.static 1) (.static 7)
      { Message.empty with extraCaps := 1 } 0).WaitsOn (.static 0) [.static 7]
  := ⟨waitsOn_receiverSample _,
    waitsOn_failedSend 1 .call 0 rfl rfl (by decide) (waitsOn_receiverSample _)⟩

end SaltyOS.Ipc.System
