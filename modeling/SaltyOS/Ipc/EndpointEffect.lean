import SaltyOS.Ipc.Frame

/-!
# What the steps do to the endpoints

The state word of an endpoint says which of its queues can be used. Threads are to wait in the send
queue of an endpoint only in the state `SendBlocked` and in its receive queue only in the state
`RecvBlocked`. A step keeps this whenever it changes an endpoint whose lock it holds, as long as no other
thread is in the middle of a transfer there. From the other endpoints it removes receivers at most.
-/

namespace SaltyOS.Ipc

variable {ep ep' : Endpoint}

/-- The queues of an endpoint fit its state. -/
structure Endpoint.Consistent (ep : Endpoint) : Prop where
  send : ep.sendQueue ≠ [] → ep.state = .sendBlocked
  recv : ep.recvQueue ≠ [] → ep.state = .recvBlocked

namespace Endpoint.Consistent

variable {ep : Endpoint} (h : ep.Consistent)

include h

/-- Nobody sends unless the state says so. -/
theorem sendQueue_eq_nil (hs : ep.state ≠ .sendBlocked) :
  ep.sendQueue = []
  := by
  by_contra hne
  exact hs (h.send hne)

/-- Nobody receives unless the state says so. -/
theorem recvQueue_eq_nil (hs : ep.state ≠ .recvBlocked) :
  ep.recvQueue = []
  := by
  by_contra hne
  exact hs (h.recv hne)

/-- Nobody sends while receivers wait. -/
theorem sendQueue_of_recvBlocked (hs : ep.state = .recvBlocked) :
  ep.sendQueue = []
  := by
  apply h.sendQueue_eq_nil
  rw [hs]
  decide

/-- Nobody receives while senders wait. -/
theorem recvQueue_of_sendBlocked (hs : ep.state = .sendBlocked) :
  ep.recvQueue = []
  := by
  apply h.recvQueue_eq_nil
  rw [hs]
  decide

/-- At most one of the queues is in use. -/
theorem sendQueue_or_recvQueue :
  ep.sendQueue = [] ∨ ep.recvQueue = []
  := by
  obtain hs | hs := eq_or_ne ep.state .sendBlocked
  · exact .inr (h.recvQueue_of_sendBlocked hs)
  · exact .inl (h.sendQueue_eq_nil hs)

end Endpoint.Consistent

/-- An endpoint after some receivers have left its queue. -/
structure Endpoint.Shrunk (ep ep' : Endpoint) : Prop where
  state : ep'.state = ep.state
  sendQueue : ep'.sendQueue = ep.sendQueue
  recvQueue : ep'.recvQueue.Sublist ep.recvQueue

/-- Nothing has left the queue. -/
theorem Endpoint.Shrunk.refl (ep : Endpoint) :
  ep.Shrunk ep
  := ⟨rfl, rfl, .refl _⟩

/-- Nobody leaves an empty queue. -/
theorem Endpoint.Shrunk.eq_nil (h : ep.Shrunk ep') (hnil : ep.recvQueue = []) :
  ep'.recvQueue = []
  := by
  apply List.eq_nil_of_sublist_nil
  rw [← hnil]
  exact h.recvQueue

/-- Receivers that leave a queue leave a consistent endpoint. -/
theorem Endpoint.Shrunk.consistent (h : ep.Shrunk ep') (hc : ep.Consistent) :
  ep'.Consistent
  := by
  constructor
  · intro hne
    rw [h.sendQueue] at hne
    rw [h.state]
    exact hc.send hne
  · intro hne
    rw [h.state]
    apply hc.recv
    intro hnil
    exact hne (h.eq_nil hnil)

/-- What a thread in the middle of a transfer relies on. -/
def Kont.Window (endpoint : ObjPtr → Endpoint) : Kont → Prop
  | .sendTransfer _ e _ _ _ recvQueueEmpty =>
    (endpoint e).state = .recvBlocked ∧ (endpoint e).sendQueue = []
      ∧ (recvQueueEmpty = true → (endpoint e).recvQueue = [])
  | .recvTransfer _ e _ _ _ _ sendQueueEmpty _ =>
    (endpoint e).state = .sendBlocked ∧ (endpoint e).recvQueue = []
      ∧ (sendQueueEmpty = true → (endpoint e).sendQueue = [])
  | _ => True

/-- A thread outside of transfers relies on nothing. -/
theorem Kont.Window.of_none {endpoint : ObjPtr → Endpoint} {k : Kont} (h : k.transfersOn = none) :
  k.Window endpoint
  := by
  cases k with
  | sendTransfer => cases h
  | recvTransfer => cases h
  | _ => trivial

/-- A thread in the middle of a transfer relies on its endpoint only, and receivers may leave. -/
theorem Kont.Window.of_shrunk {endpoint endpoint' : ObjPtr → Endpoint} {k : Kont}
    (h : k.Window endpoint)
    (he : ∀ e, k.transfersOn = some e → (endpoint e).Shrunk (endpoint' e)) :
  k.Window endpoint'
  := by
  cases k with
  | sendTransfer kind e r msg badge q =>
    obtain ⟨hstate, hsend, hrecv⟩ := h
    have hshrunk := he e rfl
    exact ⟨hshrunk.state.trans hstate, hshrunk.sendQueue.trans hsend,
      fun hq => hshrunk.eq_nil (hrecv hq)⟩
  | recvTransfer kind e x msg badge keep q w =>
    obtain ⟨hstate, hrecv, hsend⟩ := h
    have hshrunk := he e rfl
    exact ⟨hshrunk.state.trans hstate, hshrunk.eq_nil hrecv,
      fun hq => hshrunk.sendQueue.trans (hsend hq)⟩
  | _ => trivial

/-- The invariant in the middle of a step of the thread `a` under the locks of `es`: all endpoints are
consistent, the open transfers of the other threads can rely on what they saw, and none of them is on
one of these endpoints. -/
structure Held (a : Option ObjPtr) (es : List ObjPtr) (s : System) : Prop where
  consistent : ∀ e, (s.endpoint e).Consistent
  window : ∀ t, a ≠ some t → (s.kont t).Window s.endpoint
  free : ∀ t, a ≠ some t → ∀ e ∈ es, (s.kont t).transfersOn ≠ some e

/-- All endpoints are consistent, and the open transfers can rely on what they saw. -/
def QueueInv (s : System) : Prop := Held none [] s

variable {s s' : System} {a : Option ObjPtr} {es : List ObjPtr} {t e : ObjPtr} {p : Endpoint}
  {k : Kont}

/-- A step can begin if no other thread is in the middle of a transfer on one of its endpoints. -/
theorem QueueInv.held (h : QueueInv s)
    (hex : ∀ e ∈ es, ∀ t, (s.kont t).transfersOn = some e → a = some t) :
  Held a es s
  := by
  use h.consistent, fun t _ => h.window t nofun
  intro t ht e he heq
  exact ht (hex e he t heq)

/-- The continuations of the other threads. -/
theorem kont_of_update (hk : s'.kont = Function.update s.kont t k) (u : ObjPtr) (hu : some t ≠ some u) :
  s'.kont u = s.kont u
  := by
  rw [hk, Function.update_of_ne]
  rintro rfl
  exact hu rfl

namespace Held

/-- The locked endpoints change, and receivers may leave the others. -/
theorem of_shrunk (h : Held a es s) (hc : ∀ e, (s'.endpoint e).Consistent)
    (hs : ∀ e, e ∉ es → (s.endpoint e).Shrunk (s'.endpoint e))
    (hk : ∀ t, a ≠ some t → s'.kont t = s.kont t) :
  Held a es s'
  := by
  refine ⟨hc, ?_, ?_⟩
  · intro t ht
    rw [hk t ht]
    apply (h.window t ht).of_shrunk
    intro e he
    exact hs e fun hmem => h.free t ht e hmem he
  · intro t ht
    rw [hk t ht]
    exact h.free t ht

/-- Nothing changes that matters. -/
theorem of_eq (h : Held a es s) (hend : s'.endpoint = s.endpoint) (hk : s'.kont = s.kont) :
  Held a es s'
  := by
  constructor
  · rw [hend]
    exact h.consistent
  · rw [hend, hk]
    exact h.window
  · rw [hk]
    exact h.free

/-- A locked endpoint changes. -/
theorem update (h : Held a es s) (he : e ∈ es) (hend : s'.endpoint = Function.update s.endpoint e p)
    (hk : ∀ t, a ≠ some t → s'.kont t = s.kont t) (hc : p.Consistent) :
  Held a es s'
  := by
  refine h.of_shrunk ?_ ?_ hk
  · intro e'
    rw [hend, Function.update_apply]
    split_ifs
    · exact hc
    · exact h.consistent e'
  · intro e' he'
    have hne : e' ≠ e := fun heq => he' (heq ▸ he)
    rw [hend, Function.update_of_ne hne]
    exact .refl _

/-- A step ends. -/
theorem done (h : Held a es s) (hw : ∀ t, a = some t → (s.kont t).Window s.endpoint) :
  QueueInv s
  := by
  refine ⟨h.consistent, ?_, fun _ _ _ hmem => absurd hmem List.not_mem_nil⟩
  intro t _
  by_cases ht : a = some t
  · exact hw t ht
  · exact h.window t ht

theorem release (h : Held none es s) :
  QueueInv s
  := by
  apply h.done
  intro t ht
  cases ht

/-- A step ends with a thread that goes on. -/
theorem go (h : Held (some t) es s) (hend : s'.endpoint = s.endpoint)
    (hk : s'.kont = Function.update s.kont t k) (hw : k.Window s.endpoint) :
  QueueInv s'
  := by
  have h' : Held (some t) es s' := by
    refine h.of_shrunk ?_ ?_ (kont_of_update hk)
    · rw [hend]
      exact h.consistent
    intro e _
    rw [hend]
    exact .refl _
  apply h'.done
  rintro u ⟨⟩
  rw [hk, hend, Function.update_self]
  exact hw

/-- A step ends with a change of a locked endpoint and a thread that goes on. -/
theorem set (h : Held (some t) es s) (he : e ∈ es) (hend : s'.endpoint = Function.update s.endpoint e p)
    (hk : s'.kont = Function.update s.kont t k) (hc : p.Consistent) (hw : k.transfersOn = none) :
  QueueInv s'
  := by
  apply (h.update he hend (kont_of_update hk) hc).done
  rintro u ⟨⟩
  rw [hk, Function.update_self]
  exact .of_none hw

/-- A step ends with a thread that stays where it is. -/
theorem stay (h : Held (some t) es s) (ht : (s.kont t).transfersOn = none) :
  QueueInv s
  := by
  apply h.done
  rintro u ⟨⟩
  exact .of_none ht

end Held

/-- A thread that leaves its receive queues. -/
theorem System.removeAllRecvWaits_shrunk (s : System) (t : ObjPtr) (selected : ℕ) (e : ObjPtr) :
  (s.endpoint e).Shrunk ((s.removeAllRecvWaits t selected).endpoint e)
  := by
  simp only [removeAllRecvWaits]
  split_ifs
  · exact ⟨rfl, rfl, List.filter_sublist⟩
  · exact .refl _

/-- Taking the pending bits changes no endpoint. -/
theorem System.takeBits_spec {bits : ℕ} (h : s.takeBits t = (bits, s')) :
  s'.endpoint = s.endpoint ∧ s'.kont = s.kont
  := by
  have hframe := s.takeBits_frame t
  rw [h] at hframe
  exact hframe

section

variable (es : List ObjPtr) (s : System)

/-- Looking for a sender brings no endpoint to the state `SendBlocked`. -/
theorem System.scanSenders_sendBlocked (h : ((scanSenders es s).2.endpoint e).state = .sendBlocked) :
  (s.endpoint e).state = .sendBlocked
  := by
  induction es generalizing s with
  | nil => exact h
  | cons e' es ih =>
    unfold scanSenders at h
    split_ifs at h with hstate
    · obtain rfl | hne := eq_or_ne e e'
      · exact hstate
      split at h
      · simpa [hne] using h
      · simpa [hne] using ih _ h
    · exact ih s h

/-- If no sender is found then no endpoint is in the state `SendBlocked` any more. -/
theorem System.scanSenders_none (h : (scanSenders es s).1 = none) :
  ∀ e ∈ es, ((scanSenders es s).2.endpoint e).state ≠ .sendBlocked
  := by
  induction es generalizing s with
  | nil => exact nofun
  | cons e' es ih =>
    intro e he
    unfold scanSenders at h ⊢
    split_ifs at h ⊢ with hstate
    · split at h
      · cases h
      obtain rfl | hmem := List.mem_cons.mp he
      · intro hsend
        simpa using scanSenders_sendBlocked es _ hsend
      · exact ih _ h e hmem
    · obtain rfl | hmem := List.mem_cons.mp he
      · intro hsend
        exact hstate (scanSenders_sendBlocked es s hsend)
      · exact ih s h e hmem

end

/-- The system a fastpath is left with after it has looked for a sender. -/
def System.FastScan.system : FastScan → System
  | .none s => s
  | .giveUp s => s
  | .found _ _ _ _ _ s => s

/-! ## Consistent endpoints -/

section Consistent

variable {q : Bool}

/-- An endpoint with empty queues. -/
theorem consistent_of_nil (hs : ep.sendQueue = []) (hr : ep.recvQueue = []) :
  ep.Consistent
  := ⟨fun hne => absurd hs hne, fun hne => absurd hr hne⟩

/-- An endpoint with a sender and without receivers. -/
theorem consistent_sendBlocked (hr : ep.recvQueue = []) (hs : ep.state = .sendBlocked) :
  ep.Consistent
  := ⟨fun _ => hs, fun hne => absurd hr hne⟩

/-- An endpoint with a receiver and without senders. -/
theorem consistent_recvBlocked (hs : ep.sendQueue = []) (hr : ep.state = .recvBlocked) :
  ep.Consistent
  := ⟨fun hne => absurd hs hne, fun _ => hr⟩

/-- An endpoint without senders whose state says whether receivers may be left. -/
theorem consistent_after_send (hs : ep.sendQueue = []) (hr : q = true → ep.recvQueue = [])
    (hstate : ep.state = if q then .idle else .recvBlocked) :
  ep.Consistent
  := by
  cases q with
  | true => exact consistent_of_nil hs (hr rfl)
  | false => exact consistent_recvBlocked hs hstate

/-- An endpoint without receivers whose state says whether senders may be left. -/
theorem consistent_after_recv (hr : ep.recvQueue = []) (hs : q = true → ep.sendQueue = [])
    (hstate : ep.state = if q then .idle else .sendBlocked) :
  ep.Consistent
  := by
  cases q with
  | true => exact consistent_of_nil (hs rfl) hr
  | false => exact consistent_sendBlocked hr hstate

end Consistent

namespace Held

open SaltyOS.Ipc.System

variable {r x : ObjPtr} {q : Bool} {kind : RecvKind} {msg : Message} {w : Option ObjPtr} {cpu : ℕ}

/-! ## Leaving the receive queues -/

theorem leave (h : Held a es s) (t : ObjPtr) (selected : ℕ) :
  Held a es (s.removeAllRecvWaits t selected)
  := by
  have hshrunk := s.removeAllRecvWaits_shrunk t selected
  exact h.of_shrunk (fun e => (hshrunk e).consistent (h.consistent e)) (fun e _ => hshrunk e)
    fun _ _ => rfl

/-- The first waiting receiver leaves all its queues. -/
theorem tail {link : ObjPtr × ℕ} {queue : List (ObjPtr × ℕ)} (selected : ℕ) (h : Held a es s)
    (he : e ∈ es) (hqueue : (s.endpoint e).recvQueue = link :: queue)
    (hs' : s' = (s.setEndpoint e fun ep => { ep with recvQueue := queue }).removeAllRecvWaits r
      selected) :
  Held a es s' ∧ Endpoint.Shrunk { s.endpoint e with recvQueue := queue } (s'.endpoint e)
  := by
  have hc := h.consistent e
  have htail : Held a es (s.setEndpoint e fun ep => { ep with recvQueue := queue }) := by
    refine h.update he rfl (fun _ _ => rfl) ⟨hc.send, ?_⟩
    intro _
    exact hc.recv (by simp [hqueue])
  have hself := removeAllRecvWaits_shrunk (s.setEndpoint e fun ep => { ep with recvQueue := queue })
    r selected e
  simp only [setEndpoint, Function.update_self] at hself
  rw [hs']
  exact ⟨htail.leave r selected, hself⟩

theorem recvQueue_of_pop (hpop : s.popRecvWaiter e = none) :
  (s.endpoint e).recvQueue = []
  := by
  unfold System.popRecvWaiter at hpop
  split at hpop
  · assumption
  · cases hpop

theorem popRecvWaiter (h : Held a es s) (he : e ∈ es) (hpop : s.popRecvWaiter e = some (r, s')) :
  Held a es s' ∧ (s'.endpoint e).state = (s.endpoint e).state
    ∧ (s'.endpoint e).sendQueue = (s.endpoint e).sendQueue
  := by
  unfold System.popRecvWaiter at hpop
  split at hpop
  · cases hpop
  rename_i hqueue
  cases hpop
  obtain ⟨htail, hshrunk⟩ := h.tail _ he hqueue rfl
  exact ⟨htail, hshrunk.state, hshrunk.sendQueue⟩

/-! ## Sending -/

section

variable (h : Held (some t) es s) (he : e ∈ es)
include h he

/-- A sender that finds no receiver. -/
theorem sendQueued (kind : SendKind) (msg : Message) (badge : ℕ) (hr : (s.endpoint e).recvQueue = [])
    (hk : (s.kont t).transfersOn = none) :
  QueueInv (s.sendQueued kind t e msg badge)
  := by
  cases kind with
  | nbsend =>
    change QueueInv (enqueueNbsend ..)
    unfold enqueueNbsend
    split_ifs
    · exact h.stay hk
    · have hc := h.consistent e
      exact Held.stay (t := t) (h.update he rfl (fun _ _ => rfl) ⟨hc.send, hc.recv⟩) hk
  | send => exact h.set he rfl rfl (consistent_sendBlocked hr rfl) rfl
  | call => exact h.set he rfl rfl (consistent_sendBlocked hr rfl) rfl
  | sendTimeout => exact h.set he rfl rfl (consistent_sendBlocked hr rfl) rfl

/-- The end of a send. -/
theorem sendFinish (kind : SendKind) (msg : Message) (badge : ℕ)
    (hs : (s.endpoint e).sendQueue = []) (hr : q = true → (s.endpoint e).recvQueue = []) :
  QueueInv (s.sendFinish cpu kind t e r msg badge q)
  := by
  have hc : Endpoint.Consistent { s.endpoint e with state := if q then .idle else .recvBlocked } :=
    consistent_after_send hs hr rfl
  unfold System.sendFinish wakeReceiver
  split
  · refine h.set (k := .await .callReply) he ?_ ?_ hc rfl
    · split_ifs <;> simp
    · split_ifs <;> simp
  · refine h.set (k := .user) he ?_ ?_ hc rfl
    · split_ifs <;> simp
    · split_ifs <;> simp

/-- Sending, under the lock. -/
theorem sendSection (kind : SendKind) (msg : Message) (badge : ℕ) (hk : (s.kont t).transfersOn = none) :
  QueueInv (s.sendSection cpu kind t e msg badge)
  := by
  have hc := h.consistent e
  unfold System.sendSection
  split
  next hstate =>
    have hsend := hc.sendQueue_of_recvBlocked hstate
    split
    next hpop =>
      have hrecv := recvQueue_of_pop hpop
      have hidle : Held (some t) es (s.setEndpoint e fun ep => { ep with state := .idle }) :=
        h.update he rfl (fun _ _ => rfl) (consistent_of_nil hsend hrecv)
      exact hidle.sendQueued he kind msg badge (by simpa using hrecv) hk
    rename_i r s' hpop
    obtain ⟨hpopped, hstate', hsend'⟩ := h.popRecvWaiter he hpop
    rw [hstate] at hstate'
    rw [hsend] at hsend'
    split_ifs
    · exact hpopped.go rfl rfl ⟨hstate', hsend', by simp⟩
    have hmsg : Held (some t) es (s'.transferMessage t r msg badge) :=
      hpopped.of_eq (by simp) (by simp)
    exact hmsg.sendFinish he kind msg badge (by simpa using hsend') (by simp)
  · apply h.sendQueued he kind msg badge _ hk
    apply hc.recvQueue_eq_nil
    assumption

/-- Completing a send. -/
theorem sendDone {kind : SendKind} {badge : ℕ} (copied : Bool)
    (hk : s.kont t = .sendTransfer kind e r msg badge q) (hw : (s.kont t).Window s.endpoint) :
  QueueInv (s.sendDone cpu t copied)
  := by
  rw [hk] at hw
  obtain ⟨hstate, hsend, hrecv⟩ := hw
  simp only [System.sendDone, hk]
  split_ifs
  · have hmsg : Held (some t) es (s.transferMessage t r msg badge) := h.of_eq (by simp) (by simp)
    exact hmsg.sendFinish he kind msg badge (by simpa using hsend) (by simpa using hrecv)
  · exact h.set he rfl rfl (consistent_recvBlocked hsend rfl) rfl

/-! ## Receiving -/

/-- The end of a receive. -/
theorem recvFinish (kind : RecvKind) (msg : Message) (badge : ℕ) (keep : Bool) (w : Option ObjPtr)
    (hr : (s.endpoint e).recvQueue = []) (hs : q = true → (s.endpoint e).sendQueue = []) :
  QueueInv (s.recvFinish cpu kind t e x msg badge keep q w)
  := by
  have hc : Endpoint.Consistent { s.endpoint e with state := if q then .idle else .sendBlocked } :=
    consistent_after_recv hr hs rfl
  unfold System.recvFinish
  refine h.set (k := .user) he ?_ ?_ hc rfl
  · split_ifs <;> simp
  · split_ifs <;> simp

/-- Receiving from a sender that has been taken out of the queue. -/
theorem recvFrom (kind : RecvKind) (x : ObjPtr) (w : Option ObjPtr)
    (hstate : (s.endpoint e).state = .sendBlocked) :
  QueueInv (s.recvFrom cpu kind t e x w)
  := by
  have hr := (h.consistent e).recvQueue_of_sendBlocked hstate
  unfold System.recvFrom
  dsimp only
  split_ifs
  · exact h.go rfl rfl ⟨hstate, hr, by simp⟩
  generalize BlockedReason.offer (s.tcb x).blockedReason = offer
  have hmsg : Held (some t) es (s.transferMessage x t offer.1 offer.2.1) := h.of_eq (by simp) (by simp)
  exact hmsg.recvFinish he kind _ _ _ w (by simpa using hr) (by simp)

end

/-- A sender at a locked endpoint in the state `SendBlocked` is taken out of the queue. -/
theorem takeSender (h : Held a es s) (he : e ∈ es) (hstate : (s.endpoint e).state = .sendBlocked)
    (queue : List ObjPtr) :
  Held a es (s.setEndpoint e fun ep => { ep with sendQueue := queue })
    ∧ ((s.setEndpoint e fun ep => { ep with sendQueue := queue }).endpoint e).state = .sendBlocked
  := by
  have hr := (h.consistent e).recvQueue_of_sendBlocked hstate
  constructor
  · exact h.update he rfl (fun _ _ => rfl) (consistent_sendBlocked hr hstate)
  · simpa using hstate

/-- A locked endpoint in the state `SendBlocked` turns out to have no sender. -/
theorem becomeIdle (h : Held a es s) (he : e ∈ es) (hstate : (s.endpoint e).state = .sendBlocked)
    (hs : (s.endpoint e).sendQueue = []) :
  Held a es (s.setEndpoint e fun ep => { ep with state := .idle })
  := by
  have hr := (h.consistent e).recvQueue_of_sendBlocked hstate
  exact h.update he rfl (fun _ _ => rfl) (consistent_of_nil hs hr)

/-- A receiver in the queue of an endpoint without senders. -/
theorem armRecvWait (h : Held a es s) (he : e ∈ es) (hs : (s.endpoint e).sendQueue = []) :
  Held a es (s.armRecvWait t e)
  := h.update he rfl (fun _ _ => rfl) (consistent_recvBlocked hs rfl)

theorem enqueueOpt (h : Held a es s) (cpu : ℕ) (w : Option ObjPtr) :
  Held a es (s.enqueueOpt cpu w)
  := h.of_eq (by simp) (by simp)

section

variable (h : Held (some t) es s)
include h

/-- A receiver that has just started to wait may leave again. -/
theorem recheckBits (late : ℕ) (kind : RecvKind) :
  QueueInv (s.recheckBits t late kind.wait)
  := by
  unfold System.recheckBits
  split
  next hbits =>
    obtain ⟨hend, hkont⟩ := takeBits_spec hbits
    simp only [lateBits_frame] at hend hkont
    refine h.go (k := kind.wait) hend (by simp [hkont]) (.of_none ?_)
    cases kind <;> rfl
  next bits s' _ hbits =>
    obtain ⟨hend, hkont⟩ := takeBits_spec hbits
    simp only [lateBits_frame] at hend hkont
    exact ((h.of_eq hend hkont).leave t recvWaitSelectedNotification).go rfl rfl (.of_none rfl)

/-- The bits of the bound notification are received. -/
theorem recvBits {bits : ℕ} (hbits : s.takeBits t = (bits, s')) (w : Option ObjPtr) (source : ℕ) :
  QueueInv ((s'.enqueueOpt cpu w).ret t .empty bits source)
  := by
  obtain ⟨hend, hkont⟩ := takeBits_spec hbits
  exact h.go (k := .user) (by simpa using hend) (by simp [hkont]) (.of_none rfl)

/-- A receiver that waits at one endpoint. -/
theorem recvBlock (he : e ∈ es) (kind : RecvKind) (w : Option ObjPtr) (late : ℕ)
    (hs : (s.endpoint e).sendQueue = []) :
  QueueInv (s.recvBlock cpu kind t e w late)
  := by
  unfold System.recvBlock
  apply Held.enqueueOpt
  apply Held.recheckBits
  refine (h.armRecvWait (t := t) he hs).of_eq ?_ ?_ <;> simp

/-- A message that was sent without blocking is received. -/
theorem recvNbsend (he : e ∈ es) (queue : List (Message × ℕ)) (w : Option ObjPtr) (msg : Message)
    (badge source : ℕ) :
  QueueInv (((s.setEndpoint e fun ep => { ep with nbsend := queue }).enqueueOpt cpu w).ret t msg badge
    source)
  := by
  have hc := h.consistent e
  have hqueue : Held (some t) es (s.setEndpoint e fun ep => { ep with nbsend := queue }) :=
    h.update he rfl (fun _ _ => rfl) ⟨hc.send, hc.recv⟩
  exact (hqueue.enqueueOpt cpu w).go rfl rfl (.of_none rfl)

theorem recvInner (he : e ∈ es) (kind : RecvKind) (w : Option ObjPtr) (late : ℕ) :
  QueueInv (s.recvInner cpu kind t e w late)
  := by
  have hc := h.consistent e
  unfold System.recvInner
  split
  next hstate =>
    split
    next x queue hqueue =>
      obtain ⟨htaken, hstate'⟩ := h.takeSender he hstate queue
      exact htaken.recvFrom he kind x w hstate'
    rename_i hqueue
    split
    · exact h.recvBlock he _ w late hqueue
    · apply Held.enqueueOpt
      exact (h.armRecvWait (t := t) he hqueue).go rfl rfl (.of_none rfl)
  next hstate =>
    split
    · exact h.recvNbsend he _ w _ _ 0
    split
    next s' hbits =>
      obtain ⟨hend, hkont⟩ := takeBits_spec hbits
      apply (h.of_eq hend hkont).recvBlock he kind w late
      rw [hend]
      exact hc.sendQueue_eq_nil hstate
    next hbits => exact h.recvBits hbits w 0

end

/-! ## Receiving on several endpoints -/

section

variable {l : List ObjPtr}

/-- Looking for a sender: the endpoint at which one is found is in the state `SendBlocked`. -/
theorem scanSenders (h : Held a es s) (hl : ∀ e ∈ l, e ∈ es) :
  Held a es (scanSenders l s).2 ∧ ∀ e x, (scanSenders l s).1 = some (e, x) →
    e ∈ es ∧ ((scanSenders l s).2.endpoint e).state = .sendBlocked
  := by
  induction l generalizing s with
  | nil => exact ⟨h, nofun⟩
  | cons e l ih =>
    obtain ⟨he, hl⟩ := List.forall_mem_cons.mp hl
    unfold System.scanSenders
    split_ifs with hstate
    · split
      next x queue hqueue =>
        obtain ⟨htaken, hstate'⟩ := h.takeSender he hstate queue
        use htaken
        rintro e' x' ⟨⟩
        exact ⟨he, hstate'⟩
      next hs => exact ih (h.becomeIdle he hstate hs) hl
    · exact ih h hl

/-- A receiver in the queues of endpoints without senders. -/
theorem armRecvAny (h : Held a es s) (hstate : ∀ e ∈ es, (s.endpoint e).state ≠ .sendBlocked) :
  Held a es (s.armRecvAny t es)
  := by
  refine h.of_shrunk ?_ ?_ fun _ _ => rfl
  · intro e
    simp only [System.armRecvAny]
    split_ifs with he hidle
    · exact consistent_recvBlocked ((h.consistent e).sendQueue_eq_nil (hstate e he)) rfl
    · refine consistent_recvBlocked ((h.consistent e).sendQueue_eq_nil (hstate e he)) ?_
      cases hcase : (s.endpoint e).state with
      | idle => exact absurd hcase hidle
      | sendBlocked => exact absurd hcase (hstate e he)
      | recvBlocked => rfl
    · exact h.consistent e
  · intro e he
    simp only [System.armRecvAny, if_neg he]
    exact .refl _

end

section

variable (h : Held (some t) es s)
include h

theorem recvAny (kind : RecvKind) (w : Option ObjPtr) (late : ℕ) :
  QueueInv (s.recvAny cpu kind es t w late)
  := by
  obtain ⟨hscan, hfound⟩ := h.scanSenders (l := es) fun _ he => he
  unfold System.recvAny
  split
  next e x s' heq =>
    rw [heq] at hscan hfound
    obtain ⟨he, hstate⟩ := hfound e x rfl
    exact hscan.recvFrom he kind x w hstate
  rename_i s' heq
  have hnone := scanSenders_none es s (by rw [heq])
  rw [heq] at hscan hnone
  split
  next e hfind => exact hscan.recvNbsend (List.mem_of_find?_eq_some hfind) _ w ..
  split
  next s'' hbits =>
    obtain ⟨hend, hkont⟩ := takeBits_spec hbits
    have hbare := hscan.of_eq hend hkont
    apply Held.enqueueOpt
    apply Held.recheckBits
    refine (hbare.armRecvAny (t := t) ?_).of_eq (by simp) (by simp)
    rw [hend]
    exact hnone
  next hbits => exact hscan.recvBits hbits w notificationSource

end

/-- The receive phase of a system call. -/
theorem recvSection (kind : RecvKind) (h : Held (some t) kind.endpoints s) (w : Option ObjPtr)
    (late : ℕ) :
  QueueInv (s.recvSection cpu kind t w late)
  := by
  cases kind with
  | one e => exact h.recvInner List.mem_cons_self _ w late
  | oneTimeout e timeoutNs => exact h.recvInner List.mem_cons_self _ w late
  | any es => exact h.recvAny _ w late
  | anyTimeout es timeoutNs => exact h.recvAny _ w late

/-- Completing a receive. -/
theorem recvDone {badge : ℕ} {keep : Bool} (h : Held (some t) es s) (he : e ∈ es) (copied : Bool)
    (hk : s.kont t = .recvTransfer kind e x msg badge keep q w)
    (hw : (s.kont t).Window s.endpoint) :
  QueueInv (s.recvDone cpu t copied)
  := by
  rw [hk] at hw
  obtain ⟨hstate, hrecv, hsend⟩ := hw
  simp only [System.recvDone, hk]
  split_ifs
  · have hmsg : Held (some t) es (s.transferMessage x t msg badge) := h.of_eq (by simp) (by simp)
    exact hmsg.recvFinish he kind msg badge keep w (by simpa using hrecv) (by simpa using hsend)
  have hwoken : ∀ {u}, Held (some t) es u → Held (some t) es (u.enqueueOpt cpu w) :=
    fun hu => hu.enqueueOpt cpu w
  refine (hwoken ?_).go rfl rfl (.of_none rfl)
  exact h.update he rfl (fun _ _ => rfl) (consistent_sendBlocked hrecv rfl)

/-! ## Replying -/

section

variable (h : Held (some t) kind.replyLocks s) (late : ℕ)
include h

/-- What follows a reply. -/
theorem afterReply (w : Option ObjPtr) :
  QueueInv (s.afterReply cpu kind t w late)
  := by
  cases kind with
  | one e => exact Held.recvSection (.one e) h w late
  | oneTimeout e timeoutNs => exact Held.recvSection (.oneTimeout e timeoutNs) h w late
  | any es => exact h.go rfl rfl (.of_none rfl)
  | anyTimeout es timeoutNs => exact h.go rfl rfl (.of_none rfl)

/-- The reply itself changes no endpoint. -/
theorem replyFinish (caller : ObjPtr) (msg : Message) :
  QueueInv (((s.transferMessage t caller msg 0).replyFinish t caller).afterReply cpu kind t
    (some caller) late)
  := by
  apply Held.afterReply
  exact h.of_eq (by simp) (by simp)

/-- Replying and receiving. -/
theorem replyRecv (reply : Message) :
  QueueInv (s.replyRecv cpu kind t reply late)
  := by
  unfold System.replyRecv
  split
  · exact h.afterReply late none
  split
  · dsimp only
    split_ifs
    · exact h.go rfl rfl (.of_none rfl)
    · exact h.replyFinish late _ _
    · exact h.go rfl rfl (.of_none rfl)
    · exact h.replyFinish late _ _
  · apply Held.afterReply
    exact h.of_eq rfl rfl

/-- Completing a reply. -/
theorem replyDone {caller : ObjPtr} (copied : Bool) (hk : s.kont t = .replyTransfer kind caller msg) :
  QueueInv (s.replyDone cpu t copied late)
  := by
  simp only [System.replyDone, hk]
  split_ifs
  · exact h.replyFinish late caller msg
  · exact h.go rfl rfl (.of_none rfl)

end

/-! ## Fastpaths -/

/-- The end of the fastpath of a call. -/
theorem fastpathCallTo (h : Held (some t) es s) (he : e ∈ es) (msg : Message) (badge : ℕ)
    (hstate : (s.endpoint e).state = .recvBlocked) :
  QueueInv (s.fastpathCallTo cpu t e r msg badge)
  := by
  have hs := (h.consistent e).sendQueue_of_recvBlocked hstate
  unfold System.fastpathCallTo
  refine h.set (k := .await .callReply) (p := { s.endpoint e with
    state := if (s.endpoint e).recvQueue.isEmpty then .idle else (s.endpoint e).state }) he ?_ ?_ ?_
    rfl
  · dsimp only
    split <;> simp
  · dsimp only
    split <;> simp
  · refine consistent_after_send (q := (s.endpoint e).recvQueue.isEmpty) hs (by simp) ?_
    simp only [hstate]

/-- The fastpath of a call. -/
theorem fastpathCall (h : Held (some t) es s) (he : e ∈ es) (msg : Message) (badge : ℕ)
    (hk : (s.kont t).transfersOn = none) :
  QueueInv (s.fastpathCall cpu t e msg badge).2
  := by
  unfold System.fastpathCall
  split_ifs with hslow
  · exact h.stay hk
  obtain ⟨-, hstate⟩ := not_or.mp hslow
  rw [not_not] at hstate
  split
  · exact h.stay hk
  rename_i r selected queue hqueue
  split_ifs
  · exact h.stay hk
  · exact Held.stay (t := t) (h.of_eq rfl rfl) hk
  generalize hm : (s.block t (.replyWait msg badge)).setReplyTcb r t true = m
  have hend : m.endpoint = s.endpoint := by rw [← hm]; rfl
  have hheld : Held (some t) es m := h.of_eq hend (by rw [← hm]; rfl)
  rw [← hend] at hqueue hstate
  dsimp only
  generalize hm' : (m.setEndpoint e fun ep => { ep with recvQueue := queue }).removeAllRecvWaits r
    selected = m'
  obtain ⟨htail, hshrunk⟩ := hheld.tail _ he hqueue hm'.symm
  have hready : Held (some t) es ((m'.setReceivedBy t (some r)).pipDonate t r) := htail.of_eq rfl rfl
  exact hready.fastpathCallTo he msg badge (hshrunk.state.trans hstate)

/-- The reply phase of a fastpath changes no endpoint. -/
theorem fastpathReply (h : Held a es s) (hreply : s.fastpathReply cpu t msg = some (w, s')) :
  Held a es s' ∧ s'.kont = s.kont
  := by
  unfold System.fastpathReply at hreply
  split at hreply
  · cases hreply
    exact ⟨h, rfl⟩
  split_ifs at hreply
  cases hreply
  exact ⟨h.of_eq rfl rfl, rfl⟩

/-- The end of the receive phase of a fastpath. -/
theorem fastpathRecvFrom (h : Held (some t) es s) (he : e ∈ es) (x : ObjPtr) (msg : Message)
    (badge : ℕ) (keep : Bool) (w : Option ObjPtr) (source : ℕ)
    (hstate : (s.endpoint e).state = .sendBlocked) :
  QueueInv (s.fastpathRecvFrom cpu t e x msg badge keep w source)
  := by
  have hr := (h.consistent e).recvQueue_of_sendBlocked hstate
  unfold System.fastpathRecvFrom
  refine h.set (k := .user) (p := { s.endpoint e with
    state := if (s.endpoint e).sendQueue.isEmpty then .idle else (s.endpoint e).state }) he ?_ ?_ ?_
    rfl
  · cases keep <;> simp
  · cases keep <;> simp
  · refine consistent_after_recv (q := (s.endpoint e).sendQueue.isEmpty) hr (by simp) ?_
    simp only [hstate]

/-- A fastpath gives up. -/
theorem giveUp (h : Held (some t) es s) (hk : (s.kont t).transfersOn = none) (w : Option ObjPtr) :
  QueueInv (s.enqueueOpt cpu w)
  := Held.stay (t := t) (h.enqueueOpt cpu w) (by simpa using hk)

/-- The fastpath of a reply with a receive on one endpoint. -/
theorem fastpathReplyRecv (h : Held (some t) es s) (he : e ∈ es) (reply : Message)
    (hk : (s.kont t).transfersOn = none) :
  QueueInv (s.fastpathReplyRecv cpu t e reply).2
  := by
  unfold System.fastpathReplyRecv
  split_ifs
  · exact h.stay hk
  split
  · exact h.stay hk
  rename_i w m hreply
  obtain ⟨hm, hmk⟩ := h.fastpathReply hreply
  rw [← hmk] at hk
  split_ifs with hstate
  · exact hm.giveUp hk w
  rw [not_not] at hstate
  split
  · exact hm.giveUp hk w
  rename_i x queue hqueue
  split
  · exact hm.giveUp hk w
  · obtain ⟨htaken, hstate'⟩ := hm.takeSender he hstate queue
    exact htaken.fastpathRecvFrom he x _ _ _ w 0 hstate'

/-- Looking for a sender on a fastpath. -/
theorem fastpathScan (cpu : ℕ) {l : List ObjPtr} (h : Held a es s) (hl : ∀ e ∈ l, e ∈ es) :
  Held a es (fastpathScan cpu l s).system ∧ (fastpathScan cpu l s).system.kont = s.kont ∧
    ∀ e x msg badge keep s', fastpathScan cpu l s = .found e x msg badge keep s' →
      e ∈ es ∧ (s'.endpoint e).state = .sendBlocked
  := by
  induction l generalizing s with
  | nil => exact ⟨h, rfl, nofun⟩
  | cons e l ih =>
    obtain ⟨he, hl⟩ := List.forall_mem_cons.mp hl
    unfold System.fastpathScan
    split_ifs with hstate
    · exact ih h hl
    rw [not_not] at hstate
    split
    next hs => exact ih (h.becomeIdle he hstate hs) hl
    rename_i x queue hqueue
    split
    · exact ⟨h, rfl, nofun⟩
    obtain ⟨htaken, hstate'⟩ := h.takeSender he hstate queue
    use htaken, rfl
    rintro e' x' msg badge keep s' ⟨⟩
    exact ⟨he, hstate'⟩

/-- The fastpath of a reply with a receive on several endpoints. -/
theorem fastpathReplyRecvAny (h : Held (some t) es s) (reply : Message)
    (hk : (s.kont t).transfersOn = none) :
  QueueInv (s.fastpathReplyRecvAny cpu t es reply).2
  := by
  unfold System.fastpathReplyRecvAny
  split_ifs
  · exact h.stay hk
  split
  · exact h.stay hk
  rename_i w m hreply
  obtain ⟨hm, hmk⟩ := h.fastpathReply hreply
  obtain ⟨hscan, hsk, hfound⟩ := hm.fastpathScan cpu (l := es) fun _ he => he
  rw [← hmk, ← hsk] at hk
  split
  next s' heq =>
    rw [heq] at hscan hk
    exact hscan.giveUp hk w
  next e x msg badge keep s' heq =>
    obtain ⟨he, hstate⟩ := hfound e x msg badge keep s' heq
    rw [heq] at hscan
    exact hscan.fastpathRecvFrom he x msg badge keep w _ hstate
  next s' heq =>
    rw [heq] at hscan hk
    split
    next s'' hbits =>
      obtain ⟨hend, hkont⟩ := takeBits_spec hbits
      exact (hscan.of_eq hend hkont).giveUp (by rwa [hkont]) w
    next hbits => exact hscan.recvBits hbits w notificationSource

/-! ## Faults -/

section

variable (h : Held a es s)
include h

/-- Queueing a sender. -/
theorem blockSender (he : e ∈ es) (reason : BlockedReason) (hr : (s.endpoint e).recvQueue = []) :
  Held a es (s.blockSender t e reason)
  := h.update he rfl (fun _ _ => rfl) (consistent_sendBlocked hr rfl)

/-- Handing over a fault. -/
theorem faultSection (he : e ∈ es) (msg : Message) (badge : ℕ) :
  Held a es (s.faultSection cpu t e msg badge)
  := by
  have hc := h.consistent e
  unfold System.faultSection
  split
  next hstate =>
    split
    next hpop => exact h.blockSender he _ (recvQueue_of_pop hpop)
    rename_i r s' hpop
    obtain ⟨hpopped, hstate', hsend'⟩ := h.popRecvWaiter he hpop
    rw [hc.sendQueue_of_recvBlocked hstate] at hsend'
    refine hpopped.update (p := { s'.endpoint e with state :=
      if (s'.endpoint e).recvQueue.isEmpty then .idle else (s'.endpoint e).state }) he (by simp)
      (fun _ _ => by simp) ?_
    refine consistent_after_send (q := (s'.endpoint e).recvQueue.isEmpty) hsend' (by simp) ?_
    simp only [hstate', hstate]
  next hstate => exact h.blockSender he _ (hc.recvQueue_eq_nil hstate)

/-! ## Taking a thread out of the queues -/

/-- A thread leaves the queues of an endpoint. -/
theorem removeFromQueue (he : e ∈ es) (t : ObjPtr) :
  Held a es (s.removeFromQueue e t)
  := by
  unfold System.removeFromQueue
  split_ifs with hmem
  · have hstate := (h.consistent e).send (List.ne_nil_of_mem hmem)
    have hr := (h.consistent e).recvQueue_of_sendBlocked hstate
    refine h.update he rfl (fun _ _ => rfl) ⟨?_, fun hne => absurd hr hne⟩
    intro hne
    dsimp only at hne ⊢
    rw [if_neg fun hboth => hne hboth.1]
    exact hstate
  · exact h.leave t _
  · exact h

/-- The second half of a signal. -/
theorem signalEndpoint (sig : Signal) (he : sig.endpoint ∈ es) :
  Held a es (s.signalEndpoint cpu sig)
  := by
  have hm : Held a es { s with signals := s.signals.erase sig } := h.of_eq rfl rfl
  unfold System.signalEndpoint interruptCallSend interruptRecv
  dsimp only
  split_ifs
  · exact (hm.removeFromQueue he sig.tcb).of_eq rfl rfl
  · exact hm
  · exact (hm.leave sig.tcb recvWaitSelectedNotification).of_eq rfl rfl
  · exact (hm.leave sig.tcb recvWaitSelectedNotification).of_eq rfl rfl
  · exact hm

/-- A thread leaves the endpoint it is blocked on. -/
theorem detachEndpoint (he : ∀ e, (s.tcb t).blockedEndpoint = some e → e ∈ es) :
  Held a es (s.detachEndpoint t)
  := by
  unfold System.detachEndpoint
  split
  · exact h
  rename_i e hblocked
  split_ifs
  · exact (h.leave t recvWaitSelectedNone).of_eq rfl rfl
  · exact (h.removeFromQueue (he e hblocked) t).of_eq rfl rfl

/-- A thread leaves everything it waits in. -/
theorem detachThreadWaitQueues (he : ∀ e, (s.tcb t).blockedEndpoint = some e → e ∈ es) :
  Held a es (s.detachThreadWaitQueues t)
  := by
  unfold System.detachThreadWaitQueues
  dsimp only
  generalize hm : (if (s.tcb t).blockedReason.any BlockedReason.isTimed then s.cancelTimer t else s) = m
  have hheld : Held a es m := by
    rw [← hm]
    split_ifs
    · exact h.of_eq rfl rfl
    · exact h
  have hblocked : (m.tcb t).blockedEndpoint = (s.tcb t).blockedEndpoint := by
    rw [← hm]
    split_ifs <;> simp
  apply (hheld.detachEndpoint (t := t) (hblocked ▸ he)).of_eq
  · split_ifs <;> simp
  · split_ifs <;> simp

/-- A thread whose time is up leaves the endpoint it is blocked on. -/
theorem timeoutEndpoint (he : e ∈ es) (t : ObjPtr) :
  Held a es (s.timeoutEndpoint t e)
  := by
  unfold System.timeoutEndpoint
  split_ifs
  · exact (h.leave t recvWaitSelectedNone).of_eq rfl rfl
  · exact (h.removeFromQueue he t).of_eq rfl rfl

/-- Waking a thread whose time is up. -/
theorem wakeExpired (he : ∀ e, (s.tcb t).blockedEndpoint = some e → e ∈ es) :
  Held a es (s.wakeExpired cpu t)
  := by
  unfold System.wakeExpired
  generalize hm : ({ s with expired := s.expired.erase t }.setTcb t fun th =>
    { th with timerWakeupNs := 0 }) = m
  have hheld : Held a es m := by
    rw [← hm]
    exact h.of_eq rfl rfl
  have hblocked : (m.tcb t).blockedEndpoint = (s.tcb t).blockedEndpoint := by
    rw [← hm]
    simp
  rw [← hblocked] at he
  dsimp only
  split
  · exact hheld.of_eq (by simp) (by simp)
  · split
    · exact hheld
    next e hsome => exact (hheld.timeoutEndpoint (he e hsome) t).of_eq rfl rfl
  · split
    · exact hheld
    next e hsome => exact (hheld.timeoutEndpoint (he e hsome) t).of_eq rfl rfl
  · exact hheld.of_eq rfl rfl

/-- Suspending a thread. -/
theorem tcbSuspend (current : ObjPtr) (he : ∀ e, (s.tcb t).blockedEndpoint = some e → e ∈ es) :
  Held a es (s.tcbSuspend current t)
  := by
  have hdetach : ∀ sched, Held a es ({ s with sched := sched }.detachThreadWaitQueues t) :=
    fun sched => Held.detachThreadWaitQueues (s := { s with sched := sched }) (h.of_eq rfl rfl) he
  unfold System.tcbSuspend
  dsimp only
  split
  · split_ifs
    · exact h.of_eq rfl rfl
    · exact (hdetach _).of_eq rfl rfl
  · exact h.of_eq rfl rfl
  · exact (hdetach _).of_eq rfl rfl
  · exact (hdetach _).of_eq rfl rfl
  · exact h.of_eq rfl rfl

/-- Resuming a thread. -/
theorem tcbResume (he : ∀ e, (s.tcb t).blockedEndpoint = some e → e ∈ es) :
  Held a es (s.tcbResume cpu t)
  := by
  unfold System.tcbResume
  split
  · exact h
  · exact h
  · exact h.of_eq rfl rfl
  · exact (h.detachThreadWaitQueues he).of_eq rfl rfl

/-! ## The end of an endpoint -/

/-- Waking all senders. -/
theorem wakeSenders (cpu : ℕ) (he : e ∈ es) {queue : List ObjPtr} (hq : (s.endpoint e).sendQueue = queue) :
  Held a es (wakeSenders cpu e queue s) ∧ ((wakeSenders cpu e queue s).endpoint e).sendQueue = []
  := by
  induction queue generalizing s with
  | nil => exact ⟨h, hq⟩
  | cons t queue ih =>
    have hstate := (h.consistent e).send (by simp [hq])
    apply ih
    · exact (h.takeSender he hstate queue).1.of_eq (by simp) (by simp)
    · simp

/-- Waking all receivers. -/
theorem wakeReceivers (cpu : ℕ) (he : e ∈ es) (hs : (s.endpoint e).sendQueue = []) {n : ℕ}
    (hn : (s.endpoint e).recvQueue.length ≤ n) :
  Held a es (wakeReceivers cpu e n s) ∧ ((wakeReceivers cpu e n s).endpoint e).sendQueue = []
    ∧ ((wakeReceivers cpu e n s).endpoint e).recvQueue = []
  := by
  induction n generalizing s with
  | zero => exact ⟨h, hs, List.length_eq_zero_iff.mp (Nat.le_zero.mp hn)⟩
  | succ n ih =>
    unfold System.wakeReceivers
    split
    next hnil => exact ⟨h, hs, hnil⟩
    rename_i t selected queue hqueue
    obtain ⟨htail, hshrunk⟩ := h.tail (r := t) recvWaitSelectedNone he hqueue rfl
    apply ih
    · exact htail.of_eq (by simp) (by simp)
    · simpa using hshrunk.sendQueue.trans hs
    have hlen := hshrunk.recvQueue.length_le
    rw [hqueue, List.length_cons] at hn
    simpa using Nat.le_trans hlen (Nat.le_of_succ_le_succ hn)

/-- Destroying an endpoint. -/
theorem endpointCleanup (he : e ∈ es) :
  Held a es (s.endpointCleanup cpu e)
  := by
  obtain ⟨hsenders, hsend⟩ := h.wakeSenders cpu he rfl
  obtain ⟨hreceivers, hsend, hrecv⟩ := hsenders.wakeReceivers cpu he hsend (Nat.le_refl _)
  exact hreceivers.update he rfl (fun _ _ => rfl) (consistent_of_nil hsend hrecv)

end

end Held

end SaltyOS.Ipc
