import SaltyOS.Ipc.FastpathResult

/-!
# Replying and receiving with a fastpath

The fastpaths of `ReplyRecv` and `ReplyRecvAny` are compared with the general versions. Both search for
a sender in the same way. They agree exactly if the caller that is replied to is blocked, no payload of a
request to execute a program has to be copied, and no message that was sent without blocking goes before
the bits of a notification.
-/

open Function

namespace SaltyOS.Ipc

namespace System

variable {s : System}
variable {cpu badge : ℕ} {t e x n : ObjPtr} {w : Option ObjPtr} {msg reply : Message}
  {keep : Bool} {es : List ObjPtr} {k m m' : System}

/-! ## Receiving after the reply -/

/-- Two states that differ in the reserved areas, and in what the threads are doing. -/
structure SameUpToPayload (s s' : System) : Prop where
  result : s'.result = { s.result with reserved := s'.reserved }
  buffer : ∀ u, (s'.tcb u).ipcBuffer = (s.tcb u).ipcBuffer

/-- A sender from which a fastpath receives offers a message that fits in the registers. -/
theorem fastOffer_of_sender (h : s.fastpathSender cpu x = some (msg, badge, keep)) :
  BlockedReason.fastOffer (s.tcb x).blockedReason = some (msg, badge, keep) ∧ msg.isSlow = false
  := by
  unfold fastpathSender at h
  split_ifs at h
  simpa using h

/-- The two versions of a receive agree up to the reserved areas. -/
theorem recvFrom_sameUpToPayload {s' : System} (h : SameUpToPayload s s') (kind : RecvKind)
    (hstate : (s.endpoint e).state = .sendBlocked)
    (hoffer : s.fastpathSender cpu x = some (msg, badge, keep))
    (hw : ∀ c, w = some c → s.result.states c = .ready) :
  (s'.recvFrom cpu kind t e x w).result =
    { (s.fastpathRecvFrom cpu t e x msg badge keep w (kind.source e)).result with
      reserved := (s'.transferExecPayload x t msg).reserved }
  := by
  have hfast := fastOffer_of_sender hoffer
  have hreason : (s'.tcb x).blockedReason = (s.tcb x).blockedReason :=
    congrFun (congrArg Result.reason h.result) x
  have hw' : ∀ c, w = some c → s'.result.states c = .ready := by
    rw [h.result]
    exact hw
  rw [recvFrom_result cpu kind t e x w (hreason ▸ hfast.1) hfast.2 hw',
    fastpathRecvFrom_result cpu t e x msg badge keep w (kind.source e) hstate hw, h.result]
  rfl

/-- The first sender that waits at one of several endpoints. -/
def firstSender (s : System) (es : List ObjPtr) : Option ObjPtr :=
  es.findSome? fun e =>
    if (s.endpoint e).state = .sendBlocked then (s.endpoint e).sendQueue.head? else none

/-- An endpoint without senders becomes idle. -/
theorem firstSender_setEndpoint (hqueue : (s.endpoint e).sendQueue = []) (es : List ObjPtr) :
  (s.setEndpoint e fun ep => { ep with state := .idle }).firstSender es = s.firstSender es
  := by
  unfold firstSender
  congr 1
  funext u
  obtain rfl | hne := eq_or_ne u e
  · simp [setEndpoint, hqueue]
  · simp [setEndpoint, hne]

/-- An endpoint at which no sender waits. -/
theorem firstSender_cons (h : (s.endpoint e).state = .sendBlocked → (s.endpoint e).sendQueue = []) :
  s.firstSender (e :: es) = s.firstSender es
  := by
  unfold firstSender
  rw [List.findSome?_cons]
  split_ifs with hstate
  · rw [h hstate]
    rfl
  · rfl

/-- What the two versions of the search for a sender have in common, unless the fastpath gives up. -/
def ScanAgrees (cpu : ℕ) (es : List ObjPtr) (s k : System) : FastScan → Prop
  | .giveUp _ => True
  | .found e x msg badge keep m =>
    s.firstSender es = some x ∧ s.fastpathSender cpu x = some (msg, badge, keep)
      ∧ m = { s with endpoint := m.endpoint } ∧ (m.endpoint e).state = .sendBlocked
      ∧ scanSenders es k = (some (e, x), { k with endpoint := m.endpoint })
  | .none m =>
    s.firstSender es = none ∧ m = { s with endpoint := m.endpoint }
      ∧ (∀ e, (m.endpoint e).nbsend = (s.endpoint e).nbsend)
      ∧ scanSenders es k = (none, { k with endpoint := m.endpoint })

theorem scanAgrees (hendpoint : k.endpoint = s.endpoint) {r : FastScan}
    (h : fastpathScan cpu es s = r) :
  ScanAgrees cpu es s k r
  := by
  subst h
  induction es generalizing s k with
  | nil =>
    use rfl, rfl, fun _ => rfl
    rw [← hendpoint]
    rfl
  | cons u es ih =>
    unfold ScanAgrees fastpathScan scanSenders
    rw [hendpoint]
    by_cases hstate : (s.endpoint u).state = .sendBlocked
    · rw [if_neg (not_not.mpr hstate), if_pos hstate]
      cases hqueue : (s.endpoint u).sendQueue with
      | nil =>
        have hidle : (k.setEndpoint u fun ep => { ep with state := .idle }).endpoint =
            (s.setEndpoint u fun ep => { ep with state := .idle }).endpoint := by
          simp only [setEndpoint, hendpoint]
        have hnbsend : ∀ e, ((s.setEndpoint u fun ep => { ep with state := .idle }).endpoint e).nbsend =
            (s.endpoint e).nbsend := by
          intro e
          obtain rfl | hne := eq_or_ne e u
          · simp [setEndpoint]
          · simp [setEndpoint, hne]
        have hnext := ih hidle
        unfold ScanAgrees at hnext
        rw [firstSender_setEndpoint hqueue] at hnext
        simp only [hnbsend] at hnext
        rw [firstSender_cons fun _ => hqueue]
        exact hnext
      | cons sender queue =>
        dsimp only
        rcases hsender : s.fastpathSender cpu sender with _ | offer
        · trivial
        refine ⟨?_, hsender, rfl, ?_, ?_⟩
        · simp [firstSender, hstate, hqueue]
        · simp [setEndpoint, hstate]
        · simp only [setEndpoint, hendpoint]
    · rw [if_pos hstate, if_neg hstate, firstSender_cons fun hsend => absurd hsend hstate]
      exact ih hendpoint

/-- The messages a thread delivers and receives when it replies and receives on several endpoints. -/
def replyRecvTransfers (s : System) (t : ObjPtr) (es : List ObjPtr) (reply : Message) :
    List (ObjPtr × ObjPtr × Message) :=
  s.replyTransfers t reply ++
    match s.firstSender es with
    | none => []
    | some x => [(x, t, (BlockedReason.offer (s.tcb x).blockedReason).1)]

theorem replyRecvTransfers_eq (hfirst : s.firstSender es = some x)
    (hoffer : BlockedReason.fastOffer (s.tcb x).blockedReason = some (msg, badge, keep)) :
  s.replyRecvTransfers t es reply = s.replyTransfers t reply ++ [(x, t, msg)]
  := by
  unfold replyRecvTransfers
  rw [hfirst]
  dsimp only
  rw [offer_eq_of_fastOffer hoffer]

/-- Copying the payloads of messages would not change the reserved areas. -/
def PayloadsKept (s : System) (l : List (ObjPtr × ObjPtr × Message)) : Prop :=
  (s.copyPayloads l).reserved = s.reserved

/-- Results that differ in the reserved areas only. -/
theorem Result.eq_with_reserved {r : Result} {a : PhysAddr → List ℕ} :
  r = { r with reserved := a } ↔ a = r.reserved
  := by
  constructor
  · intro h
    exact (congrArg Result.reserved h).symm
  · rintro rfl
    rfl

/-- The messages that are received after a reply come from threads that are not replied to. -/
theorem fastpathSender_reason (h : s.fastpathReply cpu t reply = some (w, m))
    (hsender : m.fastpathSender cpu x = some (msg, badge, keep)) :
  BlockedReason.fastOffer (s.tcb x).blockedReason = some (msg, badge, keep) ∧ msg.isSlow = false
    ∧ ∀ c, w = some c → c ≠ x
  := by
  have hfast := fastOffer_of_sender hsender
  cases w with
  | none =>
    obtain ⟨-, rfl⟩ := fastpathReply_none h
    exact ⟨hfast.1, hfast.2, nofun⟩
  | some c =>
    have hreason : (m.tcb x).blockedReason = update s.result.reason c none x :=
      congrFun (fastpathReply_some h).reason_none x
    have hne : c ≠ x := by
      rintro rfl
      rw [hreason, update_self] at hfast
      cases hfast.1
    rw [hreason, update_of_ne hne.symm] at hfast
    use hfast.1, hfast.2
    rintro _ ⟨⟩
    exact hne

/-- A caller that is not blocked is replied to by the fastpath only. -/
theorem caller_of_not_blocked (h : s.fastpathReply cpu t reply = some (w, m))
    (hblocked : ¬ CallerBlocked s t) :
  ∃ c, w = some c ∧ (s.tcb t).replyTcb = some c ∧ s.state c ≠ .blocked
    ∧ m.result.reason c = none ∧ s.result.reason c ≠ none
  := by
  unfold CallerBlocked at hblocked
  push Not at hblocked
  obtain ⟨c, hreply, hstate⟩ := hblocked
  cases w with
  | none =>
    rw [(fastpathReply_none h).1] at hreply
    cases hreply
  | some d =>
    have hreplied := fastpathReply_some h
    obtain rfl : d = c := Option.some.inj (hreplied.replyTcb.symm.trans hreply)
    refine ⟨d, rfl, hreply, hstate, ?_, ?_⟩
    · rw [hreplied.reason_none, update_self]
    intro hnone
    have hreason := hreplied.reason
    rw [show (s.tcb d).blockedReason = none from hnone] at hreason
    cases hreason

/-- The areas after the reply and the receive. -/
theorem transferExecPayload_after_reply (msg : Message) (h : s.fastpathReply cpu t reply = some (w, m))
    (hreserved : k.reserved = (s.copyPayloads (s.replyTransfers t reply)).reserved)
    (htcb : k.tcb = m.tcb) :
  (k.transferExecPayload x t msg).reserved =
    (s.copyPayloads (s.replyTransfers t reply ++ [(x, t, msg)])).reserved
  := by
  obtain ⟨-, -, -, hbuffer, -⟩ := fastpathReply_frame h
  have hcopy : ∀ u, ((s.copyPayloads (s.replyTransfers t reply)).tcb u).ipcBuffer =
      (s.tcb u).ipcBuffer := by
    intro u
    unfold copyPayloads replyTransfers
    split
    · rfl
    · rw [List.foldl_cons, List.foldl_nil, transferExecPayload_eq]
  have hfold : s.copyPayloads (s.replyTransfers t reply ++ [(x, t, msg)]) =
      (s.copyPayloads (s.replyTransfers t reply)).transferExecPayload x t msg := by
    unfold copyPayloads
    rw [List.foldl_append]
    rfl
  rw [hfold]
  apply transferExecPayload_reserved_congr
  · exact hreserved
  · intro u
    rw [htcb, hbuffer, hcopy]

/-- The receive phases of the two versions, when the fastpath has found a sender: `finish` is what the
general version does after its reply, and `l` what it leads to. -/
theorem recv_result_iff {kind : RecvKind} {l : System} {endpoint : ObjPtr → Endpoint}
    {finish : System → Option ObjPtr → System} (h : s.fastpathReply cpu t reply = some (w, m))
    (hsender : m.fastpathSender cpu x = some (msg, badge, keep))
    (hstate : (endpoint e).state = .sendBlocked)
    (hfinish : ∀ k w', k.endpoint = s.endpoint → ∃ kont,
      finish k w' = { k with kont, endpoint }.recvFrom cpu kind t e x w')
    (hreplied : CallerBlocked s t → l =
      finish { m with reserved := (s.copyPayloads (s.replyTransfers t reply)).reserved } w)
    (hdropped : ¬ CallerBlocked s t → l = finish (s.dropReply t) none) :
  ({ m with endpoint }.fastpathRecvFrom cpu t e x msg badge keep w (kind.source e)).result = l.result
    ↔ CallerBlocked s t ∧ s.PayloadsKept (s.replyTransfers t reply ++ [(x, t, msg)])
  := by
  obtain ⟨hoffer, hslow, hother⟩ := fastpathSender_reason h hsender
  obtain ⟨hendpoint, -, hreserved, -, -⟩ := fastpathReply_frame h
  have hw := fastpathReply_ready h
  have hfast := fastpathRecvFrom_result (s := { m with endpoint }) cpu t e x msg badge keep w
    (kind.source e) hstate hw
  by_cases hblocked : CallerBlocked s t
  · obtain ⟨kont, hk⟩ := hfinish
      { m with reserved := (s.copyPayloads (s.replyTransfers t reply)).reserved } w hendpoint
    have hsame : SameUpToPayload { m with endpoint } { m with
        reserved := (s.copyPayloads (s.replyTransfers t reply)).reserved, kont, endpoint } :=
      ⟨rfl, fun _ => rfl⟩
    have hpayload := transferExecPayload_after_reply (x := x) (k := { m with
      reserved := (s.copyPayloads (s.replyTransfers t reply)).reserved, kont, endpoint }) msg h rfl rfl
    rw [hreplied hblocked, hk, recvFrom_sameUpToPayload hsame kind hstate hsender hw,
      Result.eq_with_reserved, hfast, hpayload]
    unfold PayloadsKept
    rw [← hreserved]
    exact (and_iff_right hblocked).symm
  · obtain ⟨c, rfl, -, -, hnone, hsome⟩ := caller_of_not_blocked h hblocked
    obtain ⟨kont, hk⟩ := hfinish (s.dropReply t) none rfl
    refine iff_of_false ?_ fun hboth => hblocked hboth.1
    have hdrop : ((s.dropReply t).tcb x).blockedReason = (s.tcb x).blockedReason :=
      congrFun (congrArg Result.reason (dropReply_result (s := s) t)) x
    have hgeneral := recvFrom_result (s := { s.dropReply t with kont, endpoint }) cpu kind t e x none
      (hdrop ▸ hoffer) hslow nofun
    rw [hdropped hblocked, hk, hfast, hgeneral]
    intro heq
    have hc := congrFun (congrArg Result.reason heq) c
    simp only [recvResult, update_of_ne (hother c rfl)] at hc
    have hkeep : (s.dropReply t).result.reason c = s.result.reason c := by rw [dropReply_result]
    apply hsome
    rw [← hkeep, ← hnone]
    exact hc.symm

/-- A fastpath that replies and receives on one endpoint finds a sender. -/
theorem fastpathReplyRecv_true (h : (s.fastpathReplyRecv cpu t e reply).1 = true) :
  reply.isSlow = false ∧ ∃ w m x queue msg badge keep, s.fastpathReply cpu t reply = some (w, m)
    ∧ (m.endpoint e).state = .sendBlocked ∧ (m.endpoint e).sendQueue = x :: queue
    ∧ m.fastpathSender cpu x = some (msg, badge, keep)
    ∧ (s.fastpathReplyRecv cpu t e reply).2 =
      (m.setEndpoint e fun ep => { ep with sendQueue := queue }).fastpathRecvFrom cpu t e x msg badge
        keep w 0
  := by
  unfold fastpathReplyRecv at h ⊢
  split_ifs at h ⊢ with hslow
  rw [Bool.not_eq_true] at hslow
  use hslow
  split at h
  · cases h
  rename_i w m hreply
  split_ifs at h ⊢ with hstate
  rw [not_not] at hstate
  split at h
  · cases h
  rename_i x queue hqueue
  split at h
  · cases h
  · rename_i msg badge keep hsender
    exact ⟨w, m, x, queue, msg, badge, keep, hreply, hstate, hqueue, hsender, rfl⟩

/-- The two versions of the system call that replies and receives on one endpoint. -/
theorem fastpathReplyRecv_result_iff (hcaps : reply.caps = List.replicate 4 0)
    (h : (s.fastpathReplyRecv cpu t e reply).1 = true) :
  (s.fastpathReplyRecv cpu t e reply).2.result = (s.replyRecv cpu (.one e) t reply 0).result
    ↔ CallerBlocked s t ∧ s.PayloadsKept (s.replyRecvTransfers t [e] reply)
  := by
  obtain ⟨hslow, w, m, x, queue, msg, badge, keep, hreply, hstate, hqueue, hsender, heq⟩ :=
    fastpathReplyRecv_true h
  obtain ⟨hendpoint, -⟩ := fastpathReply_frame hreply
  obtain ⟨hoffer, -, -⟩ := fastpathSender_reason hreply hsender
  have hfirst : s.firstSender [e] = some x := by
    rw [hendpoint] at hstate hqueue
    simp [firstSender, hstate, hqueue]
  have hfinish : ∀ (k : System) (w' : Option ObjPtr), k.endpoint = s.endpoint →
      ∃ kont, k.afterReply cpu (.one e) t w' 0 =
        { k with kont, endpoint := (m.setEndpoint e fun ep => { ep with sendQueue := queue }).endpoint
          }.recvFrom cpu (.one e) t e x w' := by
    intro k w' hk
    have hkm : k.endpoint = m.endpoint := by rw [hk, hendpoint]
    use k.kont
    unfold afterReply recvSection recvInner
    simp only [hkm, hstate, hqueue]
    unfold setEndpoint
    rw [hkm]
  have hiff := recv_result_iff (e := e) (l := s.replyRecv cpu (.one e) t reply 0) hreply hsender
    (by simp [setEndpoint, hstate]) hfinish (replyRecv_eq hreply hslow hcaps) ?_
  · rw [heq, replyRecvTransfers_eq hfirst hoffer]
    exact hiff
  · intro hblocked
    obtain ⟨c, -, hc, hnot, -, -⟩ := caller_of_not_blocked hreply hblocked
    exact replyRecv_eq_of_not_blocked hc hnot

/-- A fastpath that replies and receives on several endpoints finds a sender, or bits in the bound
notification. -/
theorem fastpathReplyRecvAny_true (h : (s.fastpathReplyRecvAny cpu t es reply).1 = true) :
  reply.isSlow = false ∧ ∃ w m, s.fastpathReply cpu t reply = some (w, m)
    ∧ ((∃ e x msg badge keep m', fastpathScan cpu es m = .found e x msg badge keep m'
        ∧ (s.fastpathReplyRecvAny cpu t es reply).2 =
          m'.fastpathRecvFrom cpu t e x msg badge keep w (es.idxOf e))
      ∨ ∃ m', fastpathScan cpu es m = .none m' ∧ (m'.takeBits t).1 ≠ 0
        ∧ (s.fastpathReplyRecvAny cpu t es reply).2 =
          ((m'.takeBits t).2.enqueueOpt cpu w).ret t .empty (m'.takeBits t).1 notificationSource)
  := by
  unfold fastpathReplyRecvAny at h ⊢
  split_ifs at h ⊢ with hslow
  rw [Bool.not_eq_true] at hslow
  use hslow
  split at h
  · cases h
  rename_i w m hreply
  use w, m, hreply
  split at h
  · cases h
  · rename_i e x msg badge keep m' hscan
    exact .inl ⟨e, x, msg, badge, keep, m', hscan, rfl⟩
  rename_i m' hscan
  split at h
  · cases h
  rename_i bits m'' hzero hbits
  refine .inr ⟨m', hscan, ?_, ?_⟩
  · rw [hbits]
    exact fun hnil => hzero (hnil ▸ rfl)
  · rw [hbits]

/-- The general version of the system call that replies and receives on several endpoints, whose
phases are separate critical sections. -/
def replyRecvAny (s : System) (cpu : ℕ) (t : ObjPtr) (es : List ObjPtr) (reply : Message) :
    System :=
  (s.replyRecv cpu (.any es) t reply 0).recvPhase cpu t 0

/-- The phases of the general version on several endpoints. -/
theorem recvPhase_afterReply (cpu : ℕ) (t : ObjPtr) (es : List ObjPtr) (w : Option ObjPtr) :
  (s.afterReply cpu (.any es) t w 0).recvPhase cpu t 0 =
    (s.setKont t (.recvPhase (.any es) w)).recvAny cpu (.any es) es t w 0
  := by
  simp [afterReply, recvPhase, recvSection, setKont]

/-- The two versions when the fastpath finds a sender. -/
theorem fastpathReplyRecvAny_found (hcaps : reply.caps = List.replicate 4 0)
    (hslow : reply.isSlow = false) (hreply : s.fastpathReply cpu t reply = some (w, m))
    (hscan : fastpathScan cpu es m = .found e x msg badge keep m') :
  (m'.fastpathRecvFrom cpu t e x msg badge keep w (es.idxOf e)).result =
      (s.replyRecvAny cpu t es reply).result
    ↔ CallerBlocked s t ∧ s.PayloadsKept (s.replyRecvTransfers t es reply)
  := by
  obtain ⟨hendpoint, -⟩ := fastpathReply_frame hreply
  obtain ⟨hfirst, hsender, hm', hstate, -⟩ := scanAgrees (k := m) rfl hscan
  obtain ⟨hoffer, -, -⟩ := fastpathSender_reason hreply hsender
  have hfirst' : s.firstSender es = some x := by
    rw [← hfirst]
    unfold firstSender
    rw [hendpoint]
  have hfinish : ∀ (k : System) (w' : Option ObjPtr), k.endpoint = s.endpoint →
      ∃ kont, (k.afterReply cpu (.any es) t w' 0).recvPhase cpu t 0 =
        { k with kont, endpoint := m'.endpoint }.recvFrom cpu (.any es) t e x w' := by
    intro k w' hk
    have hkm : (k.setKont t (.recvPhase (.any es) w')).endpoint = m.endpoint := hk.trans hendpoint.symm
    obtain ⟨-, -, -, -, hgeneral⟩ := scanAgrees hkm hscan
    use (k.setKont t (.recvPhase (.any es) w')).kont
    rw [recvPhase_afterReply]
    unfold recvAny
    rw [hgeneral]
    rfl
  have hiff := recv_result_iff (l := s.replyRecvAny cpu t es reply) hreply hsender hstate hfinish ?_ ?_
  · rw [replyRecvTransfers_eq hfirst' hoffer, hm']
    exact hiff
  · intro hblocked
    unfold replyRecvAny
    rw [replyRecv_eq hreply hslow hcaps hblocked]
  · intro hblocked
    obtain ⟨c, -, hc, hnot, -, -⟩ := caller_of_not_blocked hreply hblocked
    unfold replyRecvAny
    rw [replyRecv_eq_of_not_blocked hc hnot]

/-- Taking the bits of a notification. -/
theorem takeBits_result (hbound : (s.tcb t).boundNotification = some n) :
  (s.takeBits t).1 = s.result.bits n
    ∧ (s.takeBits t).2.result = { s.result with bits := update s.result.bits n 0 }
  := by
  unfold takeBits
  rw [hbound]
  use rfl
  ext1
  case bits =>
    funext u
    obtain rfl | hne := eq_or_ne u n
    · simp [result, setNotification]
    · simp [result, setNotification, hne]
  all_goals rfl

/-- Waking the caller and returning. -/
theorem enqueueOpt_ret_result (msg : Message) (badge source : ℕ)
    (hw : ∀ c, w = some c → s.result.states c = .ready) :
  ((s.enqueueOpt cpu w).ret t msg badge source).result =
    { s.result with returned := update s.result.returned t (msg, badge, source) }
  := by
  rw [ret_result, enqueueOpt_result cpu hw]

/-- What the general version does on several endpoints when no sender waits: it takes a message that was
sent without blocking, or the bits of the bound notification. -/
theorem recvAny_result (cpu : ℕ) (hscan : scanSenders es s = (none, k))
    (hbound : (k.tcb t).boundNotification = some n) (hbits : k.result.bits n ≠ 0)
    (hw : ∀ c, w = some c → k.result.states c = .ready) :
  (s.recvAny cpu (.any es) es t w 0).result.reason = k.result.reason
    ∧ ((∃ e ∈ es, (k.endpoint e).nbsend ≠ []) →
      (s.recvAny cpu (.any es) es t w 0).result.bits = k.result.bits)
    ∧ ((∀ e ∈ es, (k.endpoint e).nbsend = []) → (s.recvAny cpu (.any es) es t w 0).result =
      { k.result with
        bits := update k.result.bits n 0
        returned := update k.result.returned t (.empty, k.result.bits n, notificationSource) })
  := by
  obtain ⟨hfst, hsnd⟩ := takeBits_result hbound
  unfold recvAny
  rw [hscan]
  dsimp only
  cases hnbsend : k.scanNbsend es with
  | some e =>
    have hmem := List.mem_of_find?_eq_some hnbsend
    have hsome := List.find?_some hnbsend
    simp only [Bool.not_eq_true', List.isEmpty_eq_false_iff] at hsome
    rw [enqueueOpt_ret_result (s := k.setEndpoint e fun ep => { ep with nbsend := ep.nbsend.tail })
      _ _ _ hw]
    refine ⟨rfl, fun _ => rfl, fun hall => absurd (hall e hmem) hsome⟩
  | none =>
    have hempty := List.find?_eq_none.mp hnbsend
    simp only [Bool.not_eq_true', Bool.not_eq_false, List.isEmpty_iff] at hempty
    dsimp only
    split
    · rename_i hzero
      rw [hzero] at hfst
      exact absurd hfst.symm hbits
    rename_i bits m hne htake
    rw [htake] at hfst hsnd
    have hready : ∀ c, w = some c → m.result.states c = .ready := by
      rw [hsnd]
      exact hw
    rw [enqueueOpt_ret_result _ _ _ hready, hsnd, ← hfst]
    refine ⟨rfl, ?_, fun _ => rfl⟩
    rintro ⟨e, he, hcons⟩
    exact absurd (hempty e he) hcons

/-- The receive phase of the general version, when the fastpath finds no sender. -/
theorem recvPhase_result (hscan : fastpathScan cpu es m = .none m')
    (hendpoint : k.endpoint = m.endpoint) (hbound : (k.tcb t).boundNotification = some n)
    (hbits : k.result.bits n ≠ 0) (hw : ∀ c, w = some c → k.result.states c = .ready) :
  ((k.afterReply cpu (.any es) t w 0).recvPhase cpu t 0).result.reason = k.result.reason
    ∧ ((∃ e ∈ es, (k.endpoint e).nbsend ≠ []) →
      ((k.afterReply cpu (.any es) t w 0).recvPhase cpu t 0).result.bits = k.result.bits)
    ∧ ((∀ e ∈ es, (k.endpoint e).nbsend = []) →
      ((k.afterReply cpu (.any es) t w 0).recvPhase cpu t 0).result =
        { k.result with
          endpoint := m'.endpoint
          bits := update k.result.bits n 0
          returned := update k.result.returned t (.empty, k.result.bits n, notificationSource) })
  := by
  obtain ⟨-, -, hnbsend, hgeneral⟩ := scanAgrees
    (k := k.setKont t (.recvPhase (.any es) w)) hendpoint hscan
  have hresult := recvAny_result cpu hgeneral hbound hbits hw
  simp only [hnbsend, ← hendpoint] at hresult
  rw [recvPhase_afterReply]
  exact hresult

/-- The two versions when the fastpath takes the bits of the bound notification. -/
theorem fastpathReplyRecvAny_bits (hcaps : reply.caps = List.replicate 4 0)
    (hslow : reply.isSlow = false) (hreply : s.fastpathReply cpu t reply = some (w, m))
    (hscan : fastpathScan cpu es m = .none m') (hbits : (m'.takeBits t).1 ≠ 0) :
  (((m'.takeBits t).2.enqueueOpt cpu w).ret t .empty (m'.takeBits t).1 notificationSource).result =
      (s.replyRecvAny cpu t es reply).result
    ↔ CallerBlocked s t ∧ s.PayloadsKept (s.replyTransfers t reply)
      ∧ ∀ e ∈ es, (s.endpoint e).nbsend = []
  := by
  obtain ⟨hendpoint, hnotification, hreserved, -, hbound⟩ := fastpathReply_frame hreply
  obtain ⟨-, hm', -, -⟩ := scanAgrees (k := m) rfl hscan
  have hw := fastpathReply_ready hreply
  obtain ⟨n, hn⟩ : ∃ n, (m.tcb t).boundNotification = some n := by
    by_contra hnone
    unfold takeBits at hbits
    rw [hm', Option.eq_none_iff_forall_ne_some.mpr fun n hn => hnone ⟨n, hn⟩] at hbits
    exact hbits rfl
  have hmresult : m'.result = { m.result with endpoint := m'.endpoint } := congrArg result hm'
  obtain ⟨hfst, hsnd⟩ := takeBits_result (s := m') (t := t) (n := n) (hm' ▸ hn)
  have hready : ∀ c, w = some c → (m'.takeBits t).2.result.states c = .ready := by
    rw [hsnd, hmresult]
    exact hw
  rw [enqueueOpt_ret_result _ _ _ hready, hsnd, hfst, hmresult]
  rw [hfst, hmresult] at hbits
  unfold replyRecvAny
  by_cases hblocked : CallerBlocked s t
  · obtain ⟨-, hqueued, hnone⟩ := recvPhase_result
      (k := { m with reserved := (s.copyPayloads (s.replyTransfers t reply)).reserved })
      hscan rfl hn hbits hw
    rw [replyRecv_eq hreply hslow hcaps hblocked, ← hendpoint]
    by_cases hempty : ∀ e ∈ es, (m.endpoint e).nbsend = []
    · have hkept := Result.eq_with_reserved (a := (s.copyPayloads (s.replyTransfers t reply)).reserved)
        (r := { m.result with
          endpoint := m'.endpoint
          bits := update m.result.bits n 0
          returned := update m.result.returned t (.empty, m.result.bits n, notificationSource) })
      rw [hnone hempty]
      apply Iff.trans hkept
      unfold PayloadsKept
      rw [← hreserved]
      exact ⟨fun hkept => ⟨hblocked, hkept, hempty⟩, fun hall => hall.2.1⟩
    · push Not at hempty
      refine iff_of_false ?_ fun hall => ?_
      · intro heq
        have hn' := congrFun (congrArg Result.bits heq) n
        rw [hqueued hempty] at hn'
        simp only [update_self] at hn'
        exact hbits hn'.symm
      · obtain ⟨e, he, hcons⟩ := hempty
        exact hcons (hall.2.2 e he)
  · obtain ⟨c, rfl, hc, hnot, hnone, hsome⟩ := caller_of_not_blocked hreply hblocked
    have hbound' : ((s.dropReply t).tcb t).boundNotification = some n := by
      rw [← hn, hbound]
      simp [dropReply, setTcb]
    have hbits' : (s.dropReply t).result.bits n ≠ 0 := by
      have hsame : (s.dropReply t).result.bits n = m.result.bits n := by
        unfold result
        rw [hnotification]
        rfl
      rw [hsame]
      exact hbits
    obtain ⟨hreason, -, -⟩ := recvPhase_result (k := s.dropReply t) (w := none) hscan
      hendpoint.symm hbound' hbits' nofun
    rw [replyRecv_eq_of_not_blocked hc hnot]
    refine iff_of_false ?_ fun hall => hblocked hall.1
    intro heq
    have hc' := congrFun (congrArg Result.reason heq) c
    rw [hreason, dropReply_result] at hc'
    exact hsome (hc'.symm.trans hnone)

/-- The two versions of the system call that replies and receives on several endpoints. -/
theorem fastpathReplyRecvAny_result_iff (hcaps : reply.caps = List.replicate 4 0)
    (h : (s.fastpathReplyRecvAny cpu t es reply).1 = true) :
  (s.fastpathReplyRecvAny cpu t es reply).2.result = (s.replyRecvAny cpu t es reply).result
    ↔ CallerBlocked s t ∧ s.PayloadsKept (s.replyRecvTransfers t es reply)
      ∧ (s.firstSender es = none → ∀ e ∈ es, (s.endpoint e).nbsend = [])
  := by
  obtain ⟨hslow, w, m, hreply, hcases⟩ := fastpathReplyRecvAny_true h
  obtain ⟨hendpoint, -⟩ := fastpathReply_frame hreply
  have hfirst : s.firstSender es = m.firstSender es := by
    unfold firstSender
    rw [hendpoint]
  obtain ⟨e, x, msg, badge, keep, m', hscan, heq⟩ | ⟨m', hscan, hbits, heq⟩ := hcases
  · obtain ⟨hfound, -⟩ := scanAgrees (k := m) rfl hscan
    rw [heq, fastpathReplyRecvAny_found hcaps hslow hreply hscan, hfirst, hfound]
    simp
  · obtain ⟨hnone, -⟩ := scanAgrees (k := m) rfl hscan
    rw [heq, fastpathReplyRecvAny_bits hcaps hslow hreply hscan hbits]
    unfold replyRecvTransfers
    simp [hfirst, hnone]

end System

end SaltyOS.Ipc
