import SaltyOS.Dns.Rounds

/-!
# Replies to DNS queries

Every call to the resolver is either waiting or answered, and is answered once.  If the messages of the
server repeat the question of the query whose identifier they carry, the addresses of a reply come from a
message that asks for them; and if queries can be sent when they are due, a call is answered after three
rounds of the timeout.
-/

namespace SaltyOS.Dns.Resolver

open Function List

variable {r : Resolver} {es : List Event} {net : Network} {now : ℕ} {p : PendingDns}

/-! ## What is promised -/

/-- The call was answered. -/
def Answered (r : Resolver) (call : ℕ) : Prop := call ∈ r.replies.map Reply.call

/-- The call waits in a slot. -/
def Waits (r : Resolver) (call : ℕ) : Prop :=
  ∃ i, (r.pending i).active = true ∧ r.callers i = call

/-- Addresses go only to calls that asked for them. -/
def Attributed (r : Resolver) : Prop :=
  ∀ reply ∈ r.replies, reply.completion.queryType = .a → reply.completion.success = true →
    ∃ query, r.calls[reply.call]? = some query ∧ query.queryType = .a ∧
      Answers r.heard query.hostname reply.completion.dnsResult

/-- No call is answered twice, and each call waits or was answered. -/
structure Accounted (r : Resolver) : Prop where
  once : (r.replies.map Reply.call).Nodup
  known : ∀ call, r.Answered call → call < r.calls.length
  xor : ∀ call < r.calls.length, Xor (r.Answered call) (r.Waits call)

/-- The rounds of the timeout in a list of events, from the time `since` on: a wake ends a round when
the timeout is over, and news about hardware addresses start the current one again. -/
def rounds (since : ℕ) : List Event → ℕ
  | [] => 0
  | .wake _ _ now :: es =>
    if since ≤ now then rounds (now + dnsTimeoutNs) es + 1 else rounds since es
  | .arpUpdate _ now :: es => rounds (max since (now + dnsTimeoutNs)) es
  | .resolve .. :: es => rounds since es
  | .resolvePtr .. :: es => rounds since es

/-! ## The condition -/

/-- When a query is due there is a server, and the hardware address of the next hop is known. -/
def Connected (r : Resolver) (net : Network) (now : ℕ) : Prop :=
  (∃ i, (r.pending i).active = true ∧ (r.pending i).deadlineNs ≤ now) →
    net.dnsServer ≠ 0 ∧ net.arpResolved = true

/-- Time does not run backwards, messages are genuine, and due queries can be sent. -/
def Careful (r : Resolver) (e : Event) : Prop :=
  r.clock ≤ e.now ∧
    match e with
    | .wake net received now => r.Genuine net received ∧ r.Connected net now
    | _ => True

/-- All events of a run are careful. -/
def CarefulRun (r : Resolver) : List Event → Prop
  | [] => True
  | e :: es => r.Careful e ∧ CarefulRun (e.exec r) es

theorem CarefulRun.append {es' : List Event} (h : r.CarefulRun (es ++ es')) :
  r.CarefulRun es ∧ (r.run es).CarefulRun es'
  := by
  induction es generalizing r with
  | nil => exact ⟨trivial, h⟩
  | cons e es ih =>
    obtain ⟨he, hrest⟩ := h
    obtain ⟨hes, hes'⟩ := ih hrest
    exact ⟨⟨he, hes⟩, hes'⟩

/-! ## Flushing -/

theorem flushSlot_eq (net : Network) (now : ℕ) (r : Resolver) (i : Fin maxPendingDns) :
  flushSlot net now r i = { r with pending := (flushSlot net now r i).pending }
  := by
  unfold flushSlot
  split_ifs <;> rfl

theorem flushedSlot_congr {r' : Resolver} (h : r'.socketReady = r.socketReady) (net : Network)
    (now : ℕ) (p : PendingDns) :
  r'.flushedSlot net now p = r.flushedSlot net now p
  := by
  unfold flushedSlot
  rw [sendQueryForSlot_congr h]

/-- Flushing changes only the deadlines. -/
theorem flushArpWaiters_eq (r : Resolver) (net : Network) (now : ℕ) :
  r.flushArpWaiters net now = { r with pending := fun i => r.flushedSlot net now (r.pending i) }
  := by
  have hloop : ∀ (l : List (Fin maxPendingDns)) (r : Resolver),
      l.foldl (flushSlot net now) r = { r with pending := (l.foldl (flushSlot net now) r).pending } := by
    intro l
    induction l with
    | nil => exact fun _ => rfl
    | cons i l ih =>
      intro r
      have hslot := flushSlot_eq net now r i
      rw [foldl_cons, ih (flushSlot net now r i)]
      generalize l.foldl (flushSlot net now) (flushSlot net now r i) = r'
      rw [hslot]
  have hready : ∀ r i, (flushSlot net now r i).socketReady = r.socketReady := by
    intro r i
    rw [flushSlot_eq]
  have hpending : (r.flushArpWaiters net now).pending = fun i =>
      r.flushedSlot net now (r.pending i) := by
    funext i
    apply foldl_pending hready
    intro r' j hready'
    rw [flushSlot_pending, flushedSlot_congr hready']
  rw [← hpending]
  exact hloop _ r

/-! ## The invariant -/

/-- The resolver between two events. -/
structure Ok (r : Resolver) : Prop where
  completions : r.completions = []
  ready : ∀ i, (r.pending i).active = true → r.socketReady = true
  attempt : ∀ i, (r.pending i).active = true → (r.pending i).attempt ≤ dnsMaxRetries
  deadline : ∀ i, (r.pending i).active = true → (r.pending i).deadlineNs ≤ r.clock + dnsTimeoutNs
  query : ∀ i, (r.pending i).active = true → r.calls[r.callers i]? = some (r.pending i).query
  inj : ∀ i j, (r.pending i).active = true → (r.pending j).active = true →
    r.callers i = r.callers j → i = j
  fresh : ∀ i, (r.pending i).active = true → ¬ r.Answered (r.callers i)
  once : (r.replies.map Reply.call).Nodup
  known : ∀ call, r.Answered call → call < r.calls.length
  all : ∀ call < r.calls.length, r.Answered call ∨ r.Waits call
  attributed : r.Attributed

namespace Ok

variable {r : Resolver}
variable {now : ℕ}

theorem initial (socketReady : Bool) :
  (Resolver.initial socketReady).Ok
  where
  completions := rfl
  ready := nofun
  attempt := nofun
  deadline := nofun
  query := nofun
  inj := nofun
  fresh := nofun
  once := nodup_nil
  known := nofun
  all := fun _ hcall => absurd hcall (Nat.not_lt_zero _)
  attributed := nofun

theorem accounted (h : r.Ok) :
  r.Accounted
  := by
  refine ⟨h.once, h.known, fun call hcall => ?_⟩
  have hnot : r.Waits call → ¬ r.Answered call := by
    rintro ⟨i, hi, rfl⟩
    exact h.fresh i hi
  obtain hanswered | hwaits := h.all call hcall
  · exact .inl ⟨hanswered, fun hwaits => hnot hwaits hanswered⟩
  · exact .inr ⟨hwaits, hnot hwaits⟩

/-- Time passes. -/
theorem tick (h : r.Ok) (hnow : r.clock ≤ now) :
  ({ r with clock := now } : Resolver).Ok
  :=
  { h with deadline := fun i hi => (h.deadline i hi).trans (Nat.add_le_add_right hnow _) }

/-- A slot that was free is given to a new call. -/
theorem assign (h : r.Ok) {i : Fin maxPendingDns} {p : PendingDns} (hnow : r.clock ≤ now)
    (hready : r.socketReady = true) (hattempt : p.attempt ≤ dnsMaxRetries)
    (hdeadline : p.deadlineNs ≤ now + dnsTimeoutNs) (hactive : p.active = true)
    (hfree : (r.pending i).active = false) :
  ({ r with
      pending := update r.pending i p
      callers := update r.callers i r.calls.length
      calls := r.calls ++ [p.query]
      clock := now } : Resolver).Ok
  := by
  have hnew : ¬ r.Answered r.calls.length := fun hanswered => Nat.lt_irrefl _ (h.known _ hanswered)
  have hold : ∀ j, (r.pending j).active = true → r.callers j < r.calls.length := by
    intro j hj
    exact (List.getElem?_eq_some_iff.mp (h.query j hj)).1
  have hcases : ∀ j, (update r.pending i p j).active = true →
      j = i ∨ j ≠ i ∧ (r.pending j).active = true := by
    intro j hj
    by_cases hji : j = i
    · exact .inl hji
    · rw [update_of_ne hji] at hj
      exact .inr ⟨hji, hj⟩
  refine ⟨h.completions, fun _ _ => hready, ?_, ?_, ?_, ?_, ?_, h.once, ?_, ?_, ?_⟩
  · intro j hj
    dsimp only
    obtain rfl | ⟨hji, hj⟩ := hcases j hj
    · rw [update_self]
      exact hattempt
    · rw [update_of_ne hji]
      exact h.attempt j hj
  · intro j hj
    dsimp only
    obtain rfl | ⟨hji, hj⟩ := hcases j hj
    · rw [update_self]
      exact hdeadline
    · rw [update_of_ne hji]
      exact (h.deadline j hj).trans (Nat.add_le_add_right hnow _)
  · intro j hj
    dsimp only
    obtain rfl | ⟨hji, hj⟩ := hcases j hj
    · simp
    · rw [update_of_ne hji, update_of_ne hji, List.getElem?_append_left (hold j hj)]
      exact h.query j hj
  · intro j k hj hk hjk
    dsimp only at hjk
    obtain rfl | ⟨hji, hj'⟩ := hcases j hj
    · obtain rfl | ⟨hki, hk'⟩ := hcases k hk
      · rfl
      · rw [update_self, update_of_ne hki] at hjk
        exact absurd hjk.symm (hold k hk').ne
    · obtain rfl | ⟨hki, hk'⟩ := hcases k hk
      · rw [update_self, update_of_ne hji] at hjk
        exact absurd hjk (hold j hj').ne
      · rw [update_of_ne hji, update_of_ne hki] at hjk
        exact h.inj j k hj' hk' hjk
  · intro j hj
    dsimp only
    obtain rfl | ⟨hji, hj⟩ := hcases j hj
    · rw [update_self]
      exact hnew
    · rw [update_of_ne hji]
      exact h.fresh j hj
  · intro call hanswered
    have hcall := h.known call hanswered
    rw [length_append]
    exact Nat.lt_add_right _ hcall
  · intro call hcall
    rw [length_append, length_singleton, Nat.lt_succ_iff_lt_or_eq] at hcall
    obtain hcall | rfl := hcall
    · obtain hanswered | ⟨j, hj, hcaller⟩ := h.all call hcall
      · exact .inl hanswered
      have hji : j ≠ i := by
        rintro rfl
        rw [hfree] at hj
        cases hj
      refine .inr ⟨j, ?_, ?_⟩
      · dsimp only
        rw [update_of_ne hji]
        exact hj
      · dsimp only
        rw [update_of_ne hji]
        exact hcaller
    · refine .inr ⟨i, ?_, ?_⟩
      · dsimp only
        rw [update_self]
        exact hactive
      · exact update_self ..
  · intro reply hreply htype hsuccess
    obtain ⟨query, hquery, hrest⟩ := h.attributed reply hreply htype hsuccess
    have hcall := h.known reply.call (mem_map_of_mem hreply)
    exact ⟨query, (List.getElem?_append_left hcall).trans hquery, hrest⟩

/-- A query starts in a free slot. -/
theorem start (h : r.Ok) (net : Network) (query : Query) (txnId : BitVec 16) (saved : Bool)
    (hnow : r.clock ≤ now) :
  ({ r.start net query txnId saved now with clock := now } : Resolver).Ok
  := by
  unfold Resolver.start
  by_cases hready : r.socketReady = true
  swap
  · rw [if_neg hready]
    exact h.tick hnow
  rw [if_pos hready]
  rcases hpacket : PendingDns.packet { PendingDns.zeroed with query, txnId } with _ | packet
  · exact h.tick hnow
  rcases hfree : r.findFreeSlot with _ | i
  · exact h.tick hnow
  cases saved with
  | false => exact h.tick hnow
  | true =>
    have hinactive := find?_some hfree
    rw [Bool.not_eq_true'] at hinactive
    have hdeadline : (r.startSlot net query txnId now).deadlineNs ≤ now + dnsTimeoutNs := by
      refine (later_le _ _).trans (Nat.add_le_add_left ?_ _)
      split_ifs
      · exact le_rfl
      · exact arpRetryNs_le
    exact h.assign hnow hready (Nat.zero_le _) hdeadline rfl hinactive

/-- Flushing. -/
theorem flushArpWaiters (h : r.Ok) (net : Network) (hnow : r.clock ≤ now) :
  ({ r.flushArpWaiters net now with clock := now } : Resolver).Ok
  := by
  have hslot : ∀ i, (r.flushedSlot net now (r.pending i)).active = (r.pending i).active ∧
      (r.flushedSlot net now (r.pending i)).attempt = (r.pending i).attempt ∧
      (r.flushedSlot net now (r.pending i)).query = (r.pending i).query := by
    intro i
    unfold flushedSlot
    split_ifs <;> exact ⟨rfl, rfl, rfl⟩
  have hdeadline : ∀ i, (r.pending i).active = true →
      (r.flushedSlot net now (r.pending i)).deadlineNs ≤ now + dnsTimeoutNs := by
    intro i hi
    unfold flushedSlot
    split_ifs
    · exact later_le _ _
    · exact (h.deadline i hi).trans (Nat.add_le_add_right hnow _)
  have hactive : ∀ i, (r.flushedSlot net now (r.pending i)).active = true →
      (r.pending i).active = true := by
    intro i hi
    rw [← (hslot i).1]
    exact hi
  rw [flushArpWaiters_eq]
  refine ⟨h.completions, fun i hi => h.ready i (hactive i hi), ?_, ?_, ?_, ?_, ?_, h.once, h.known, ?_,
    h.attributed⟩
  · intro i hi
    exact (hslot i).2.1.trans_le (h.attempt i (hactive i hi))
  · intro i hi
    exact hdeadline i (hactive i hi)
  · intro i hi
    exact (h.query i (hactive i hi)).trans (congrArg some (hslot i).2.2.symm)
  · intro i j hi hj
    exact h.inj i j (hactive i hi) (hactive j hj)
  · intro i hi
    exact h.fresh i (hactive i hi)
  · intro call hcall
    obtain hanswered | ⟨i, hi, hcaller⟩ := h.all call hcall
    · exact .inl hanswered
    · exact .inr ⟨i, (hslot i).1.trans hi, hcaller⟩

theorem answers_mono {heard heard' : List (List Byte)} {hostname : List Byte} {result : DnsResult}
    (h : Answers heard hostname result) (hsub : ∀ data ∈ heard, data ∈ heard') :
  Answers heard' hostname result
  := by
  obtain ⟨data, hdata, hrest⟩ := h
  exact ⟨data, hsub data hdata, hrest⟩

/-- The replies of a round. -/
theorem answered_drain (r : Resolver) (call : ℕ) :
  r.drainDnsCompletions.Answered call ↔
    r.Answered call ∨ ∃ i ∈ r.completions.map DnsCompletion.replySlot, r.callers i = call
  := by
  unfold drainDnsCompletions Answered
  simp only [map_append, mem_append, map_map, mem_map, mem_reverse, comp_apply]
  constructor
  · rintro (hold | ⟨c, hc, rfl⟩)
    · exact .inl hold
    · exact .inr ⟨c.replySlot, ⟨c, hc, rfl⟩, rfl⟩
  · rintro (hold | ⟨_, ⟨c, hc, rfl⟩, rfl⟩)
    · exact .inl hold
    · exact .inr ⟨c, hc, rfl⟩

/-- The end of a round of the event loop: completions become replies. -/
theorem drain (h : r.Ok) {w : Resolver} {received : List (List Byte)} (hwave : Wave r received w)
    (hattempt : ∀ i, (w.pending i).active = true → (w.pending i).attempt ≤ dnsMaxRetries)
    (hdeadline : ∀ i, (w.pending i).active = true → (w.pending i).deadlineNs ≤ now + dnsTimeoutNs) :
  ({ w.drainDnsCompletions with heard := r.heard ++ received, clock := now } : Resolver).Ok
  := by
  have hgone : ∀ i ∈ w.completions.map DnsCompletion.replySlot, (r.pending i).active = true :=
    fun i hi => ((hwave.gone i).mp hi).1
  have hanswered : ∀ call, w.drainDnsCompletions.Answered call ↔ r.Answered call ∨
      ∃ i ∈ w.completions.map DnsCompletion.replySlot, r.callers i = call := by
    intro call
    rw [answered_drain, hwave.callers]
    unfold Answered
    rw [hwave.replies]
  refine ⟨rfl, ?_, hattempt, hdeadline, ?_, ?_, ?_, ?_, ?_, ?_, ?_⟩
  · intro i hi
    exact hwave.socketReady.trans (h.ready i (hwave.kept i hi).1)
  · intro i hi
    change w.calls[w.callers i]? = some (w.pending i).query
    rw [hwave.calls, hwave.callers, (hwave.kept i hi).2]
    exact h.query i (hwave.kept i hi).1
  · intro i j hi hj hij
    change w.callers i = w.callers j at hij
    rw [hwave.callers] at hij
    exact h.inj i j (hwave.kept i hi).1 (hwave.kept j hj).1 hij
  · intro i hi hcontra
    change w.drainDnsCompletions.Answered (w.callers i) at hcontra
    have hactive := (hwave.kept i hi).1
    rw [hwave.callers, hanswered] at hcontra
    obtain hold | ⟨j, hj, hcaller⟩ := hcontra
    · exact h.fresh i hactive hold
    -- A slot of the same call is the same slot, and that one is still active.
    have hij := h.inj j i (hgone j hj) hactive hcaller
    have hinactive := ((hwave.gone j).mp hj).2
    rw [hij, show (w.pending i).active = true from hi] at hinactive
    cases hinactive
  · have hcalls : w.drainDnsCompletions.replies.map Reply.call = r.replies.map Reply.call ++
          ((w.completions.map DnsCompletion.replySlot).map r.callers).reverse := by
      unfold drainDnsCompletions
      rw [map_append, hwave.replies, hwave.callers, map_map, map_reverse, map_map]
      rfl
    rw [hcalls]
    apply List.Nodup.append h.once
    · rw [nodup_reverse]
      exact hwave.once.map_on fun i hi j hj => h.inj i j (hgone i hi) (hgone j hj)
    intro call hold hnew
    rw [mem_reverse, mem_map] at hnew
    obtain ⟨i, hi, rfl⟩ := hnew
    exact h.fresh i (hgone i hi) hold
  · intro call hcall
    change call < w.calls.length
    rw [hwave.calls]
    obtain hold | ⟨i, hi, rfl⟩ := (hanswered call).mp hcall
    · exact h.known call hold
    · exact (List.getElem?_eq_some_iff.mp (h.query i (hgone i hi))).1
  · intro call hcall
    change call < w.calls.length at hcall
    rw [hwave.calls] at hcall
    obtain hold | ⟨i, hi, hcaller⟩ := h.all call hcall
    · exact .inl ((hanswered call).mpr (.inl hold))
    by_cases hw : (w.pending i).active = true
    · refine .inr ⟨i, hw, ?_⟩
      change w.callers i = call
      rw [hwave.callers]
      exact hcaller
    · rw [Bool.not_eq_true] at hw
      exact .inl ((hanswered call).mpr (.inr ⟨i, (hwave.gone i).mpr ⟨hi, hw⟩, hcaller⟩))
  · intro reply hreply htype hsuccess
    change ∃ query, w.calls[reply.call]? = some query ∧ _
    unfold drainDnsCompletions at hreply
    rw [mem_append, hwave.replies] at hreply
    rw [hwave.calls]
    obtain hold | hnew := hreply
    · obtain ⟨query, hquery, hqtype, hanswers⟩ := h.attributed reply hold htype hsuccess
      exact ⟨query, hquery, hqtype, answers_mono hanswers fun data hdata => mem_append_left _ hdata⟩
    rw [mem_map] at hnew
    obtain ⟨c, hc, rfl⟩ := hnew
    rw [mem_reverse] at hc
    obtain ⟨hqtype, hanswers⟩ := hwave.attributed c hc htype hsuccess
    have hquery := h.query c.replySlot (hgone _ (mem_map_of_mem hc))
    refine ⟨_, ?_, hqtype, answers_mono hanswers fun data hdata => mem_append_right _ hdata⟩
    rw [hwave.callers]
    exact hquery

end Ok

theorem deadlineSlot_attempt (h : p.attempt ≤ dnsMaxRetries) :
  (r.deadlineSlot net now p).attempt ≤ dnsMaxRetries
  := by
  unfold deadlineSlot
  split_ifs with hdue hattempt
  · exact hattempt
  · exact h
  · exact h
  · exact h

theorem deadlineSlot_deadline (h : p.deadlineNs ≤ now + dnsTimeoutNs) :
  (r.deadlineSlot net now p).deadlineNs ≤ now + dnsTimeoutNs
  := by
  unfold deadlineSlot
  split_ifs
  · exact later_le _ _
  · exact (later_le _ _).trans (Nat.add_le_add_left arpRetryNs_le _)
  · exact h
  · exact h

/-- Every careful event keeps the invariant. -/
theorem Ok.exec (h : r.Ok) {e : Event} (he : r.Careful e) :
  (e.exec r).Ok
  := by
  obtain ⟨hnow, he⟩ := he
  cases e with
  | resolve net hostname txnId saved now =>
    change ({ r.startResolve net hostname txnId saved now with clock := now } : Resolver).Ok
    unfold startResolve
    split_ifs
    · exact h.tick hnow
    · exact h.start net _ txnId saved hnow
  | resolvePtr net ip txnId saved now => exact h.start net _ txnId saved hnow
  | arpUpdate net now => exact h.flushArpWaiters net hnow
  | wake net received now =>
    obtain ⟨hwave, hslots⟩ := processPending_spec now h.completions he.1
    apply h.drain hwave
    · intro i hi
      have hactive := (hwave.kept i hi).1
      rw [hslots i hi, if_pos (h.ready i hactive)]
      exact deadlineSlot_attempt (h.attempt i hactive)
    · intro i hi
      have hactive := (hwave.kept i hi).1
      rw [hslots i hi, if_pos (h.ready i hactive)]
      exact deadlineSlot_deadline ((h.deadline i hactive).trans (Nat.add_le_add_right hnow _))

theorem Ok.run (h : r.Ok) (hes : r.CarefulRun es) :
  (r.run es).Ok
  := by
  induction es generalizing r with
  | nil => exact h
  | cons e es ih => exact ih (h.exec hes.1) hes.2

/-! ## Every call is answered -/

/-- A call was answered, or has been sent again `k` times and is due at the time `T` if not more
often. -/
def Ready (r : Resolver) (call k T : ℕ) : Prop :=
  r.Answered call ∨ ∃ i, (r.pending i).active = true ∧ r.callers i = call ∧
    k ≤ (r.pending i).attempt ∧ ((r.pending i).attempt = k → (r.pending i).deadlineNs ≤ T)

/-- What a deadline does to a slot whose query can be sent. -/
theorem deadlineSlot_sent (hactive : (r.deadlineSlot net now p).active = true)
    (hp : p.active = true) (hsend : p.deadlineNs ≤ now → r.sendQueryForSlot net p = true) :
  if p.deadlineNs ≤ now then
    (r.deadlineSlot net now p).attempt = p.attempt + 1 ∧ p.attempt < dnsMaxRetries
  else r.deadlineSlot net now p = p
  := by
  unfold deadlineSlot at hactive ⊢
  by_cases hdue : p.deadlineNs ≤ now
  · have hcond : (p.active && decide (now ≥ p.deadlineNs)) = true := by
      rw [hp, decide_eq_true hdue]
      rfl
    rw [if_pos hdue]
    rw [if_pos hcond] at hactive ⊢
    by_cases hattempt : p.attempt < dnsMaxRetries
    · rw [if_pos hattempt, if_pos (hsend hdue)]
      exact ⟨rfl, hattempt⟩
    · rw [if_neg hattempt] at hactive
      cases hactive
  · have hcond : ¬ (p.active && decide (now ≥ p.deadlineNs)) = true := by
      rw [hp, decide_eq_false hdue]
      exact Bool.false_ne_true
    rw [if_neg hdue, if_neg hcond]

/-- Starting a query leaves the other calls alone. -/
theorem start_keeps (r : Resolver) (net : Network) (query : Query) (txnId : BitVec 16) (saved : Bool)
    (now : ℕ) :
  (r.start net query txnId saved now).replies = r.replies ∧ ∀ i, (r.pending i).active = true →
      (r.start net query txnId saved now).pending i = r.pending i ∧
        (r.start net query txnId saved now).callers i = r.callers i
  := by
  unfold start
  by_cases hready : r.socketReady = true
  swap
  · rw [if_neg hready]
    exact ⟨rfl, fun _ _ => ⟨rfl, rfl⟩⟩
  rw [if_pos hready]
  rcases hpacket : PendingDns.packet { PendingDns.zeroed with query, txnId } with _ | packet
  · exact ⟨rfl, fun _ _ => ⟨rfl, rfl⟩⟩
  rcases hfree : r.findFreeSlot with _ | j
  · exact ⟨rfl, fun _ _ => ⟨rfl, rfl⟩⟩
  cases saved with
  | false => exact ⟨rfl, fun _ _ => ⟨rfl, rfl⟩⟩
  | true =>
    refine ⟨rfl, fun i hi => ?_⟩
    have hij : i ≠ j := by
      rintro rfl
      have hinactive := find?_some hfree
      rw [hi] at hinactive
      cases hinactive
    exact ⟨update_of_ne hij _ _, update_of_ne hij _ _⟩

namespace Ready

variable {r : Resolver} {call k T : ℕ}
variable {net : Network} {received : List Datagram} {now : ℕ} {i : Fin maxPendingDns}

theorem start (h : r.Ready call k T) (net : Network) (query : Query) (txnId : BitVec 16)
    (saved : Bool) (now : ℕ) :
  ({ r.start net query txnId saved now with clock := now } : Resolver).Ready call k T
  := by
  obtain ⟨hreplies, hslots⟩ := r.start_keeps net query txnId saved now
  obtain hanswered | ⟨i, hi, hcaller, hrest⟩ := h
  · left
    unfold Answered
    rw [hreplies]
    exact hanswered
  · obtain ⟨hpending, hcallers⟩ := hslots i hi
    refine .inr ⟨i, ?_⟩
    rw [hpending, hcallers]
    exact ⟨hi, hcaller, hrest⟩

theorem flushArpWaiters (h : r.Ready call k T) (net : Network) (now : ℕ) :
  ({ r.flushArpWaiters net now with clock := now } : Resolver).Ready call k (max T (now + dnsTimeoutNs))
  := by
  rw [flushArpWaiters_eq]
  obtain hanswered | ⟨i, hi, hcaller, hk, hdue⟩ := h
  · exact .inl hanswered
  refine .inr ⟨i, ?_⟩
  dsimp only
  unfold flushedSlot
  split_ifs
  · exact ⟨hi, hcaller, hk, fun _ => (later_le _ _).trans (Nat.le_max_right _ _)⟩
  · exact ⟨hi, hcaller, hk, fun heq => (hdue heq).trans (Nat.le_max_left _ _)⟩

/-- In a round of the event loop a call is answered, or its slot is changed by its deadline alone. -/
theorem wake_cases (h : r.Ok) (he : r.Careful (.wake net received now))
    (hi : (r.pending i).active = true) :
  (Event.exec r (.wake net received now)).Answered (r.callers i) ∨
    ((Event.exec r (.wake net received now)).pending i).active = true ∧
      (Event.exec r (.wake net received now)).callers i = r.callers i ∧
      (Event.exec r (.wake net received now)).pending i = r.deadlineSlot net now (r.pending i)
  := by
  obtain ⟨-, hgenuine, -⟩ := he
  obtain ⟨hwave, hslots⟩ := processPending_spec now h.completions hgenuine
  by_cases hw : ((r.processPending net received now).pending i).active = true
  · refine .inr ⟨hw, congrFun hwave.callers i, ?_⟩
    have hslot := hslots i hw
    rw [if_pos (h.ready i hi)] at hslot
    exact hslot
  · rw [Bool.not_eq_true] at hw
    left
    change (r.processPending net received now).drainDnsCompletions.Answered (r.callers i)
    rw [Ok.answered_drain, hwave.callers]
    exact .inr ⟨i, (hwave.gone i).mpr ⟨hi, hw⟩, rfl⟩

theorem answered_wake (h : r.Ok) (he : r.Careful (.wake net received now))
    (hanswered : r.Answered call) :
  (Event.exec r (.wake net received now)).Answered call
  := by
  obtain ⟨-, hgenuine, -⟩ := he
  obtain ⟨hwave, -⟩ := processPending_spec now h.completions hgenuine
  change (r.processPending net received now).drainDnsCompletions.Answered call
  rw [Ok.answered_drain]
  left
  unfold Answered
  rw [hwave.replies]
  exact hanswered

/-- A query can be sent when it is due. -/
theorem sends (h : r.Ok) (hconnected : r.Connected net now) (hi : (r.pending i).active = true)
    (hdue : (r.pending i).deadlineNs ≤ now) :
  r.sendQueryForSlot net (r.pending i) = true
  := by
  obtain ⟨hserver, harp⟩ := hconnected ⟨i, hi, hdue⟩
  unfold sendQueryForSlot
  rw [if_pos (h.ready i hi)]
  split
  · rfl
  · rw [if_neg hserver]
    exact harp

section

variable (h : r.Ok) (he : r.Careful (.wake net received now)) (hready : r.Ready call k T)
include h he hready

/-- A round of the event loop brings no call back. -/
theorem wake :
  (Event.exec r (.wake net received now)).Ready call k T
  := by
  obtain hanswered | ⟨i, hi, rfl, hk, hdue⟩ := hready
  · exact .inl (answered_wake h he hanswered)
  obtain hanswered | ⟨hactive, hcaller, hslot⟩ := wake_cases h he hi
  · exact .inl hanswered
  refine .inr ⟨i, hactive, hcaller, ?_⟩
  rw [hslot] at hactive ⊢
  have hchange := deadlineSlot_sent hactive hi (sends h he.2.2 hi)
  split_ifs at hchange
  · omega
  · rw [hchange]
    exact ⟨hk, hdue⟩

/-- A round after the time brings it on. -/
theorem wake_late (hT : T ≤ now) :
  (Event.exec r (.wake net received now)).Ready call (k + 1) (now + dnsTimeoutNs)
  := by
  obtain hanswered | ⟨i, hi, rfl, hk, hdue⟩ := hready
  · exact .inl (answered_wake h he hanswered)
  obtain hanswered | ⟨hactive, hcaller, hslot⟩ := wake_cases h he hi
  · exact .inl hanswered
  refine .inr ⟨i, hactive, hcaller, ?_⟩
  have hdeadline := (h.exec he).deadline i hactive
  rw [hslot] at hactive hdeadline ⊢
  refine ⟨?_, fun _ => hdeadline⟩
  have hchange := deadlineSlot_sent hactive hi (sends h he.2.2 hi)
  split_ifs at hchange with hover
  · omega
  -- It was not due, so it had been sent again more often than `k` times.
  rw [hchange]
  by_contra hle
  have heq : (r.pending i).attempt = k := by omega
  exact hover ((hdue heq).trans hT)

end

/-- A call is answered when enough rounds of the timeout have passed. -/
theorem answered (h : r.Ok) {es : List Event} (hes : r.CarefulRun es) (hready : r.Ready call k T)
    (hrounds : dnsMaxRetries < k + rounds T es) :
  (r.run es).Answered call
  := by
  induction es generalizing r k T with
  | nil =>
    obtain hanswered | ⟨i, hi, -, hk, -⟩ := hready
    · exact hanswered
    have hattempt := h.attempt i hi
    change dnsMaxRetries < k + 0 at hrounds
    omega
  | cons e es ih =>
    obtain ⟨he, hes⟩ := hes
    have hok := h.exec he
    cases e with
    | resolve net hostname txnId saved now =>
      refine ih hok hes ?_ hrounds
      change ({ r.startResolve net hostname txnId saved now with clock := now } :
        Resolver).Ready call k T
      unfold startResolve
      split_ifs
      · exact hready
      · exact hready.start net _ txnId saved now
    | resolvePtr net ip txnId saved now => exact ih hok hes (hready.start net _ txnId saved now) hrounds
    | arpUpdate net now => exact ih hok hes (hready.flushArpWaiters net now) hrounds
    | wake net received now =>
      rw [rounds] at hrounds
      split_ifs at hrounds with hT
      · exact ih hok hes (wake_late h he hready hT) (by omega)
      · exact ih hok hes (wake h he hready) hrounds

end Ready

/-- In every run of careful events, addresses go only to calls that asked for them, each call waits or
was answered once, and every call is answered as soon as three rounds of the timeout have passed. -/
theorem resolved_of_careful_run (socketReady : Bool) (es es' : List Event)
    (h : (initial socketReady).CarefulRun (es ++ es')) :
  ((initial socketReady).run es).Attributed ∧ ((initial socketReady).run es).Accounted ∧
    ∀ call < ((initial socketReady).run es).calls.length,
      3 ≤ rounds (((initial socketReady).run es).clock + dnsTimeoutNs) es' →
      ((initial socketReady).run (es ++ es')).Answered call
  := by
  obtain ⟨hes, hes'⟩ := h.append
  have hok := (Ok.initial socketReady).run hes
  refine ⟨hok.attributed, hok.accounted, fun call hcall hrounds => ?_⟩
  have hready : ((initial socketReady).run es).Ready call 0
      (((initial socketReady).run es).clock + dnsTimeoutNs) := by
    obtain hanswered | ⟨i, hi, hcaller⟩ := hok.all call hcall
    · exact .inl hanswered
    · exact .inr ⟨i, hi, hcaller, Nat.zero_le _, fun _ => hok.deadline i hi⟩
  have hrun : (initial socketReady).run (es ++ es') = ((initial socketReady).run es).run es' :=
    foldl_append ..
  rw [hrun]
  exact Ready.answered hok hes' hready (by rw [Nat.zero_add]; exact hrounds)

/-! ## Runs -/

/-- A server at address 1 with a known next hop. -/
def reachable : Network where
  dnsServer := 1
  arpResolved := true

/-- The same server, when nobody tells the hardware address of the next hop. -/
def unreachable : Network where
  dnsServer := 1
  arpResolved := false

/-- A query for `a` that is answered, and a query for `b`. -/
def twoQueries : List Event :=
  [.resolve reachable [0x61] 1 true 0,
    .wake reachable [{ srcIp := 1, srcPort := 53, payload := sampleResponse [[0x61]] }] 1,
    .resolve reachable [0x62] 2 true 2]

/-- Three rounds of the timeout without a response. -/
def threeRounds : List Event :=
  [.wake reachable [] 4000000000, .wake reachable [] 8000000000, .wake reachable [] 12000000000]

theorem isLabel_a :
  ∀ label ∈ [[(0x61 : Byte)]], IsLabel label
  := by
  intro label hlabel
  rw [mem_singleton.mp hlabel]
  exact isLabel_singleton (by decide)

theorem asks_sampleResponse :
  Asks (sampleResponse [[0x61]]) [0x61]
  :=
  ⟨[[0x61]], 1, 3, 1, ⟨by decide, isLabel_a, .inl rfl, by decide⟩, nameAt_wire isLabel_a _ _,
    by decide, by decide, by decide⟩

theorem answered_of_timeouts :
  ((initial true).run twoQueries).Attributed ∧ ((initial true).run twoQueries).Accounted ∧
    ((initial true).run (twoQueries ++ threeRounds)).Answered 1
  := by
  have hnone : ∀ (r : Resolver) (net : Network), r.Genuine net [] := by
    intro r net data hdata
    cases hdata
  have hlink : ∀ (r : Resolver) (now : ℕ), r.Connected reachable now := fun r now _ => ⟨by decide, rfl⟩
  have hcareful : (initial true).CarefulRun (twoQueries ++ threeRounds) := by
    refine ⟨⟨by decide, trivial⟩, ⟨by decide, ?_, hlink _ _⟩, ⟨by decide, trivial⟩,
      ⟨by decide, hnone _ _, hlink _ _⟩, ⟨by decide, hnone _ _, hlink _ _⟩,
      ⟨by decide, hnone _ _, hlink _ _⟩, trivial⟩
    intro data hdata i hi _ _
    obtain rfl : data = sampleResponse [[0x61]] := mem_singleton.mp hdata
    have hhost : ∀ i, ((Event.exec (initial true) (.resolve reachable [0x61] 1 true 0)).pending
        i).active = true → ((Event.exec (initial true)
          (.resolve reachable [0x61] 1 true 0)).pending i).query.hostname = [0x61] := by
      decide +kernel
    rw [hhost i hi]
    exact asks_sampleResponse
  obtain ⟨hattributed, haccounted, hanswered⟩ :=
    resolved_of_careful_run true twoQueries threeRounds hcareful
  exact ⟨hattributed, haccounted, hanswered 1 (by decide +kernel) (by decide +kernel)⟩

/-- No slot has given up, and every slot has a query to send. -/
structure Stuck (r : Resolver) : Prop where
  completions : r.completions = []
  replies : r.replies = []
  slots : ∀ i, (r.pending i).active = true →
    (r.pending i).attempt < dnsMaxRetries ∧ (r.pending i).packet.isSome = true

theorem Stuck.setDeadline (h : r.Stuck) (i : Fin maxPendingDns) (deadlineNs : ℕ) :
  (r.setSlot i { r.pending i with deadlineNs }).Stuck
  := by
  refine ⟨h.completions, h.replies, fun j hj => ?_⟩
  rw [setSlot_pending] at hj ⊢
  by_cases hji : j = i
  · subst hji
    rw [update_self] at hj ⊢
    exact h.slots j hj
  · rw [update_of_ne hji] at hj ⊢
    exact h.slots j hj

theorem Stuck.checkDeadline (h : r.Stuck) (now : ℕ) (i : Fin maxPendingDns) :
  (checkDeadline unreachable now r i).Stuck
  := by
  unfold Resolver.checkDeadline
  by_cases hdue : ((r.pending i).active && decide (now ≥ (r.pending i).deadlineNs)) = true
  · rw [if_pos hdue]
    obtain ⟨hattempt, hpacket⟩ := h.slots i (Bool.and_eq_true _ _ ▸ hdue).1
    obtain ⟨packet, hpacket⟩ := Option.isSome_iff_exists.mp hpacket
    have hsend : ¬ r.sendQueryForSlot unreachable (r.pending i) = true := by
      unfold sendQueryForSlot
      rw [hpacket]
      cases r.socketReady with
      | true => exact Bool.false_ne_true
      | false => exact Bool.false_ne_true
    rw [if_pos hattempt, if_neg hsend]
    exact h.setDeadline i _
  · rw [if_neg hdue]
    exact h

/-- Without the hardware address of the next hop, no round of the event loop gives up. -/
theorem Stuck.wake (h : r.Stuck) (now : ℕ) :
  (Event.exec r (.wake unreachable [] now)).Stuck
  := by
  have hloop : ∀ (l : List (Fin maxPendingDns)) (r : Resolver), r.Stuck →
      (l.foldl (Resolver.checkDeadline unreachable now) r).Stuck := by
    intro l
    induction l with
    | nil => exact fun _ h => h
    | cons i l ih => exact fun r h => ih _ (h.checkDeadline now i)
  have hprocess : (r.processPending unreachable [] now).Stuck := by
    unfold processPending
    split_ifs
    · exact hloop _ r h
    · exact h
  refine ⟨rfl, ?_, hprocess.slots⟩
  change (r.processPending unreachable [] now).drainDnsCompletions.replies = []
  unfold drainDnsCompletions
  rw [hprocess.completions, hprocess.replies]
  rfl

/-- Rounds of the event loop, each ten seconds after the one before. -/
def silence (since : ℕ) : ℕ → List Event
  | 0 => []
  | n + 1 => .wake unreachable [] (since + 10000000000) :: silence (since + 10000000000) n

theorem Stuck.silence (h : r.Stuck) (since n : ℕ) :
  (r.run (Resolver.silence since n)).Stuck
  := by
  induction n generalizing r since with
  | zero => exact h
  | succ n ih => exact ih (h.wake _) _

theorem rounds_silence {T since : ℕ} (h : T ≤ since + 10000000000) (n : ℕ) :
  rounds T (silence since n) = n
  := by
  induction n generalizing T since with
  | zero => rfl
  | succ n ih =>
    rw [silence, rounds, if_pos h, ih]
    unfold dnsTimeoutNs
    omega

theorem not_asks_sampleResponse :
  ¬ Asks (sampleResponse [[0x62]]) [0x61]
  := by
  rintro ⟨labels, steps, consumed, -, hhost, hname, -⟩
  have hdecode : decodeName (sampleResponse [[0x62]]) dnsHeaderLen =
      some { name := [0x62], consumed := 3 } := by
    decide +kernel
  have hbytes := hhost.bytes
  have hfits : (dotted labels).length ≤ 256 := by
    obtain hbytes | hbytes := hbytes
    · rw [← hbytes]
      decide
    have hlength := congrArg length hbytes
    rw [length_append] at hlength
    simp only [length_singleton] at hlength
    omega
  rw [decodeName_of_nameAt hname hfits] at hdecode
  split_ifs at hdecode
  · have hdotted : dotted labels = [0x62] := congrArg Decoded.name (Option.some.inj hdecode)
    rw [hdotted] at hbytes
    exact absurd hbytes (by decide)
  · exact absurd (congrArg Decoded.consumed (Option.some.inj hdecode)) (by decide)

/-- A response to another question is taken for the answer, and a query that waits for a hardware address
never ends. -/
theorem misattributed_and_endless :
  ¬ ((initial true).run [.resolve reachable [0x61] 1 true 0,
      .wake reachable [{ srcIp := 1, srcPort := 53, payload := sampleResponse [[0x62]] }] 1]).Attributed ∧
    ∀ n, rounds dnsTimeoutNs (silence 0 n) = n ∧
      ¬ ((initial true).run (.resolve unreachable [0x61] 1 true 0 :: silence 0 n)).Answered 0
  := by
  constructor
  · have hreply : ((initial true).run [.resolve reachable [0x61] 1 true 0,
        .wake reachable [{ srcIp := 1, srcPort := 53, payload := sampleResponse [[0x62]] }] 1]).replies =
        [{ call := 0
           completion :=
            { replySlot := 0, queryType := .a, success := true
              dnsResult := { ips := [0x0A000202], ttl := 60 }, error := .other, ptrHostname := [] } }] := by
      decide +kernel
    intro h
    obtain ⟨query, hquery, -, data, hdata, hasks, -⟩ :=
      h _ (by rw [hreply]; exact mem_singleton_self _) rfl rfl
    obtain rfl : { queryType := .a, hostname := [0x61], ptrIp := 0 } = query := Option.some.inj hquery
    obtain rfl : data = sampleResponse [[0x62]] := mem_singleton.mp hdata
    exact not_asks_sampleResponse hasks
  · intro n
    use rounds_silence (by decide) n
    have hstuck : (Event.exec (initial true) (.resolve unreachable [0x61] 1 true 0)).Stuck :=
      ⟨rfl, rfl, by decide +kernel⟩
    have hreplies : ((initial true).run (.resolve unreachable [0x61] 1 true 0 ::
        silence 0 n)).replies = [] := (hstuck.silence 0 n).replies
    unfold Answered
    rw [hreplies]
    exact not_mem_nil

end SaltyOS.Dns.Resolver
