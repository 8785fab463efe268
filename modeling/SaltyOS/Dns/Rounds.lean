import SaltyOS.Dns.Resolver
import SaltyOS.Dns.Responses

/-!
# A round of the resolver

What `process_pending` does to the slots: every slot that it frees has one completion, a completion with
addresses comes from a message that asks for them if messages are genuine, and the slots that stay active
are changed by their deadlines alone.
-/

namespace SaltyOS.Dns.Resolver

open Function List

variable {r r' r₀ : Resolver} {net : Network} {data : List Byte} {received : List Datagram}
  {heard : List (List Byte)}

/-! ## Messages -/

/-- The question section of a message asks for the addresses of a host name. -/
def Asks (data hostname : List Byte) : Prop :=
  ∃ labels steps consumed count, Hostname hostname labels ∧
    NameAt data dnsHeaderLen labels steps consumed ∧
    be16 data (dnsHeaderLen + consumed) = some dnsTypeA ∧ be16 data 4 = some count ∧ 0 < count

/-- A message from the server that asks for the addresses of a host name and has these. -/
def Answers (heard : List (List Byte)) (hostname : List Byte) (result : DnsResult) : Prop :=
  ∃ data ∈ heard, Asks data hostname ∧ ∃ txnId, parseResponse data txnId = some (.ok result)

/-- A message of the server that carries the identifier of an A query repeats its question. -/
def Genuine (r : Resolver) (net : Network) (received : List Datagram) : Prop :=
  ∀ data ∈ fromServer net received, ∀ i, (r.pending i).active = true →
    (r.pending i).query.queryType = .a → be16 data 0 = some (r.pending i).txnId.toNat →
    Asks data (r.pending i).query.hostname

/-! ## Slots -/

/-- The slot after its deadline was looked at. -/
def deadlineSlot (r : Resolver) (net : Network) (now : ℕ) (p : PendingDns) : PendingDns :=
  if p.active && decide (now ≥ p.deadlineNs) then
    if p.attempt < dnsMaxRetries then
      if r.sendQueryForSlot net p then
        { p with attempt := p.attempt + 1, deadlineNs := later now dnsTimeoutNs }
      else { p with deadlineNs := later now arpRetryNs }
    else { p with active := false }
  else p

/-- The slot after it was flushed. -/
def flushedSlot (r : Resolver) (net : Network) (now : ℕ) (p : PendingDns) : PendingDns :=
  if p.active && r.sendQueryForSlot net p then { p with deadlineNs := later now dnsTimeoutNs } else p

@[simp]
theorem setSlot_pending (r : Resolver) (i : Fin maxPendingDns) (p : PendingDns) :
  (r.setSlot i p).pending = update r.pending i p
  := rfl

@[simp]
theorem pushCompletion_pending (r : Resolver) (c : DnsCompletion) :
  (r.pushCompletion c).pending = r.pending
  := by
  unfold pushCompletion
  split_ifs <;> rfl

section

variable (r : Resolver) (i : Fin maxPendingDns) (c : DnsCompletion)

/-- A completed query leaves its slot. -/
@[simp]
theorem complete_pending :
  (r.complete i c).pending = update r.pending i { r.pending i with active := false }
  := by
  unfold complete
  rw [setSlot_pending, pushCompletion_pending]

@[simp]
theorem complete_socketReady :
  (r.complete i c).socketReady = r.socketReady
  := by
  unfold complete pushCompletion
  split_ifs <;> rfl

end

section

variable (net : Network) (now : ℕ) (r : Resolver) (i : Fin maxPendingDns)

theorem checkDeadline_socketReady :
  (checkDeadline net now r i).socketReady = r.socketReady
  := by
  unfold checkDeadline
  split_ifs
  · rfl
  · rfl
  · exact complete_socketReady ..
  · rfl

/-- A deadline concerns its own slot only. -/
theorem checkDeadline_pending :
  (checkDeadline net now r i).pending = update r.pending i (r.deadlineSlot net now (r.pending i))
  := by
  unfold checkDeadline deadlineSlot
  split_ifs
  · rfl
  · rfl
  · exact complete_pending ..
  · rw [update_eq_self]

/-- A query is sent again from its own slot only. -/
theorem flushSlot_pending :
  (flushSlot net now r i).pending = update r.pending i (r.flushedSlot net now (r.pending i))
  := by
  unfold flushSlot flushedSlot
  split_ifs
  · rfl
  · rw [update_eq_self]

end

theorem sendQueryForSlot_congr (h : r'.socketReady = r.socketReady) (net : Network) (p : PendingDns) :
  r'.sendQueryForSlot net p = r.sendQueryForSlot net p
  := by
  unfold sendQueryForSlot
  rw [h]

/-- A loop over all slots that changes each by a function of it. -/
theorem foldl_pending {f : Resolver → Fin maxPendingDns → Resolver} {g : PendingDns → PendingDns}
    (hready : ∀ r i, (f r i).socketReady = r.socketReady)
    (hf : ∀ r' i, r'.socketReady = r.socketReady →
      (f r' i).pending = update r'.pending i (g (r'.pending i))) (i : Fin maxPendingDns) :
  (((finRange maxPendingDns).foldl f r).pending i) = g (r.pending i)
  := by
  have hloop : ∀ (l : List (Fin maxPendingDns)) (r' : Resolver), l.Nodup →
      r'.socketReady = r.socketReady →
      (l.foldl f r').pending i = if i ∈ l then g (r'.pending i) else r'.pending i := by
    intro l
    induction l with
    | nil => exact fun r' _ _ => rfl
    | cons j l ih =>
      intro r' hnodup hready'
      rw [nodup_cons] at hnodup
      rw [foldl_cons, ih (f r' j) hnodup.2 ((hready r' j).trans hready'), hf r' j hready']
      by_cases hij : i = j
      · subst hij
        rw [if_neg hnodup.1, if_pos (by simp), update_self]
      · simp [hij]
  rw [hloop _ r (nodup_finRange _) rfl, if_pos (mem_finRange i)]

theorem deadlineSlot_congr (h : r'.socketReady = r.socketReady) (net : Network) (now : ℕ)
    (p : PendingDns) :
  r'.deadlineSlot net now p = r.deadlineSlot net now p
  := by
  unfold deadlineSlot
  rw [sendQueryForSlot_congr h]

/-- All slots are looked at, each once. -/
theorem foldl_checkDeadline_pending (net : Network) (now : ℕ) (r : Resolver) (i : Fin maxPendingDns) :
  ((finRange maxPendingDns).foldl (checkDeadline net now) r).pending i =
    r.deadlineSlot net now (r.pending i)
  := by
  apply foldl_pending (checkDeadline_socketReady net now)
  intro r' j hready
  rw [checkDeadline_pending, deadlineSlot_congr hready]

/-- A deadline starts no query. -/
theorem active_of_deadlineSlot {now : ℕ} {p : PendingDns}
    (h : (r.deadlineSlot net now p).active = true) :
  p.active = true
  := by
  unfold deadlineSlot at h
  split_ifs at h
  · exact h
  · exact h
  · exact h

theorem later_le (now delay : ℕ) :
  later now delay ≤ now + delay
  := Nat.mod_le _ _

theorem arpRetryNs_le :
  arpRetryNs ≤ dnsTimeoutNs
  := by decide

/-! ## Completions in a round of the event loop -/

/-- What a round of the event loop has done so far to the slots of the state it began with. -/
structure Wave (r₀ : Resolver) (heard : List (List Byte)) (r : Resolver) : Prop where
  socketReady : r.socketReady = r₀.socketReady
  callers : r.callers = r₀.callers
  calls : r.calls = r₀.calls
  replies : r.replies = r₀.replies
  once : (r.completions.map DnsCompletion.replySlot).Nodup
  gone : ∀ i, i ∈ r.completions.map DnsCompletion.replySlot ↔
    (r₀.pending i).active = true ∧ (r.pending i).active = false
  kept : ∀ i, (r.pending i).active = true → (r₀.pending i).active = true ∧
    (r.pending i).query = (r₀.pending i).query
  attributed : ∀ c ∈ r.completions, c.queryType = .a → c.success = true →
    (r₀.pending c.replySlot).query.queryType = .a ∧
      Answers heard (r₀.pending c.replySlot).query.hostname c.dnsResult

namespace Wave

variable {r₀ r : Resolver} {heard : List (List Byte)}
variable {i : Fin maxPendingDns}

theorem refl (h : r₀.completions = []) :
  Wave r₀ heard r₀
  := by
  refine ⟨rfl, rfl, rfl, rfl, ?_, ?_, fun i hi => ⟨hi, rfl⟩, ?_⟩
  · rw [h]
    exact nodup_nil
  · intro i
    rw [h]
    simp
  · intro c hc
    rw [h] at hc
    cases hc

section

variable (h : Wave r₀ heard r)
include h

/-- A slot that stays active keeps its query. -/
theorem setSlot {p : PendingDns} (hactive : (r.pending i).active = true) (hp : p.active = true)
    (hquery : p.query = (r.pending i).query) :
  Wave r₀ heard (r.setSlot i p)
  := by
  refine ⟨h.socketReady, h.callers, h.calls, h.replies, h.once, ?_, ?_, h.attributed⟩
  · intro j
    rw [setSlot_pending]
    by_cases hji : j = i
    · subst hji
      rw [update_self, hp]
      have hgone := h.gone j
      rw [hactive] at hgone
      exact hgone
    · rw [update_of_ne hji]
      exact h.gone j
  · intro j hj
    rw [setSlot_pending] at hj ⊢
    by_cases hji : j = i
    · subst hji
      rw [update_self, hquery]
      exact h.kept j hactive
    · rw [update_of_ne hji] at hj ⊢
      exact h.kept j hj

/-- There is room for the completion of a slot that is still active. -/
theorem room (hactive : (r.pending i).active = true) :
  r.completions.length < maxPendingDns
  := by
  have hfresh : i ∉ r.completions.map DnsCompletion.replySlot := by
    intro hi
    have hinactive := ((h.gone i).mp hi).2
    rw [hactive] at hinactive
    cases hinactive
  have hnodup := (nodup_cons.mpr ⟨hfresh, h.once⟩).length_le_card
  rw [length_cons, length_map, Fintype.card_fin] at hnodup
  exact hnodup

/-- A slot is completed. -/
theorem complete {c : DnsCompletion} (hactive : (r.pending c.replySlot).active = true)
    (hc : c.queryType = .a → c.success = true → (r₀.pending c.replySlot).query.queryType = .a ∧
      Answers heard (r₀.pending c.replySlot).query.hostname c.dnsResult) :
  Wave r₀ heard (r.complete c.replySlot c)
  := by
  have hfresh : c.replySlot ∉ r.completions.map DnsCompletion.replySlot := by
    intro hi
    have hinactive := ((h.gone _).mp hi).2
    rw [hactive] at hinactive
    cases hinactive
  have hcompletions : (r.complete c.replySlot c).completions = r.completions ++ [c] := by
    unfold Resolver.complete pushCompletion
    rw [if_neg (Nat.not_le.mpr (h.room hactive))]
    rfl
  have hrest : (r.complete c.replySlot c).callers = r.callers ∧
      (r.complete c.replySlot c).calls = r.calls ∧
      (r.complete c.replySlot c).replies = r.replies := by
    unfold Resolver.complete pushCompletion
    rw [if_neg (Nat.not_le.mpr (h.room hactive))]
    exact ⟨rfl, rfl, rfl⟩
  obtain ⟨hcallers, hcalls, hreplies⟩ := hrest
  refine ⟨(complete_socketReady ..).trans h.socketReady, hcallers.trans h.callers,
    hcalls.trans h.calls, hreplies.trans h.replies, ?_, ?_, ?_, ?_⟩
  · rw [hcompletions, map_append]
    exact List.Nodup.append h.once (nodup_singleton _) (disjoint_singleton.mpr hfresh)
  · intro j
    rw [hcompletions, map_append, mem_append, complete_pending]
    by_cases hj : j = c.replySlot
    · subst hj
      have hkept := (h.kept _ hactive).1
      simp [hkept]
    · rw [update_of_ne hj, h.gone j]
      simp [hj]
  · intro j hj
    rw [complete_pending] at hj ⊢
    by_cases hji : j = c.replySlot
    · subst hji
      rw [update_self] at hj
      cases hj
    · rw [update_of_ne hji] at hj ⊢
      exact h.kept j hj
  · intro c' hc'
    rw [hcompletions, mem_append, mem_singleton] at hc'
    obtain hc' | rfl := hc'
    · exact h.attributed c' hc'
    · exact hc

/-- A query that fails at its deadline was active before. -/
theorem checkDeadline (net : Network) (now : ℕ) (i : Fin maxPendingDns) :
  Wave r₀ heard (checkDeadline net now r i)
  := by
  unfold Resolver.checkDeadline
  split_ifs with hdue hattempt hsent
  · exact h.setSlot (Bool.and_eq_true _ _ ▸ hdue).1 (Bool.and_eq_true _ _ ▸ hdue).1 rfl
  · exact h.setSlot (Bool.and_eq_true _ _ ▸ hdue).1 (Bool.and_eq_true _ _ ▸ hdue).1 rfl
  · apply h.complete (c := timedOut i (r.pending i)) (Bool.and_eq_true _ _ ▸ hdue).1
    exact nofun
  · exact h

theorem checkDeadlines (net : Network) (now : ℕ) (l : List (Fin maxPendingDns)) :
  Wave r₀ heard (l.foldl (Resolver.checkDeadline net now) r)
  := by
  induction l generalizing r with
  | nil => exact h
  | cons i l ih => exact ih (h.checkDeadline net now i)

end

end Wave

/-- A message whose header is accepted carries the identifier. -/
theorem be16_of_parseHeader {txnId : ℕ} {counts : Counts}
    (h : parseHeader data txnId = some (.ok counts)) :
  be16 data 0 = some txnId
  := by
  unfold parseHeader at h
  split at h
  · cases h
  cases hid : be16 data 0 with
  | none =>
    rw [hid] at h
    cases h
  | some id =>
    rw [hid, Option.bind_eq_bind, Option.bind_some] at h
    by_cases hne : id = txnId
    · rw [hne]
    · rw [if_pos hne] at h
      cases h

/-- A message in which addresses are found carries the identifier. -/
theorem be16_of_parseResponse {txnId : ℕ} {result : DnsResult}
    (h : parseResponse data txnId = some (.ok result)) :
  be16 data 0 = some txnId
  := by
  unfold parseResponse at h
  cases hheader : parseHeader data txnId with
  | none =>
    rw [hheader] at h
    cases h
  | some parsed =>
    cases parsed with
    | mismatch =>
      rw [hheader] at h
      cases h
    | error rcode =>
      rw [hheader] at h
      cases h
    | ok counts => exact be16_of_parseHeader hheader

/-- What a completed slot was matched by. -/
theorem matchSlot_spec {i : Fin maxPendingDns} {c : DnsCompletion} (h : r.matchSlot data i = some c) :
  (r.pending i).active = true ∧ c.replySlot = i ∧
    (c.queryType = .a → c.success = true → (r.pending i).query.queryType = .a ∧
      parseResponse data (r.pending i).txnId.toNat = some (.ok c.dnsResult))
  := by
  unfold matchSlot at h
  split_ifs at h with hactive
  use hactive
  cases htype : (r.pending i).query.queryType with
  | a =>
    rw [htype] at h
    dsimp only at h
    unfold matchA at h
    split at h
    next result hparse =>
      cases h
      exact ⟨rfl, fun _ _ => ⟨rfl, hparse⟩⟩
    · cases h
      exact ⟨rfl, nofun⟩
    · cases h
  | ptr =>
    rw [htype] at h
    dsimp only at h
    unfold matchPtr at h
    split at h
    · cases h
      exact ⟨rfl, nofun⟩
    · cases h
      exact ⟨rfl, nofun⟩
    · cases h

/-- A datagram from the server is heard. -/
theorem mem_fromServer {d : Datagram} (hd : d ∈ received) (hip : d.srcIp = net.dnsServer)
    (hport : d.srcPort = dnsPort) :
  d.payload ∈ fromServer net received
  := by
  refine mem_map_of_mem (mem_filter.mpr ⟨hd, ?_⟩)
  rw [hip, hport, beq_self_eq_true, beq_self_eq_true]
  rfl

/-- After some datagrams, the slots that are still active are as before. -/
def Untouched (r₀ r : Resolver) : Prop :=
  ∀ i, (r.pending i).active = true → r.pending i = r₀.pending i

section

variable (h : Wave r₀ heard r) (hsame : Untouched r₀ r) (hgenuine : r₀.Genuine net received)
  (hheard : ∀ data ∈ fromServer net received, data ∈ heard)
include h hsame hgenuine hheard

/-- One datagram. -/
theorem Wave.processDatagram {d : Datagram} (hd : d ∈ received) :
  Wave r₀ heard (processDatagram net r d) ∧ Untouched r₀ (processDatagram net r d)
  := by
  unfold Resolver.processDatagram
  by_cases hsource : d.srcIp ≠ net.dnsServer ∨ d.srcPort ≠ dnsPort
  · rw [if_pos hsource]
    exact ⟨h, hsame⟩
  rw [if_neg hsource]
  push Not at hsource
  have hdata := mem_fromServer hd hsource.1 hsource.2
  rcases hfound : (finRange maxPendingDns).findSome? (r.matchSlot d.payload) with _ | c
  · exact ⟨h, hsame⟩
  obtain ⟨i, -, hmatch⟩ := exists_of_findSome?_eq_some hfound
  obtain ⟨hactive, hslot, hanswers⟩ := matchSlot_spec hmatch
  subst hslot
  have hold := hsame _ hactive
  refine ⟨h.complete hactive ?_, ?_⟩
  · intro htype hsuccess
    obtain ⟨hquery, hparse⟩ := hanswers htype hsuccess
    have hid := be16_of_parseResponse hparse
    rw [hold] at hactive hquery hid
    exact ⟨hquery, d.payload, hheard _ hdata, hgenuine _ hdata _ hactive hquery hid, _, hparse⟩
  intro j hj
  rw [complete_pending] at hj ⊢
  by_cases hjc : j = c.replySlot
  · subst hjc
    rw [update_self] at hj
    cases hj
  · rw [update_of_ne hjc] at hj ⊢
    exact hsame j hj

/-- All datagrams of a round. -/
theorem Wave.processDatagrams {ds : List Datagram} (hds : ∀ d ∈ ds, d ∈ received) :
  Wave r₀ heard (ds.foldl (Resolver.processDatagram net) r) ∧
    Untouched r₀ (ds.foldl (Resolver.processDatagram net) r)
  := by
  induction ds generalizing r with
  | nil => exact ⟨h, hsame⟩
  | cons d ds ih =>
    obtain ⟨hwave, hsame'⟩ := h.processDatagram hsame hgenuine hheard (hds d (by simp))
    exact ih hwave hsame' fun d' hd' => hds d' (by simp [hd'])

end

/-- What `process_pending` does: it completes slots, and the slots that stay active are changed by their
deadlines alone. -/
theorem processPending_spec (now : ℕ) (hempty : r.completions = [])
    (hgenuine : r.Genuine net received) :
  Wave r (fromServer net received) (r.processPending net received now) ∧
    ∀ i, ((r.processPending net received now).pending i).active = true →
      (r.processPending net received now).pending i =
        if r.socketReady then r.deadlineSlot net now (r.pending i) else r.pending i
  := by
  unfold processPending
  by_cases hready : r.socketReady = true
  · rw [if_pos hready]
    have hstart : Wave r (fromServer net received) r := .refl hempty
    obtain ⟨hwave, hsame⟩ := hstart.processDatagrams (fun _ _ => rfl) hgenuine
      (fun _ hdata => hdata) (fun _ hd => hd)
    use hwave.checkDeadlines net now _
    intro i hi
    rw [foldl_checkDeadline_pending, deadlineSlot_congr hwave.socketReady] at hi ⊢
    rw [hsame i (active_of_deadlineSlot hi), if_pos hready]
  · rw [if_neg hready]
    exact ⟨.refl hempty, fun i _ => by rw [if_neg hready]⟩

end SaltyOS.Dns.Resolver
