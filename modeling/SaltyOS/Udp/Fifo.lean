import Mathlib.Algebra.Order.BigOperators.Group.List
import SaltyOS.Lib.Prog
import SaltyOS.Udp.Socket

/-!
# Buffered datagrams are received in order

The datagrams in the buffer of a socket lie one after another in the ring of bytes, and their entries
lie one after another in the ring of entries. So a receive gives the first datagram that was not
received yet, and a datagram that arrives overwrites none of them. This holds in runs in which no
receive that waits has a limit that its completion has no room for, and a buffered datagram is given
to such a receive only when there is room in the queue of completions.
-/

namespace SaltyOS.Udp

open List RingBuf

/-! ## The contents of the buffer -/

namespace Datagram

/-- The number of bytes of some datagrams. -/
def total (q : List Datagram) : ℕ := (q.map fun d => d.payload.length).sum

/-- The bytes of some datagrams. -/
def bytes (q : List Datagram) : List Byte := q.flatMap (·.payload)

/-- The entry of a datagram whose bytes start at an offset. -/
def entry (d : Datagram) (offset : ℕ) : UdpRxEntry :=
  { active := true, srcIp := d.srcIp, srcPort := d.srcPort, offset, len := d.payload.length
    timestampNs := d.timestampNs }

/-- The entries of datagrams whose bytes start at an offset. -/
def entries : ℕ → List Datagram → List UdpRxEntry
  | _, [] => []
  | offset, d :: q => d.entry offset :: entries ((offset + d.payload.length) % udpRxBufSize) q

section

variable (q : List Datagram) (d : Datagram)

theorem total_append :
  total (q ++ [d]) = total q + d.payload.length
  := by
  unfold total
  rw [map_append, sum_append, map_singleton, sum_singleton]

theorem bytes_append :
  bytes (q ++ [d]) = bytes q ++ d.payload
  := by
  unfold bytes
  rw [flatMap_append, flatMap_singleton]

theorem entries_append {offset : ℕ} (h : offset < udpRxBufSize) :
  entries offset (q ++ [d]) = entries offset q ++ entries ((offset + total q) % udpRxBufSize) [d]
  := by
  induction q generalizing offset with
  | nil =>
    change entries offset [d] = entries ((offset + 0) % udpRxBufSize) [d]
    rw [Nat.add_zero, Nat.mod_eq_of_lt h]
  | cons e q ih =>
    have htotal : total (e :: q) = e.payload.length + total q := rfl
    rw [cons_append, entries, ih (Nat.mod_lt _ (by decide)), Nat.mod_add_mod, htotal, ← Nat.add_assoc]
    rfl

end

end Datagram

open Datagram

/-- The buffer of a socket holds some datagrams, whose bytes start at an offset. -/
structure UdpSocket.Holds (s : UdpSocket) (base : ℕ) (q : List Datagram) : Prop where
  base_lt : base < udpRxBufSize
  tail_lt : s.rxEntryTail < maxUdpRxEntries
  length_lt : q.length < maxUdpRxEntries
  head_eq : s.rxEntryHead = (s.rxEntryTail + q.length) % maxUdpRxEntries
  total_le : total q ≤ udpRxBufSize
  rxHead_eq : s.rxHead = (base + total q) % udpRxBufSize
  walk_entries : walk maxUdpRxEntries s.rxEntries s.rxEntryTail q.length = entries base q
  walk_bytes : walk udpRxBufSize s.rxBuf base (total q) = bytes q

namespace UdpSocket.Holds

variable {s : UdpSocket} {base : ℕ} {d : Datagram} {q : List Datagram}

theorem zeroed :
  UdpSocket.zeroed.Holds 0 []
  := ⟨by decide, by decide, by decide, rfl, Nat.zero_le _, rfl, rfl, rfl⟩

/-- The receive that waits is not part of the buffer. -/
theorem setPending (h : s.Holds base q) (pendingRecv : Bool) (pendingRecvMaxLen : ℕ)
    (pendingRecvOpType : OpType) (pendingRecvTimestamp : Bool) :
  Holds { s with pendingRecv, pendingRecvMaxLen, pendingRecvOpType, pendingRecvTimestamp } base q
  := ⟨h.base_lt, h.tail_lt, h.length_lt, h.head_eq, h.total_le, h.rxHead_eq, h.walk_entries,
    h.walk_bytes⟩

/-- The entries of a socket that holds a datagram, and then others. -/
theorem walk_cons (h : s.Holds base (d :: q)) :
  s.rxEntries s.rxEntryTail = d.entry base ∧
    walk maxUdpRxEntries s.rxEntries (nextEntry s.rxEntryTail) q.length =
      entries ((base + d.payload.length) % udpRxBufSize) q
  := by
  have hwalk := h.walk_entries
  rw [length_cons, walk, entries, cons.injEq] at hwalk
  exact hwalk

/-- The first entry is that of the first datagram. -/
theorem firstEntry (h : s.Holds base q) :
  s.firstEntry = (entries base q).head?
  := by
  have htail := h.tail_lt
  cases q with
  | nil =>
    have hhead : s.rxEntryHead = s.rxEntryTail := by
      rw [h.head_eq, length_nil, Nat.add_zero, Nat.mod_eq_of_lt htail]
    exact if_pos hhead
  | cons d q =>
    have hhead : s.rxEntryHead ≠ s.rxEntryTail := by
      have hlen := h.length_lt
      rw [h.head_eq, length_cons]
      rw [length_cons] at hlen
      unfold maxUdpRxEntries at *
      omega
    unfold UdpSocket.firstEntry
    rw [if_neg hhead, h.walk_cons.1]
    rfl

/-- The bytes of the first datagram. -/
theorem entryBytes (h : s.Holds base (d :: q)) (count : ℕ) :
  walk udpRxBufSize s.rxBuf base (min d.payload.length count) = d.payload.take count
  := by
  have hwalk := h.walk_bytes
  have htotal : total (d :: q) = min d.payload.length count +
      (total (d :: q) - min d.payload.length count) := by
    have hle : d.payload.length ≤ total (d :: q) := Nat.le_add_right _ _
    omega
  have hlen : (walk udpRxBufSize s.rxBuf base (min d.payload.length count)).length =
      min d.payload.length count := length_walk ..
  rw [htotal, walk_add _ _ _ h.base_lt] at hwalk
  have htake := congrArg (take (min d.payload.length count)) hwalk
  rw [take_left' hlen] at htake
  rw [htake]
  change (d.payload ++ bytes q).take _ = _
  rw [take_append_of_le_length (Nat.min_le_left _ _), take_eq_take_iff]
  omega

/-- The first datagram is consumed. -/
theorem consume (h : s.Holds base (d :: q)) :
  s.consume.Holds ((base + d.payload.length) % udpRxBufSize) q
  := by
  have hlength := h.length_lt
  rw [length_cons] at hlength
  have htotal : total (d :: q) = d.payload.length + total q := rfl
  refine ⟨Nat.mod_lt _ (by decide), Nat.mod_lt _ (by decide), by omega, ?_, ?_, ?_, ?_, ?_⟩
  · change s.rxEntryHead = _
    rw [h.head_eq, length_cons]
    unfold UdpSocket.consume nextEntry
    rw [Nat.mod_add_mod]
    congr 1
    omega
  · have hle := h.total_le
    omega
  · change s.rxHead = _
    rw [h.rxHead_eq, htotal, Nat.mod_add_mod, Nat.add_assoc]
  · change walk _ (Function.update _ _ _) (nextEntry s.rxEntryTail) _ = _
    have hlt : nextEntry s.rxEntryTail < maxUdpRxEntries := Nat.mod_lt _ (by decide)
    rw [walk_update_of_ne hlt ?_, h.walk_cons.2]
    intro i hi
    unfold nextEntry maxUdpRxEntries at *
    omega
  · have hwalk := h.walk_bytes
    rw [htotal, walk_add _ _ _ h.base_lt] at hwalk
    exact (append_inj hwalk (length_walk ..)).2

/-- The sources and the bytes of the entries are those of the datagrams. -/
theorem map_entries (h : s.Holds base q) :
  ((entries base q).map fun entry => (entry.srcIp, entry.srcPort, s.entryBytes entry entry.len)) =
    q.map fun d => (d.srcIp, d.srcPort, d.payload)
  := by
  -- Consuming the first datagram leaves the bytes as they are.
  induction q generalizing s base with
  | nil => rfl
  | cons d q ih =>
    have hfirst := h.entryBytes d.payload.length
    rw [Nat.min_self, take_length] at hfirst
    rw [entries, map_cons, map_cons]
    congr 1
    · exact congrArg (fun bytes => (d.srcIp, d.srcPort, bytes)) hfirst
    · exact ih (s := s.consume) h.consume

/-- The scan counts the bytes of the datagrams from an entry on. -/
theorem usedFrom {scan offset fuel : ℕ} (hscan : scan < maxUdpRxEntries)
    (hhead : s.rxEntryHead = (scan + q.length) % maxUdpRxEntries)
    (hlength : q.length < maxUdpRxEntries) (hfuel : q.length < fuel)
    (hwalk : walk maxUdpRxEntries s.rxEntries scan q.length = entries offset q) :
  s.usedFrom fuel scan = total q
  := by
  induction q generalizing scan offset fuel with
  | nil =>
    obtain ⟨fuel, rfl⟩ := Nat.exists_eq_add_of_lt hfuel
    rw [length_nil, Nat.add_zero, Nat.mod_eq_of_lt hscan] at hhead
    unfold UdpSocket.usedFrom
    rw [if_pos hhead.symm]
    rfl
  | cons d q ih =>
    obtain ⟨fuel, rfl⟩ : ∃ n, fuel = n + 1 := ⟨fuel - 1, by omega⟩
    rw [length_cons] at hhead hlength hfuel hwalk
    rw [walk, entries, cons.injEq] at hwalk
    have hne : scan ≠ s.rxEntryHead := by
      unfold maxUdpRxEntries at *
      omega
    have hhead' : s.rxEntryHead = (nextEntry scan + q.length) % maxUdpRxEntries := by
      rw [hhead]
      unfold nextEntry
      rw [Nat.mod_add_mod]
      congr 1
      omega
    have hlt : nextEntry scan < maxUdpRxEntries := Nat.mod_lt _ (by decide)
    have hrest : s.usedFrom fuel (nextEntry scan) = total q :=
      ih hlt hhead' (by omega) (by omega) hwalk.2
    unfold UdpSocket.usedFrom
    rw [if_neg hne, hwalk.1, hrest]
    rfl

/-- The bytes in use are those of the datagrams. -/
theorem used (h : s.Holds base q) :
  s.used = total q
  := usedFrom h.tail_lt h.head_eq h.length_lt h.length_lt h.walk_entries

/-- A datagram is put into the buffer. -/
theorem store (h : s.Holds base q) (hroom : s.hasRoom d = true) :
  (s.store d).Holds base (q ++ [d])
  := by
  have hlength := h.length_lt
  have htail := h.tail_lt
  unfold UdpSocket.hasRoom at hroom
  simp only [Bool.and_eq_true, bne_iff_ne, ne_eq, decide_eq_true_eq] at hroom
  obtain ⟨⟨hfull, -⟩, hbytes⟩ := hroom
  rw [h.used] at hbytes
  have htotal := h.total_le
  have hlength' : q.length + 1 < maxUdpRxEntries := by
    by_contra hge
    apply hfull
    rw [h.head_eq]
    unfold nextEntry maxUdpRxEntries at *
    omega
  have hsum : total q + d.payload.length ≤ udpRxBufSize := by omega
  refine ⟨h.base_lt, h.tail_lt, ?_, ?_, ?_, ?_, ?_, ?_⟩
  · rw [length_append, length_singleton]
    exact hlength'
  · change nextEntry s.rxEntryHead = (s.rxEntryTail + _) % _
    rw [h.head_eq, length_append, length_singleton]
    unfold nextEntry
    rw [Nat.mod_add_mod, Nat.add_assoc]
  · rw [total_append]
    exact hsum
  · change (s.rxHead + d.payload.length) % _ = _
    rw [h.rxHead_eq, total_append, Nat.mod_add_mod, Nat.add_assoc]
  · rw [length_append, length_singleton, entries_append q d h.base_lt, ← h.walk_entries]
    unfold UdpSocket.store
    rw [← h.rxHead_eq, h.head_eq]
    exact walk_fill h.tail_lt [_] s.rxEntries q.length (by rw [length_singleton]; omega)
  · rw [total_append, bytes_append, ← h.walk_bytes]
    unfold UdpSocket.store
    rw [h.rxHead_eq]
    exact walk_fill h.base_lt d.payload s.rxBuf (total q) hsum

end UdpSocket.Holds

/-! ## Runs -/

namespace Receiver

variable {r : Receiver}

/-- A receive was given a datagram: its source, and as many of its bytes as the caller has room for. -/
structure Gives (d : Datagram) (e : Delivery) : Prop where
  srcIp : e.srcIp = d.srcIp
  srcPort : e.srcPort = d.srcPort
  data : e.data = d.payload.take e.limit

theorem complete_of_hasRoom (h : r.hasRoom = true) (c : Completion) (limit : ℕ) :
  r.complete c limit =
    { r with
      completions := r.completions ++ [c]
      delivered := r.delivered ++
        [{ srcIp := c.extraIp, srcPort := c.extraPort, limit, data := c.data }] }
  := by
  unfold complete push
  rw [if_pos h, if_pos h]
  rfl

theorem complete_of_not_hasRoom (h : ¬r.hasRoom = true) (c : Completion) (limit : ℕ) :
  r.complete c limit = r
  := by
  unfold complete push
  rw [if_neg h, if_neg h]

/-- What the buffer holds: the source and the bytes of every entry. -/
def buffered (r : Receiver) : List (ℕ × ℕ × List Byte) :=
  (walk maxUdpRxEntries r.sock.rxEntries r.sock.rxEntryTail
    ((r.sock.rxEntryHead + maxUdpRxEntries - r.sock.rxEntryTail) % maxUdpRxEntries)).map fun entry =>
      (entry.srcIp, entry.srcPort, r.sock.entryBytes entry entry.len)

/-- The datagrams that were not dropped when they arrived have been given to receives, each one once
and in their order, and those that were not given yet are in the buffer. -/
def Lossless (r : Receiver) : Prop :=
  ∃ given rest, r.accepted = given ++ rest ∧ List.Forall₂ Gives given r.delivered ∧
    r.buffered = rest.map fun d => (d.srcIp, d.srcPort, d.payload)

/-- The event is a call that receives. -/
def Event.isReceive : Event → Bool
  | .recvfrom .. | .pendingRecv _ | .pendingRecvfrom .. => true
  | _ => false

/-- The receives that are safe: a completion has room for the limit of the caller, and if there is
something to receive then there is room for a completion. -/
def Careful (r : Receiver) : Event → Prop
  | .pendingRecv maxLen =>
    maxLen ≤ completionRoom .recv ∧ (r.sock.firstEntry.isSome = true → r.hasRoom = true)
  | .pendingRecvfrom maxLen _ =>
    maxLen ≤ completionRoom .recvfrom ∧ (r.sock.firstEntry.isSome = true → r.hasRoom = true)
  | _ => True

instance (r : Receiver) (e : Event) : Decidable (r.Careful e) := by
  unfold Careful
  split
  all_goals infer_instance

/-- A receive that finds something in the buffer is given a datagram at once. -/
def Prompt (r : Receiver) : Prop :=
  ∀ e, r.Careful e → e.isReceive = true → r.buffered ≠ [] →
    ∃ x, (r.exec e).delivered = r.delivered ++ [x]

theorem Lossless.data (h : r.Lossless) :
  (r.accepted.zipWith (fun d e => d.payload.take e.limit) r.delivered) = r.delivered.map (·.data)
  := by
  obtain ⟨given, rest, haccepted, hdelivered, -⟩ := h
  rw [haccepted]
  clear haccepted
  generalize r.delivered = delivered at hdelivered ⊢
  induction hdelivered with
  | nil => rw [nil_append, zipWith_nil_right, map_nil]
  | cons hgives _ ih => rw [cons_append, zipWith_cons_cons, ih, map_cons, hgives.data]

theorem Lossless.length (h : r.Lossless) :
  r.accepted.length = r.delivered.length + r.buffered.length
  := by
  obtain ⟨given, rest, haccepted, hdelivered, hbuffered⟩ := h
  rw [haccepted, hbuffered, length_append, hdelivered.length_eq, length_map]

/-- A step by an event that satisfies a condition. -/
def StepOf (P : Receiver → Event → Prop) (r r' : Receiver) : Prop :=
  ∃ e, P r e ∧ r' = r.exec e

/-- The invariant: the buffer holds what was accepted and not given, and a receive waits only if
there is nothing to receive. -/
structure Ok (r : Receiver) (base : ℕ) (given rest : List Datagram) : Prop where
  holds : r.sock.Holds base rest
  accepted : r.accepted = given ++ rest
  delivered : List.Forall₂ Gives given r.delivered
  pending : r.sock.pendingRecv = true →
    rest = [] ∧ r.sock.pendingRecvMaxLen ≤ completionRoom r.sock.pendingRecvOpType

namespace Ok

variable {base : ℕ} {given rest : List Datagram} {d : Datagram}

theorem initial :
  Receiver.initial.Ok 0 [] []
  := ⟨.zeroed, rfl, .nil, nofun⟩

/-- A completion that gives no datagram. -/
theorem push (h : r.Ok base given rest) (c : Completion) :
  (r.push c).Ok base given rest
  := by
  unfold Receiver.push
  split_ifs
  · exact ⟨h.holds, h.accepted, h.delivered, h.pending⟩
  · exact h

/-- The first datagram of the buffer is given to a receive. -/
theorem give (h : r.Ok base given (d :: rest)) {e : Delivery} (he : Gives d e)
    (completions : List Completion) :
  Ok { sock := r.sock.consume, completions, accepted := r.accepted
       delivered := r.delivered ++ [e] } ((base + d.payload.length) % udpRxBufSize) (given ++ [d]) rest
  := by
  refine ⟨h.holds.consume, ?_, ?_, ?_⟩
  · rw [append_assoc]
    exact h.accepted
  · exact rel_append h.delivered (.cons he .nil)
  · intro hpending
    exact nomatch (h.pending hpending).1

section

variable (h : r.Ok base given rest)
include h

/-- `udp_recvfrom`. -/
theorem udpRecvfrom (size : ℕ) (wantTimestamp : Bool) :
  (∃ base' given' rest', (r.udpRecvfrom size wantTimestamp).1.Ok base' given' rest') ∧
    (rest ≠ [] → ∃ x, (r.udpRecvfrom size wantTimestamp).1.delivered = r.delivered ++ [x])
  := by
  unfold Receiver.udpRecvfrom
  rw [h.holds.firstEntry]
  obtain _ | ⟨d, rest⟩ := rest
  · exact ⟨⟨base, given, [], h⟩, absurd rfl⟩
  have hgives : Gives d { srcIp := d.srcIp, srcPort := d.srcPort, limit := size
                          data := r.sock.entryBytes (d.entry base) (min d.payload.length size) } :=
    ⟨rfl, rfl, h.holds.entryBytes size⟩
  exact ⟨⟨_, _, rest, h.give hgives r.completions⟩, fun _ => ⟨_, rfl⟩⟩

/-- `set_pending_recv` and `set_pending_recvfrom`. -/
theorem setPending {opType : OpType} {maxLen : ℕ} (hlimit : maxLen ≤ completionRoom opType)
    (hroom : r.sock.firstEntry.isSome = true → r.hasRoom = true) (wantTimestamp : Bool) :
  (∃ base' given' rest', (r.setPending opType maxLen wantTimestamp).Ok base' given' rest') ∧
    (rest ≠ [] → ∃ x, (r.setPending opType maxLen wantTimestamp).delivered = r.delivered ++ [x])
  := by
  unfold Receiver.setPending
  rw [h.holds.firstEntry] at hroom ⊢
  cases rest with
  | nil =>
    refine ⟨⟨base, given, [], h.holds.setPending .., h.accepted, h.delivered, ?_⟩, absurd rfl⟩
    exact fun _ => ⟨rfl, hlimit⟩
  | cons d rest =>
    have hroom : r.hasRoom = true := hroom rfl
    have hmin : min (min d.payload.length maxLen) (completionRoom opType) =
        min d.payload.length maxLen := by
      omega
    have hgives : Gives d
        { srcIp := d.srcIp, srcPort := d.srcPort, limit := maxLen
          data := r.sock.entryBytes (d.entry base)
            (min (min d.payload.length maxLen) (completionRoom opType)) } := by
      use rfl, rfl
      rw [hmin]
      exact h.holds.entryBytes maxLen
    have hcomplete := complete_of_hasRoom (r := { r with sock := r.sock.consume }) hroom
    simp only [entries, head?_cons, hcomplete]
    exact ⟨⟨_, _, rest, h.give hgives _⟩, fun _ => ⟨_, rfl⟩⟩

/-- A datagram arrives while a receive waits. -/
theorem completePending (hpending : r.sock.pendingRecv = true) (d : Datagram) :
  ∃ base' given' rest', (r.completePending d).Ok base' given' rest'
  := by
  obtain ⟨rfl, hlimit⟩ := h.pending hpending
  have hmin : d.payload.take (min (min d.payload.length r.sock.pendingRecvMaxLen)
      (completionRoom r.sock.pendingRecvOpType)) = d.payload.take r.sock.pendingRecvMaxLen := by
    rw [take_eq_take_iff]
    omega
  unfold Receiver.completePending
  by_cases hroom : r.hasRoom = true
  · rw [if_pos hroom, complete_of_hasRoom]
    swap
    · exact hroom
    refine ⟨base, given ++ [d], [], h.holds.setPending .., ?_, ?_, nofun⟩
    · change r.accepted ++ [d] = _
      rw [h.accepted, append_nil, append_nil]
    · exact rel_append h.delivered (.cons ⟨rfl, rfl, hmin⟩ .nil)
  · rw [if_neg hroom, complete_of_not_hasRoom]
    swap
    · exact hroom
    exact ⟨base, given, [], h.holds.setPending .., h.accepted, h.delivered, nofun⟩

/-- `handle_datagram`. -/
theorem handleDatagram (d : Datagram) :
  ∃ base' given' rest', (r.handleDatagram d).Ok base' given' rest'
  := by
  unfold Receiver.handleDatagram
  split_ifs with hpending hroom hempty
  · exact h.completePending hpending d
  · exact ⟨base, given, rest, h⟩
  all_goals
    have hstored : Ok ({ r with sock := r.sock.store d }.accept d) base given (rest ++ [d]) := by
      refine ⟨h.holds.store (by simpa using hroom), ?_, h.delivered, fun hnot => absurd hnot hpending⟩
      change r.accepted ++ [d] = _
      rw [h.accepted, append_assoc]
  · exact ⟨base, given, rest ++ [d], hstored.push wakeup⟩
  · exact ⟨base, given, rest ++ [d], hstored⟩

/-- What a safe event does. -/
theorem exec {e : Event} (he : r.Careful e) :
  ∃ base' given' rest', (r.exec e).Ok base' given' rest'
  := by
  cases e with
  | datagram d => exact h.handleDatagram d
  | recvfrom size wantTimestamp => exact (h.udpRecvfrom size wantTimestamp).1
  | pendingRecv maxLen => exact (h.setPending he.1 he.2 false).1
  | pendingRecvfrom maxLen wantTimestamp => exact (h.setPending he.1 he.2 wantTimestamp).1
  | drain => exact ⟨base, given, rest, h.holds, h.accepted, h.delivered, h.pending⟩

/-- The buffer holds what was accepted and not given. -/
theorem buffered_eq :
  r.buffered = rest.map fun d => (d.srcIp, d.srcPort, d.payload)
  := by
  have hcount : (r.sock.rxEntryHead + maxUdpRxEntries - r.sock.rxEntryTail) % maxUdpRxEntries =
      rest.length := by
    have htail := h.holds.tail_lt
    have hlength := h.holds.length_lt
    rw [h.holds.head_eq]
    unfold maxUdpRxEntries at *
    omega
  unfold buffered
  rw [hcount, h.holds.walk_entries]
  exact h.holds.map_entries

theorem prompt :
  r.Prompt
  := by
  intro e he hreceive hbuffered
  have hrest : rest ≠ [] := by
    rintro rfl
    exact hbuffered h.buffered_eq
  cases e with
  | datagram _ | drain => cases hreceive
  | recvfrom size wantTimestamp => exact (h.udpRecvfrom size wantTimestamp).2 hrest
  | pendingRecv maxLen => exact (h.setPending he.1 he.2 false).2 hrest
  | pendingRecvfrom maxLen wantTimestamp => exact (h.setPending he.1 he.2 wantTimestamp).2 hrest

end

end Ok

/-- In every run of safe events, the datagrams that were not dropped when they arrived are given to
receives, each one once and in order; until then they are in the buffer, and a receive is given the first of
them at once. -/
theorem lossless_of_run (h : Relation.ReflTransGen (StepOf Careful) initial r) :
  r.Lossless ∧ r.Prompt
  := by
  obtain ⟨base, given, rest, hok⟩ : ∃ base given rest, r.Ok base given rest := by
    refine invariant_of_run (I := fun r : Receiver => ∃ base given rest, r.Ok base given rest) ?_
      ⟨0, [], [], .initial⟩ h
    rintro r r' ⟨base, given, rest, hok⟩ ⟨e, he, rfl⟩
    exact hok.exec he
  exact ⟨⟨given, rest, hok.accepted, hok.delivered, hok.buffered_eq⟩, hok.prompt⟩

/-- A datagram that is received when it is there, and one for which a receive waits. -/
theorem lossless_of_receives :
  let r := ((((initial.exec (.datagram ⟨1, 2, [3, 4, 5], 0⟩)).exec (.datagram ⟨1, 2, [], 0⟩)).exec
    (.recvfrom 2 false)).exec (.pendingRecv 152)).exec (.pendingRecvfrom 104 true)
  let r' := r.exec (.datagram ⟨6, 7, [8], 9⟩)
  r'.Lossless ∧ r'.delivered = [⟨1, 2, 2, [3, 4]⟩, ⟨1, 2, 152, []⟩, ⟨6, 7, 104, [8]⟩]
  := by
  intro r r'
  have hrun : Relation.ReflTransGen (StepOf Careful) initial r' := by
    refine .tail (.tail (.tail (.tail (.tail (.tail .refl ⟨_, ?_, rfl⟩) ⟨_, ?_, rfl⟩) ⟨_, ?_, rfl⟩)
      ⟨_, ?_, rfl⟩) ⟨_, ?_, rfl⟩) ⟨_, ?_, rfl⟩
    all_goals decide +kernel
  use (lossless_of_run hrun).1
  decide +kernel

/-- A receive with a limit of 128 bytes waits for a datagram of 105 bytes and gets 104 of them. And a
datagram is lost if it is given to a receive while the queue of completions is full. -/
theorem lossy_of_limit_and_of_full_queue :
  ¬((initial.exec (.pendingRecvfrom 128 false)).exec (.datagram ⟨1, 2, replicate 105 3, 0⟩)).Lossless ∧
    ¬((replicate 32 ()).foldl (fun r _ =>
      (r.exec (.datagram ⟨1, 2, [], 0⟩)).exec (.pendingRecv 152)) initial).Lossless
  := by
  constructor
  · intro h
    have hdata := h.data
    revert hdata
    decide +kernel
  · intro h
    have hlength := h.length
    revert hlength
    decide +kernel

end Receiver

end SaltyOS.Udp
