import Mathlib.Data.List.Flatten
import SaltyOS.Lib.Prog
import SaltyOS.Vfs.Pipe

/-!
# The stream of a pipe

A run of reads, writes and closes on one pipe. The bytes given to the readers should be a prefix of
the bytes accepted from the writers, in the order in which the writers came, and nobody should wait
when there is something to do. A request wakes at most one waiter, so this may fail when several
clients wait at one end: the first one may leave bytes, or room, for the others. It holds in runs in
which this does not happen, and in which no queue of waiters is full.
-/

namespace SaltyOS.Vfs

open Function Relation List PipeState

/-- The bytes that an answer gives to a reader. -/
def Reply.given : Reply → List Byte
  | .bytes data => data
  | _ => []

/-- The bytes that an answer accepts from a writer: the first ones, as many as it says. -/
def Reply.accepted (data : List Byte) : Reply → Option (List Byte)
  | .ok [count] => some (data.take count)
  | _ => none

/-- The answers of an effect, with the requests that they answer. -/
def PipeEffect.answers (e : PipeEffect) (request : ℕ) : List (ℕ × Reply) :=
  e.sends.map (fun a => (a.1.request, a.2)) ++ e.reply.toList.map (request, ·)

/-- A pipe with its history, as the clients see it. The pipe is missing once it is released.
`written` has the bytes of each request to write, `acked` the bytes that were accepted from it
according to the answers, and `delivered` the bytes given to the readers. The callers that were saved
but not put into a queue are counted in `lostReaders` and `lostWriters`. -/
structure Stream where
  pipe : Option PipeState
  requests : ℕ
  written : ℕ → List Byte
  acked : ℕ → List Byte
  delivered : List Byte
  lostReaders : ℕ
  lostWriters : ℕ

/-- The requests on a pipe. -/
inductive PipeEvent where
  | read (requested : ℕ) (nonblocking : Bool) (slot badge : ℕ)
  | write (data : List Byte) (nonblocking : Bool) (slot badge : ℕ)
  | closeRead
  | closeWrite

namespace Stream

variable {acked : ℕ → List Byte} {n : ℕ} {s : Stream} {e : PipeEffect} {p : PipeState}
  {data : List Byte}

/-- Note the bytes accepted from some requests. -/
def record (acked : ℕ → List Byte) (accepted : List (ℕ × List Byte)) : ℕ → List Byte :=
  accepted.foldl (fun f a => update f a.1 (f a.1 ++ a.2)) acked

/-- The bytes that the answers to a request with the given bytes accept. -/
def accepted (s : Stream) (data : List Byte) (e : PipeEffect) : List (ℕ × List Byte) :=
  (e.answers s.requests).filterMap fun a =>
    (a.2.accepted (update s.written s.requests data a.1)).map (a.1, ·)

/-- The history after the effect of a request with the given bytes. -/
def apply (s : Stream) (data : List Byte) (e : PipeEffect) : Stream :=
  { s with
    pipe := some e.pipe
    requests := s.requests + 1
    written := update s.written s.requests data
    acked := record s.acked (s.accepted data e)
    delivered := s.delivered ++ (e.answers s.requests).flatMap fun a => a.2.given }

/-- The caller was saved but not put into a queue. -/
def lost (e : PipeEffect) : ℕ := if e.saved && e.reply.isSome then 1 else 0

/-- A read. -/
def read (s : Stream) (p : PipeState) (requested : ℕ) (nonblocking : Bool) (slot badge : ℕ) :
    Stream :=
  { s.apply [] (p.read requested nonblocking { slot, badge, request := s.requests }) with
    lostReaders :=
      s.lostReaders + lost (p.read requested nonblocking { slot, badge, request := s.requests }) }

/-- A write. -/
def write (s : Stream) (p : PipeState) (data : List Byte) (nonblocking : Bool) (slot badge : ℕ) :
    Stream :=
  { s.apply data (p.write data nonblocking { slot, badge, request := s.requests }) with
    lostWriters :=
      s.lostWriters + lost (p.write data nonblocking { slot, badge, request := s.requests }) }

/-- The pipe is released once both ends are closed. -/
def close (s : Stream) (p : PipeState) : Stream :=
  { s with pipe := if p.isClosed then none else some p }

/-- The state after a request. -/
def exec (s : Stream) (e : PipeEvent) : Stream :=
  match s.pipe, e with
  | none, _ => s
  | some p, .read requested nonblocking slot badge => s.read p requested nonblocking slot badge
  | some p, .write data nonblocking slot badge => s.write p data nonblocking slot badge
  | some p, .closeRead => s.close p.closeRead.1
  | some p, .closeWrite => s.close p.closeWrite.1

/-- A new pipe with the given numbers of ends. -/
def initial (readers writers : ℕ) : Stream where
  pipe := some { new with readRefcount := readers, writeRefcount := writers }
  requests := 0
  written := fun _ => []
  acked := fun _ => []
  delivered := []
  lostReaders := 0
  lostWriters := 0

/-- The bytes accepted from the writers, in the order of their requests. -/
def ackedInOrder (s : Stream) : List Byte := (range s.requests).flatMap s.acked

/-- The number of readers that wait. -/
def blockedReaders (s : Stream) : ℕ :=
  (s.pipe.elim 0 fun p => p.recvWaiters.length) + s.lostReaders

/-- The number of writers that wait. -/
def blockedWriters (s : Stream) : ℕ :=
  (s.pipe.elim 0 fun p => p.writeWaiters.length) + s.lostWriters

/-- The pipe is a stream that strands nobody. -/
structure Sound (s : Stream) : Prop where
  fifo : s.delivered <+: s.ackedInOrder
  capacity : s.ackedInOrder.length ≤ s.delivered.length + (pipeBufSize - 1)
  readers : 0 < s.blockedReaders → ∃ p, s.pipe = some p ∧ p.buf.len = 0 ∧ p.writeRefcount ≠ 0
  writers : 0 < s.blockedWriters → ∃ p, s.pipe = some p ∧ p.buf.free = 0 ∧ p.readRefcount ≠ 0

/-! ## The bytes accepted in order -/

/-- Accepting bytes from a request after which nothing was accepted. -/
theorem flatMap_update {m : ℕ} (bytes : List Byte) (hn : n < m) (hlater : ∀ k, n ≤ k → acked k = []) :
  (range m).flatMap (update acked n (acked n ++ bytes)) = (range m).flatMap acked ++ bytes
  := by
  obtain ⟨d, rfl⟩ := Nat.exists_eq_add_of_lt hn
  have hsplit : range (n + d + 1) = range n ++ n :: (range d).map (n + 1 + ·) := by
    rw [show n + d + 1 = n + (d + 1) by omega, range_add, range_succ_eq_map, map_cons, List.map_map]
    congr 2
    apply map_congr_left
    intro i _
    simp only [comp_apply]
    omega
  have hbefore : (range n).flatMap (update acked n (acked n ++ bytes)) = (range n).flatMap acked := by
    apply flatMap_congr
    intro k hk
    rw [update_of_ne (mem_range.mp hk).ne]
  have hafter (f : ℕ → List Byte) (hf : ∀ k, n < k → f k = []) :
      ((range d).map (n + 1 + ·)).flatMap f = [] := by
    rw [flatMap_eq_nil_iff]
    intro k hk
    obtain ⟨i, -, rfl⟩ := mem_map.mp hk
    apply hf
    omega
  rw [hsplit, flatMap_append, flatMap_append, flatMap_cons, flatMap_cons, hbefore,
    update_self, hafter acked fun k hk => hlater k hk.le, hafter _ fun k hk => ?_,
    hlater n le_rfl]
  · simp only [nil_append, append_nil]
  · rw [update_of_ne hk.ne']
    apply hlater k hk.le

/-- Nothing is accepted from requests to come. -/
def Bounded (acked : ℕ → List Byte) (requests : ℕ) : Prop :=
  ∀ k, requests ≤ k → acked k = []

theorem flatMap_range_succ (h : Bounded acked n) :
  (range (n + 1)).flatMap acked = (range n).flatMap acked
  := by
  rw [range_succ, flatMap_append, flatMap_singleton, h n le_rfl, append_nil]

/-- Accepting nothing. -/
theorem ackedInOrder_apply_nil (hb : Bounded s.acked s.requests) (he : (s.apply data e).acked = s.acked) :
  (s.apply data e).ackedInOrder = s.ackedInOrder
  := by
  show (range (s.requests + 1)).flatMap (s.apply data e).acked = _
  rw [he]
  apply flatMap_range_succ hb

/-- Accepting bytes from the last request from which anything was accepted, or a later one. -/
theorem ackedInOrder_apply_single (hb : Bounded s.acked s.requests) {bytes : List Byte}
    (he : s.accepted data e = [(n, bytes)]) (hn : n ≤ s.requests) (hlater : ∀ k, n ≤ k → s.acked k = []) :
  (s.apply data e).ackedInOrder = s.ackedInOrder ++ bytes
  := by
  show (range (s.requests + 1)).flatMap (record s.acked (s.accepted data e)) = _
  rw [he]
  show (range (s.requests + 1)).flatMap (update s.acked n (s.acked n ++ bytes)) = _
  rw [flatMap_update bytes (Nat.lt_succ_of_le hn) hlater, flatMap_range_succ hb]
  rfl

theorem bounded_record (hb : Bounded acked (n + 1)) {accepted : List (ℕ × List Byte)}
    (ha : ∀ a ∈ accepted, a.1 ≤ n) :
  Bounded (record acked accepted) (n + 1)
  := by
  induction accepted generalizing acked with
  | nil => exact hb
  | cons a as ih =>
    apply ih
    · intro k hk
      have hle := ha a mem_cons_self
      show update acked a.1 (acked a.1 ++ a.2) k = []
      rw [update_of_ne (by omega)]
      apply hb k hk
    · intro a' ha'
      apply ha a' (mem_cons_of_mem a ha')

theorem bounded_apply (hb : Bounded s.acked s.requests)
    (he : ∀ a ∈ s.accepted data e, a.1 ≤ s.requests) :
  Bounded (s.apply data e).acked (s.apply data e).requests
  := by
  apply bounded_record _ he
  intro k hk
  apply hb k (Nat.le_of_succ_le hk)

theorem bounded_apply_single (hb : Bounded s.acked s.requests) {bytes : List Byte}
    (he : s.accepted data e = [(n, bytes)]) (hn : n ≤ s.requests) :
  Bounded (s.apply data e).acked (s.apply data e).requests
  := by
  apply bounded_apply hb
  intro a ha
  rw [he] at ha
  rw [mem_singleton.mp ha]
  exact hn

/-! ## The invariant -/

/-- A pipe agrees with its history, and strands nobody. -/
structure PipeOk (s : Stream) (p : PipeState) : Prop where
  content : s.delivered ++ p.buf.toList = s.ackedInOrder
  readers : p.recvWaiters ≠ [] → p.buf.len = 0 ∧ p.writeRefcount ≠ 0
  writers : p.writeWaiters ≠ [] → p.buf.free = 0 ∧ p.readRefcount ≠ 0
  order : p.writeWaiters.Pairwise fun w w' => w.waiter.request < w'.waiter.request
  pending : ∀ w ∈ p.writeWaiters, w.waiter.request < s.requests ∧
    ∀ k, w.waiter.request ≤ k → s.acked k = []
  data : ∀ w ∈ p.writeWaiters, w.data = (s.written w.waiter.request).take 144

/-- The invariant of careful runs. -/
structure Ok (s : Stream) : Prop where
  lostReaders : s.lostReaders = 0
  lostWriters : s.lostWriters = 0
  bounded : Bounded s.acked s.requests
  opened : ∀ p, s.pipe = some p → s.PipeOk p
  fifo : s.delivered <+: s.ackedInOrder
  capacity : s.ackedInOrder.length ≤ s.delivered.length + (pipeBufSize - 1)

theorem PipeOk.length_le (h : s.PipeOk p) :
  s.ackedInOrder.length ≤ s.delivered.length + (pipeBufSize - 1)
  := by
  rw [← h.content, length_append, GapRing.length_toList]
  have hlen := p.buf.len_lt
  omega

/-- An open pipe carries the whole invariant. -/
theorem Ok.of_pipe (hr : s.lostReaders = 0) (hw : s.lostWriters = 0)
    (hb : Bounded s.acked s.requests) (hp : s.pipe = some p) (h : s.PipeOk p) :
  s.Ok
  := by
  refine ⟨hr, hw, hb, fun q hq => ?_, ⟨p.buf.toList, h.content⟩, h.length_le⟩
  rw [hp] at hq
  cases hq
  exact h

theorem Ok.sound (h : s.Ok) :
  s.Sound
  := by
  refine ⟨h.fifo, h.capacity, fun hpos => ?_, fun hpos => ?_⟩
  · unfold blockedReaders at hpos
    rw [h.lostReaders] at hpos
    cases hp : s.pipe with
    | none =>
      rw [hp] at hpos
      exact absurd hpos (by decide)
    | some p =>
      rw [hp] at hpos
      exact ⟨p, rfl, (h.opened p hp).readers (ne_nil_of_length_pos hpos)⟩
  · unfold blockedWriters at hpos
    rw [h.lostWriters] at hpos
    cases hp : s.pipe with
    | none =>
      rw [hp] at hpos
      exact absurd hpos (by decide)
    | some p =>
      rw [hp] at hpos
      exact ⟨p, rfl, (h.opened p hp).writers (ne_nil_of_length_pos hpos)⟩

/-- A pipe agrees with the history after a request. -/
structure StillOk (s : Stream) (data : List Byte) (e : PipeEffect) : Prop where
  pipe : (s.apply data e).PipeOk e.pipe
  bounded : Bounded (s.apply data e).acked (s.apply data e).requests

/-- A writer that waits keeps the bytes of its request. -/
theorem PipeOk.data_eq (h : s.PipeOk p) {w : PipeWriteWaiter} (hw : w ∈ p.writeWaiters)
    (data : List Byte) :
  w.data = (update s.written s.requests data w.waiter.request).take 144
  := by
  rw [update_of_ne (h.pending w hw).1.ne]
  exact h.data w hw

/-- Nothing was accepted from the writers behind the first one. -/
theorem PipeOk.pending_rest (h : s.PipeOk p) {w w' : PipeWriteWaiter} {ws : List PipeWriteWaiter}
    (hw : p.writeWaiters = w :: ws) (hw' : w' ∈ ws) (bytes : List Byte) {k : ℕ} (hk : w'.waiter.request ≤ k) :
  update s.acked w.waiter.request bytes k = []
  := by
  have horder := h.order
  rw [hw, pairwise_cons] at horder
  have hlt := horder.1 w' hw'
  rw [update_of_ne (by omega)]
  apply (h.pending w' _).2 k hk
  rw [hw]
  exact mem_cons_of_mem w hw'

/-- The bytes accepted from a waiting writer are the first of its request. -/
theorem PipeOk.accepted_eq (h : s.PipeOk p) {w : PipeWriteWaiter} (hw : w ∈ p.writeWaiters)
    (data : List Byte) {count : ℕ} (hcount : count ≤ w.data.length) :
  (update s.written s.requests data w.waiter.request).take count = w.data.take count
  := by
  have hle : count ≤ 144 := by
    rw [h.data w hw] at hcount
    exact hcount.trans (length_take_le _ _)
  rw [h.data_eq hw data, take_take, Nat.min_eq_left hle]

/-! ## Effects that move no bytes -/

/-- An effect that moves no bytes, on a pipe that is still fine. -/
theorem PipeOk.apply_idle (h : s.PipeOk p) (hb : Bounded s.acked s.requests)
    (hacked : (s.apply data e).acked = s.acked) (hdelivered : (s.apply data e).delivered = s.delivered)
    (hbuf : e.pipe.buf = p.buf)
    (hreaders : e.pipe.recvWaiters ≠ [] → p.buf.len = 0 ∧ e.pipe.writeRefcount ≠ 0)
    (hwriters : e.pipe.writeWaiters ≠ [] → p.buf.free = 0 ∧ e.pipe.readRefcount ≠ 0)
    (horder : e.pipe.writeWaiters.Pairwise fun w w' => w.waiter.request < w'.waiter.request)
    (hpending : ∀ w ∈ e.pipe.writeWaiters, w ∈ p.writeWaiters ∨
      w.waiter.request = s.requests ∧ w.data = data.take 144) :
  s.StillOk data e
  := by
  refine ⟨⟨?_, ?_, ?_, horder, fun w hw => ?_, fun w hw => ?_⟩, ?_⟩
  · rw [ackedInOrder_apply_nil hb hacked, hdelivered, hbuf]
    exact h.content
  · rw [hbuf]
    exact hreaders
  · rw [hbuf]
    exact hwriters
  · rw [hacked]
    obtain hold | ⟨hnew, -⟩ := hpending w hw
    · obtain ⟨hlt, hlater⟩ := h.pending w hold
      exact ⟨Nat.lt_succ_of_lt hlt, hlater⟩
    · rw [hnew]
      exact ⟨Nat.lt_succ_self _, hb⟩
  · show w.data = (update s.written s.requests data w.waiter.request).take 144
    obtain hold | ⟨hnew, hdata⟩ := hpending w hw
    · exact h.data_eq hold data
    · rw [hnew, update_self]
      exact hdata
  · rw [hacked]
    intro k hk
    exact hb k (Nat.le_of_succ_le hk)

/-- An answer that neither gives nor accepts bytes. -/
theorem PipeOk.answer (h : s.PipeOk p) (hb : Bounded s.acked s.requests) {reply : Reply}
    (hacked : (s.apply data (p.answer reply)).acked = s.acked) (hgiven : reply.given = []) :
  s.StillOk data (p.answer reply)
  := by
  apply h.apply_idle hb hacked _ rfl h.readers h.writers h.order fun _ hw => .inl hw
  show s.delivered ++ (reply.given ++ []) = _
  rw [hgiven, append_nil, append_nil]

/-! ## Reads and writes -/

/-- The first writer fills all the room that a read leaves, or there is no other one. -/
def ReadCareful (p : PipeState) (count : ℕ) : Prop :=
  p.writeWaiters.length ≤ 1 ∨ ∀ w ∈ p.writeWaiters.head?, count ≤ w.data.length

/-- The first reader takes all the bytes of a write, or there is no other one. -/
def WriteCareful (p : PipeState) (written : ℕ) : Prop :=
  p.recvWaiters.length ≤ 1 ∨ ∀ r ∈ p.recvWaiters.head?, written ≤ r.requestedLen

/-- The room after a read of a full buffer and a write that fills it again. -/
theorem free_drop_write {cap : ℕ} (r : GapRing Byte cap) {count : ℕ} (hfull : r.free = 0)
    (hcount : count ≤ r.len) (hdata : count ≤ data.length) :
  ((r.drop count).write data).free = 0
  := by
  have hlen := r.len_lt
  have hlen' : cap - 1 - r.len = 0 := hfull
  have hdrop : (r.drop count).len = r.len - count := by
    rw [GapRing.len_drop]
    omega
  have hwrite : (r.drop count).writeLen data = count := by
    unfold GapRing.writeLen GapRing.free
    omega
  show cap - 1 - ((r.drop count).write data).len = 0
  rw [GapRing.len_write, hdrop, hwrite]
  omega

/-- The bytes after a write to an empty buffer and a read that takes all of it. -/
theorem len_write_drop {cap : ℕ} (r : GapRing Byte cap) {requested : ℕ} (hempty : r.len = 0)
    (hdata : data.length ≤ 144) (htakes : r.writeLen data ≤ requested) :
  ((r.write data).drop (readCount (r.write data).len requested)).len = 0
  := by
  have hlen : (r.write data).len = r.writeLen data := by
    rw [GapRing.len_write, hempty, Nat.zero_add]
  have hle : r.writeLen data ≤ 144 := (Nat.min_le_left _ _).trans hdata
  have hcount : readCount (r.writeLen data) requested = r.writeLen data := by
    unfold readCount
    rw [if_neg (by omega)]
    omega
  rw [GapRing.len_drop, hlen, hcount, Nat.min_self, Nat.sub_self]

theorem PipeOk.readNow (h : s.PipeOk p) (hb : Bounded s.acked s.requests) {count : ℕ}
    (hcount : count ≤ p.buf.len) (hpos : 0 < p.buf.len) (hcareful : ReadCareful p count) :
  s.StillOk [] (p.readNow count)
  := by
  have hnoreaders : p.recvWaiters = [] := by
    by_contra hne
    have hlen := (h.readers hne).1
    omega
  have hreaders (q : Prop) : p.recvWaiters ≠ [] → q := fun hne => absurd hnoreaders hne
  unfold PipeState.readNow
  cases hw : p.writeWaiters with
  | nil =>
    refine ⟨⟨?_, hreaders _, fun hne => absurd rfl hne, List.Pairwise.nil, ?_, ?_⟩, ?_⟩
    · rw [ackedInOrder_apply_nil hb rfl]
      show (s.delivered ++ (p.buf.peek count ++ [])) ++ (p.buf.drop count).toList = _
      rw [append_nil, GapRing.peek_eq, GapRing.toList_drop, append_assoc, take_append_drop]
      exact h.content
    · intro w hmem
      cases hmem
    · intro w hmem
      cases hmem
    · apply bounded_apply hb
      intro a ha
      cases ha
  | cons w ws =>
    have hmem : w ∈ p.writeWaiters := by
      rw [hw]
      exact mem_cons_self
    have hrest {w' : PipeWriteWaiter} (hw' : w' ∈ ws) : w' ∈ p.writeWaiters := by
      rw [hw]
      exact mem_cons_of_mem w hw'
    obtain ⟨hlt, hlater⟩ := h.pending w hmem
    obtain ⟨hfull, hopen⟩ := h.writers (ne_nil_of_mem hmem)
    have horder := h.order
    rw [hw, pairwise_cons] at horder
    have hcountle : (p.buf.drop count).writeLen w.data ≤ w.data.length := Nat.min_le_left _ _
    refine ⟨⟨?_, hreaders _, fun hne => ⟨?_, hopen⟩, horder.2, ?_, ?_⟩, ?_⟩
    · rw [ackedInOrder_apply_single hb rfl hlt.le hlater, h.accepted_eq hmem _ hcountle]
      show (s.delivered ++ ([] ++ (p.buf.peek count ++ []))) ++
        ((p.buf.drop count).write w.data).toList = _
      rw [nil_append, append_nil, GapRing.toList_write, GapRing.peek_eq, GapRing.toList_drop,
        ← h.content]
      simp only [append_assoc]
      rw [← append_assoc (p.buf.toList.take count), take_append_drop]
    · apply free_drop_write _ hfull hcount
      obtain hone | hfills := hcareful
      · rw [hw] at hone
        exact absurd (eq_nil_of_length_eq_zero (by simpa using hone)) hne
      apply hfills w
      rw [hw]
      rfl
    · intro w' hw'
      exact ⟨Nat.lt_succ_of_lt (h.pending w' (hrest hw')).1, fun k hk => h.pending_rest hw hw' _ hk⟩
    · intro w' hw'
      exact h.data_eq (hrest hw') []
    · exact bounded_apply_single hb rfl hlt.le

/-- A write into a buffer with room. The first waiting reader is given what it asked for. -/
theorem PipeOk.writeNow (h : s.PipeOk p) (hb : Bounded s.acked s.requests)
    (data : List Byte) (hroom : p.buf.free ≠ 0)
    (hcareful : WriteCareful p (p.buf.writeLen (data.take 144))) :
  s.StillOk data (p.writeNow (data.take 144))
  := by
  have hdata : (data.take 144).length ≤ 144 := length_take_le _ _
  -- The caller knows its own bytes, of which the write takes the first 144 at most.
  have htaken : (update s.written s.requests data s.requests).take (p.buf.writeLen (data.take 144)) =
      (data.take 144).take (p.buf.writeLen (data.take 144)) := by
    have hle : p.buf.writeLen (data.take 144) ≤ 144 := (Nat.min_le_left _ _).trans hdata
    rw [update_self, take_take, Nat.min_eq_left hle]
  have hnowriters : p.writeWaiters = [] := by
    by_contra hne
    exact hroom (h.writers hne).1
  have hwriters (q : Prop) : p.writeWaiters ≠ [] → q := fun hne => absurd hnowriters hne
  have horder : p.writeWaiters.Pairwise fun w w' => w.waiter.request < w'.waiter.request := h.order
  have hpending (P : PipeWriteWaiter → Prop) : ∀ w ∈ p.writeWaiters, P w := by
    intro w hw
    rw [hnowriters] at hw
    cases hw
  unfold PipeState.writeNow
  cases hr : p.recvWaiters with
  | nil =>
    refine ⟨⟨?_, fun hne => absurd rfl hne, hwriters _, horder, hpending _, hpending _⟩, ?_⟩
    · rw [ackedInOrder_apply_single hb rfl le_rfl hb, htaken]
      show (s.delivered ++ []) ++ (p.buf.write (data.take 144)).toList = _
      rw [GapRing.toList_write, append_nil, ← append_assoc, h.content]
    · exact bounded_apply_single hb rfl le_rfl
  | cons r rs =>
    have hmem : r ∈ p.recvWaiters := by
      rw [hr]
      exact mem_cons_self
    obtain ⟨hempty, hopen⟩ := h.readers (ne_nil_of_mem hmem)
    refine ⟨⟨?_, fun hne => ⟨?_, hopen⟩, hwriters _, horder, hpending _, hpending _⟩, ?_⟩
    · rw [ackedInOrder_apply_single hb rfl le_rfl hb, htaken]
      show (s.delivered ++ ((p.buf.write (data.take 144)).peek _ ++ [])) ++
        ((p.buf.write (data.take 144)).drop _).toList = _
      rw [append_nil, GapRing.peek_eq, GapRing.toList_drop, append_assoc, take_append_drop,
        GapRing.toList_write, ← append_assoc, h.content]
    · apply len_write_drop _ hempty hdata
      obtain hone | htakes := hcareful
      · rw [hr] at hone
        exact absurd (eq_nil_of_length_eq_zero (by simpa using hone)) hne
      apply htakes r
      rw [hr]
      rfl
    · exact bounded_apply_single hb rfl le_rfl

/-! ## Requests -/

/-- The request leaves nothing undone for the clients that wait behind the first one, and finds room
in the queue if it has to wait. -/
def Careful (s : Stream) : PipeEvent → Prop
  | .read requested nonblocking _ _ =>
    ∀ p ∈ s.pipe, (0 < p.buf.len → ReadCareful p (readCount p.buf.len requested)) ∧
        (nonblocking = false → p.recvWaiters.length < pipeWaiters)
  | .write data nonblocking _ _ =>
    ∀ p ∈ s.pipe, (p.buf.free ≠ 0 → WriteCareful p (p.buf.writeLen (data.take 144))) ∧
        (nonblocking = false → p.writeWaiters.length < pipeWaiters)
  | .closeRead => True
  | .closeWrite => True

/-- The invariant after a request whose effect keeps the pipe fine. -/
theorem Ok.apply (h : s.Ok) (he : s.StillOk data e) :
  (s.apply data e).Ok
  := Ok.of_pipe h.lostReaders h.lostWriters he.bounded rfl he.pipe

theorem PipeOk.read (h : s.PipeOk p) (hb : Bounded s.acked s.requests) (requested : ℕ)
    (nonblocking : Bool) (w : Waiter)
    (hcareful : 0 < p.buf.len → ReadCareful p (readCount p.buf.len requested))
    (hroom : nonblocking = false → p.recvWaiters.length < pipeWaiters) :
  s.StillOk [] (p.read requested nonblocking w) ∧ lost (p.read requested nonblocking w) = 0
  := by
  unfold PipeState.read
  split_ifs with hpos heof hnb hfull
  · use h.readNow hb (readCount_le _ _) hpos (hcareful hpos)
    unfold PipeState.readNow
    cases p.writeWaiters with
    | nil => rfl
    | cons w ws => rfl
  · exact ⟨h.answer hb rfl rfl, rfl⟩
  · exact ⟨h.answer hb rfl rfl, rfl⟩
  · exact absurd (hroom (eq_false_of_ne_true hnb)) (Nat.not_lt.mpr hfull)
  · use h.apply_idle hb rfl (append_nil _) rfl (fun _ => ⟨by omega, heof⟩) h.writers h.order fun _ => .inl
    rfl

theorem PipeOk.write (h : s.PipeOk p) (hb : Bounded s.acked s.requests) (data : List Byte)
    (nonblocking : Bool) {w : Waiter} (hw : w.request = s.requests)
    (hcareful : p.buf.free ≠ 0 → WriteCareful p (p.buf.writeLen (data.take 144)))
    (hroom : nonblocking = false → p.writeWaiters.length < pipeWaiters) :
  s.StillOk data (p.write data nonblocking w) ∧ lost (p.write data nonblocking w) = 0
  := by
  unfold PipeState.write
  split_ifs with hbroken hfree hnb hfull hzero
  · exact ⟨h.answer hb rfl rfl, rfl⟩
  · exact ⟨h.answer hb rfl rfl, rfl⟩
  · exact absurd (hroom (eq_false_of_ne_true hnb)) (Nat.not_lt.mpr hfull)
  · refine ⟨h.apply_idle hb rfl (append_nil _) rfl h.readers (fun _ => ⟨hfree, hbroken⟩) ?_ ?_, rfl⟩
    · apply pairwise_append.mpr
      refine ⟨h.order, pairwise_singleton _ _, fun w' hw' w'' hw'' => ?_⟩
      rw [mem_singleton.mp hw'']
      rw [hw]
      exact (h.pending w' hw').1
    · intro w' hw'
      obtain hold | hnew := mem_append.mp hw'
      · exact .inl hold
      · rw [mem_singleton.mp hnew]
        exact .inr ⟨hw, rfl⟩
  · refine ⟨h.answer hb ?_ rfl, rfl⟩
    show update s.acked s.requests (s.acked s.requests ++ []) = _
    rw [append_nil, update_eq_self]
  · use h.writeNow hb data hfree (hcareful hfree)
    unfold PipeState.writeNow
    cases p.recvWaiters with
    | nil => rfl
    | cons r rs => rfl

/-- Closing an end. -/
theorem Ok.close (h : s.Ok) {q : PipeState} (hp : s.PipeOk p) (hbuf : q.buf = p.buf)
    (hreaders : q.recvWaiters ≠ [] → q.recvWaiters = p.recvWaiters ∧ q.writeRefcount ≠ 0)
    (hwriters : q.writeWaiters ≠ [] → q.writeWaiters = p.writeWaiters ∧ q.readRefcount ≠ 0) :
  (s.close q).Ok
  := by
  have hq : (s.close q).PipeOk q := by
    refine ⟨?_, fun hne => ?_, fun hne => ?_, ?_, fun w hw => ?_, fun w hw => ?_⟩
    · rw [hbuf]
      exact hp.content
    · obtain ⟨heq, hcount⟩ := hreaders hne
      rw [heq] at hne
      rw [hbuf]
      exact ⟨(hp.readers hne).1, hcount⟩
    · obtain ⟨heq, hcount⟩ := hwriters hne
      rw [heq] at hne
      rw [hbuf]
      exact ⟨(hp.writers hne).1, hcount⟩
    · by_cases hne : q.writeWaiters = []
      · rw [hne]
        exact List.Pairwise.nil
      · rw [(hwriters hne).1]
        exact hp.order
    · rw [(hwriters (ne_nil_of_mem hw)).1] at hw
      exact hp.pending w hw
    · rw [(hwriters (ne_nil_of_mem hw)).1] at hw
      exact hp.data w hw
  refine ⟨h.lostReaders, h.lostWriters, h.bounded, fun q' hq' => ?_, h.fifo, h.capacity⟩
  have hsome : (if q.isClosed then none else some q) = some q' := hq'
  split_ifs at hsome
  cases hsome
  exact hq

/-- A careful request keeps the invariant. -/
theorem Ok.exec (h : s.Ok) {e : PipeEvent} (hcareful : s.Careful e) :
  (s.exec e).Ok
  := by
  unfold Stream.exec
  rcases hp : s.pipe with _ | p
  · exact h
  have hok := h.opened p hp
  cases e with
  | read requested nonblocking slot badge =>
    obtain ⟨hread, hroom⟩ := hcareful p hp
    obtain ⟨he, hlost⟩ := hok.read h.bounded requested nonblocking
      { slot, badge, request := s.requests } hread hroom
    show (s.read p requested nonblocking slot badge).Ok
    unfold Stream.read
    rw [hlost]
    exact h.apply he
  | write data nonblocking slot badge =>
    obtain ⟨hwrite, hroom⟩ := hcareful p hp
    obtain ⟨he, hlost⟩ := hok.write h.bounded data nonblocking
      (w := { slot, badge, request := s.requests }) rfl hwrite hroom
    show (s.write p data nonblocking slot badge).Ok
    unfold Stream.write
    rw [hlost]
    exact h.apply he
  | closeRead =>
    show (s.close p.closeRead.1).Ok
    unfold closeRead
    split_ifs with hlast
    · exact h.close hok rfl (fun hne => ⟨rfl, (hok.readers hne).2⟩) fun hne => absurd rfl hne
    · exact h.close hok rfl (fun hne => ⟨rfl, (hok.readers hne).2⟩) fun _ => ⟨rfl, hlast⟩
  | closeWrite =>
    show (s.close p.closeWrite.1).Ok
    unfold closeWrite
    split_ifs with hlast
    · exact h.close hok rfl (fun hne => absurd rfl hne) fun hne => ⟨rfl, (hok.writers hne).2⟩
    · exact h.close hok rfl (fun _ => ⟨rfl, hlast⟩) fun hne => ⟨rfl, (hok.writers hne).2⟩

theorem initial_ok (readers writers : ℕ) :
  (initial readers writers).Ok
  := by
  apply Ok.of_pipe (p := { new with readRefcount := readers, writeRefcount := writers })
    rfl rfl (fun _ _ => rfl) rfl
  refine ⟨rfl, fun hne => absurd rfl hne, fun hne => absurd rfl hne, List.Pairwise.nil, ?_, ?_⟩
  · intro w hw
    cases hw
  · intro w hw
    cases hw

/-! ## Runs -/

/-- A request by some client. -/
def Step (s t : Stream) : Prop := ∃ e, t = s.exec e

/-- A careful request. -/
def CarefulStep (s t : Stream) : Prop := ∃ e, s.Careful e ∧ t = s.exec e

/-- In a careful run, a pipe is a stream of bytes that strands nobody. -/
theorem sound_of_careful_run {readers writers : ℕ} {s : Stream}
    (hrun : ReflTransGen CarefulStep (initial readers writers) s) :
  s.Sound
  := by
  have hok : s.Ok := by
    apply invariant_of_run _ (initial_ok readers writers) hrun
    rintro s t h ⟨e, hcareful, rfl⟩
    apply h.exec hcareful
  exact hok.sound

/-- A reader waits, and a writer wakes it. -/
theorem sound_of_read_write :
  ∃ s, ReflTransGen CarefulStep (initial 1 1) s ∧ s.delivered = [7] ∧ s.Sound
  := by
  have hrun : ReflTransGen CarefulStep (initial 1 1)
      (((initial 1 1).exec (.read 1 false 32 1)).exec (.write [7] false 33 2)) := by
    apply ReflTransGen.tail (b := (initial 1 1).exec (.read 1 false 32 1))
    · apply ReflTransGen.single
      refine ⟨.read 1 false 32 1, fun p hp => ?_, rfl⟩
      cases hp
      exact ⟨fun hpos => absurd hpos (by decide), fun _ => by decide⟩
    · refine ⟨.write [7] false 33 2, fun p hp => ?_, rfl⟩
      cases hp
      exact ⟨fun _ => .inl (by decide), fun _ => by decide⟩
  exact ⟨_, hrun, by decide +kernel, sound_of_careful_run hrun⟩

/-- Two readers wait for one byte each. A write of two bytes wakes only the first one. -/
theorem reader_stranded :
  ∃ s, ReflTransGen Step (initial 1 1) s ∧ ¬ s.Sound
  := by
  refine ⟨(((initial 1 1).exec (.read 1 false 32 1)).exec (.read 1 false 33 1)).exec
    (.write [7, 8] false 34 2), ?_, fun hsound => ?_⟩
  · exact ((ReflTransGen.single ⟨_, rfl⟩).tail ⟨_, rfl⟩).tail ⟨_, rfl⟩
  · obtain ⟨p, hp, hlen, -⟩ := hsound.readers (by decide +kernel)
    cases hp
    revert hlen
    decide +kernel

end Stream

end SaltyOS.Vfs
