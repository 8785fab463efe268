import SaltyOS.Lib.RingBuf

/-!
# Ring buffers with a gap

A ring buffer of `cap` cells that has no count of its elements: it is empty when `head` and `tail`
agree, and so at most `cap - 1` cells are used. Elements are written at `head` and read at `tail`.
Every such buffer is a `RingBuf`, and its contents are those of that one.
-/

/-- A ring buffer of `cap` cells of which at most `cap - 1` are used. -/
structure GapRing (α : Type) (cap : ℕ) where
  data : ℕ → α
  head : ℕ
  tail : ℕ
  head_lt : head < cap
  tail_lt : tail < cap

namespace GapRing

variable {α : Type} {cap : ℕ}

/-! ## Operations -/

/-- The number of elements. -/
def len (r : GapRing α cap) : ℕ :=
  if r.head ≥ r.tail then r.head - r.tail else cap - r.tail + r.head

/-- The number of elements for which there is room. -/
def free (r : GapRing α cap) : ℕ := cap - 1 - r.len

/-- The buffer without elements, over the given data. -/
def empty (data : ℕ → α) (h : 0 < cap) : GapRing α cap :=
  { data, head := 0, tail := 0, head_lt := h, tail_lt := h }

theorem cap_pos (r : GapRing α cap) :
  0 < cap
  := Nat.zero_lt_of_lt r.head_lt

/-- Write as many elements of a list as there is room for. -/
def write (r : GapRing α cap) (src : List α) : GapRing α cap where
  data := (RingBuf.fill cap r.data r.head (src.take r.free)).1
  head := (RingBuf.fill cap r.data r.head (src.take r.free)).2
  tail := r.tail
  head_lt := by
    rw [RingBuf.fill_snd _ _ r.head_lt]
    apply Nat.mod_lt _ r.cap_pos
  tail_lt := r.tail_lt

/-- The number of elements that `write` writes. -/
def writeLen (r : GapRing α cap) (src : List α) : ℕ := min src.length r.free

/-- The elements that a read of at most `count` elements returns. -/
def peek (r : GapRing α cap) (count : ℕ) : List α :=
  RingBuf.walk cap r.data r.tail (min count r.len)

/-- Remove the first elements, at most `count` of them. -/
def drop (r : GapRing α cap) (count : ℕ) : GapRing α cap :=
  { r with tail := (r.tail + min count r.len) % cap, tail_lt := Nat.mod_lt _ r.cap_pos }

/-! ## The contents -/

/-- One place of the buffer stays empty. -/
theorem len_lt (r : GapRing α cap) :
  r.len < cap
  := by
  have hhead := r.head_lt
  have htail := r.tail_lt
  unfold len
  split_ifs <;> omega

/-- The head is as far from the tail as there are elements. -/
theorem head_eq (r : GapRing α cap) :
  r.head = (r.tail + r.len) % cap
  := by
  have hhead := r.head_lt
  have htail := r.tail_lt
  unfold len
  split_ifs
  · rw [Nat.mod_eq_of_lt (by omega)]
    omega
  · have hsum : r.tail + (cap - r.tail + r.head) = r.head + cap := by omega
    rw [hsum, Nat.add_mod_right, Nat.mod_eq_of_lt hhead]

/-- A distance less than `cap` is the number of elements. -/
theorem len_eq_of_head_eq (r : GapRing α cap) {n : ℕ} (hn : n < cap) (h : r.head = (r.tail + n) % cap) :
  r.len = n
  := by
  have hlen := r.len_lt
  have hmod : r.tail + r.len ≡ r.tail + n [MOD cap] := by
    rw [Nat.ModEq, ← h, ← r.head_eq]
  have hmod' := Nat.ModEq.add_left_cancel' r.tail hmod
  rw [Nat.ModEq, Nat.mod_eq_of_lt hlen, Nat.mod_eq_of_lt hn] at hmod'
  exact hmod'

/-- The buffer as a buffer with a count. -/
def toRingBuf (r : GapRing α cap) : RingBuf α cap where
  data := r.data
  head := r.tail
  tail := r.head
  len := r.len
  head_lt := r.tail_lt
  tail_eq := r.head_eq
  len_le := r.len_lt.le

/-- The elements in the order in which they were written. -/
def toList (r : GapRing α cap) : List α := r.toRingBuf.toList

section

variable (r : GapRing α cap)

@[simp]
theorem length_toList :
  r.toList.length = r.len
  := r.toRingBuf.length_toList

/-- Reading gives the oldest elements first. -/
theorem peek_eq (count : ℕ) :
  r.peek count = r.toList.take count
  := r.toRingBuf.peekAll_eq count

theorem len_drop (count : ℕ) :
  (r.drop count).len = r.len - min count r.len
  := by
  have hlen := r.len_lt
  apply len_eq_of_head_eq _ (by omega)
  show r.head = ((r.tail + min count r.len) % cap + (r.len - min count r.len)) % cap
  rw [Nat.mod_add_mod, r.head_eq]
  congr 1
  omega

/-- Dropping removes the oldest elements. -/
@[simp]
theorem toList_drop (count : ℕ) :
  (r.drop count).toList = r.toList.drop count
  := by
  have hdrain := r.toRingBuf.toList_drain count
  rw [toList, ← show _ = r.toList.drop count from hdrain]
  show RingBuf.walk cap r.data _ (r.drop count).len = _
  rw [len_drop]
  rfl

/-- A write takes as many elements as fit. -/
theorem length_take_free (src : List α) :
  (src.take r.free).length = r.writeLen src
  := by
  rw [List.length_take, writeLen, Nat.min_comm]

/-- A write adds what it takes. -/
theorem len_write (src : List α) :
  (r.write src).len = r.len + r.writeLen src
  := by
  have hlen := r.len_lt
  have hfree : r.writeLen src ≤ cap - 1 - r.len := Nat.min_le_right _ _
  apply len_eq_of_head_eq _ (by omega)
  show (RingBuf.fill cap r.data r.head (src.take r.free)).2 = _
  rw [RingBuf.fill_snd _ _ r.head_lt, length_take_free, r.head_eq, Nat.mod_add_mod, Nat.add_assoc]
  rfl

/-- Writing appends the elements for which there is room. -/
theorem toList_write (src : List α) :
  (r.write src).toList = r.toList ++ src.take (r.writeLen src)
  := by
  have hlen := r.len_lt
  have hfree : r.writeLen src ≤ cap - 1 - r.len := Nat.min_le_right _ _
  have htake : src.take r.free = src.take (r.writeLen src) := by
    rw [writeLen, Nat.min_comm, ← List.take_take, List.take_length]
  have hfill := RingBuf.walk_fill r.tail_lt (src.take r.free) r.data r.len
    (by rw [length_take_free]; omega)
  rw [length_take_free, ← r.head_eq, ← r.len_write src] at hfill
  rw [← htake]
  exact hfill

end

end GapRing
