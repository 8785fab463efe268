import Mathlib.Data.List.Basic
import Mathlib.Data.Nat.ModEq

/-!
# Ring buffers

A ring buffer of `cap` elements, with the operations that copy several elements at a time. Its
contents are a list, and each operation is described by what it does to this list.
-/

/-- A ring buffer of capacity `cap`. The element written next goes to `tail`, the element read next
is at `head`. -/
structure RingBuf (α : Type) (cap : ℕ) where
  data : ℕ → α
  head : ℕ
  tail : ℕ
  len : ℕ
  head_lt : head < cap
  tail_eq : tail = (head + len) % cap
  len_le : len ≤ cap

namespace RingBuf

open Function List

variable {α : Type} {cap : ℕ}

/-! ## Operations -/

/-- Copy a list to the ring, from `tail` on. -/
def fill (cap : ℕ) : (ℕ → α) → ℕ → List α → (ℕ → α) × ℕ
  | data, tail, [] => (data, tail)
  | data, tail, a :: as => fill cap (update data tail a) ((tail + 1) % cap) as

/-- Copy `n` elements out of the ring, from `pos` on. -/
def walk (cap : ℕ) (data : ℕ → α) : ℕ → ℕ → List α
  | _, 0 => []
  | pos, n + 1 => data pos :: walk cap data ((pos + 1) % cap) n

/-- The number of elements that can be written. -/
def available (r : RingBuf α cap) : ℕ := cap - r.len

theorem fill_snd (data : ℕ → α) {tail : ℕ} (as : List α) (h : tail < cap) :
  (fill cap data tail as).2 = (tail + as.length) % cap
  := by
  induction as generalizing data tail with
  | nil => rw [fill, length_nil, Nat.add_zero, Nat.mod_eq_of_lt h]
  | cons a as ih =>
    rw [fill, ih _ (Nat.mod_lt _ (by omega)), length_cons, Nat.mod_add_mod]
    congr 1
    omega

/-- The ring without elements, over the given data. -/
def empty (data : ℕ → α) (h : 0 < cap) : RingBuf α cap where
  data
  head := 0
  tail := 0
  len := 0
  head_lt := h
  tail_eq := rfl
  len_le := Nat.zero_le cap

/-- Write as many elements of a list as there is room for. Returns their number. -/
def write (r : RingBuf α cap) (src : List α) : ℕ × RingBuf α cap :=
  let n := min src.length r.available
  (n, {
    data := (fill cap r.data r.tail (src.take n)).1
    head := r.head
    tail := (fill cap r.data r.tail (src.take n)).2
    len := r.len + n
    head_lt := r.head_lt
    tail_eq := by
      have htail : r.tail < cap := by
        rw [r.tail_eq]
        exact Nat.mod_lt _ (by have := r.head_lt; omega)
      have hlen : (src.take n).length = n := by
        rw [length_take]
        omega
      rw [fill_snd _ _ htail, hlen, r.tail_eq, Nat.mod_add_mod, Nat.add_assoc]
    len_le := by
      have h := r.len_le
      have hn : n ≤ cap - r.len := Nat.min_le_right _ _
      omega })

/-- The first elements of the ring, at most `size` of them. -/
def peekAll (r : RingBuf α cap) (size : ℕ) : List α :=
  walk cap r.data r.head (min size r.len)

/-- Remove the first `count` elements of the ring, or all of them if there are fewer. -/
def drain (r : RingBuf α cap) (count : ℕ) : RingBuf α cap where
  data := r.data
  head := (r.head + min count r.len) % cap
  tail := r.tail
  len := r.len - min count r.len
  head_lt := Nat.mod_lt _ (by have := r.head_lt; omega)
  tail_eq := by
    rw [r.tail_eq, Nat.mod_add_mod]
    congr 1
    omega
  len_le := by
    have h := r.len_le
    omega

/-- Read and remove the first elements of the ring, at most `size` of them. -/
def read (r : RingBuf α cap) (size : ℕ) : List α × RingBuf α cap :=
  (r.peekAll size, r.drain size)

/-- Remove all elements. -/
def reset (r : RingBuf α cap) : RingBuf α cap :=
  empty r.data (by have := r.head_lt; omega)

/-! ## The contents -/

/-- The elements of the ring in the order in which they were written. -/
def toList (r : RingBuf α cap) : List α := walk cap r.data r.head r.len

theorem walk_eq_map (data : ℕ → α) {pos : ℕ} (n : ℕ) (h : pos < cap) :
  walk cap data pos n = (range n).map (fun i => data ((pos + i) % cap))
  := by
  induction n generalizing pos with
  | zero => rfl
  | succ n ih =>
    rw [walk, ih (Nat.mod_lt _ (by omega)), range_succ_eq_map, map_cons, map_map]
    congr 1
    · rw [Nat.add_zero, Nat.mod_eq_of_lt h]
    apply map_congr_left
    intro i _
    simp only [comp_apply, Nat.mod_add_mod]
    congr 2
    omega

theorem length_walk (data : ℕ → α) (pos n : ℕ) :
  (walk cap data pos n).length = n
  := by
  induction n generalizing pos with
  | zero => rfl
  | succ n ih => rw [walk, length_cons, ih]

/-- Copying out of the ring in two parts. -/
theorem walk_add (data : ℕ → α) {pos : ℕ} (m n : ℕ) (h : pos < cap) :
  walk cap data pos (m + n) = walk cap data pos m ++ walk cap data ((pos + m) % cap) n
  := by
  rw [walk_eq_map _ _ h, walk_eq_map _ _ h, walk_eq_map _ _ (Nat.mod_lt _ (by omega)),
    range_add, map_append, map_map]
  congr 1
  apply map_congr_left
  intro i _
  simp only [comp_apply, Nat.mod_add_mod, Nat.add_assoc]

/-- What is copied out does not depend on the other cells. -/
theorem walk_update_of_ne {data : ℕ → α} {pos k : ℕ} {n : ℕ} (h : pos < cap)
    (hk : ∀ i < n, (pos + i) % cap ≠ k) (a : α) :
  walk cap (update data k a) pos n = walk cap data pos n
  := by
  rw [walk_eq_map _ _ h, walk_eq_map _ _ h]
  apply map_congr_left
  intro i hi
  exact update_of_ne (hk i (mem_range.mp hi)) _ _

section

variable (r : RingBuf α cap)

@[simp]
theorem length_toList :
  r.toList.length = r.len
  := by
  rw [toList, walk_eq_map _ _ r.head_lt, length_map, length_range]

theorem toList_eq_nil_iff :
  r.toList = [] ↔ r.len = 0
  := by
  rw [← length_eq_zero_iff, length_toList]

theorem peekAll_eq (size : ℕ) :
  r.peekAll size = r.toList.take size
  := by
  rw [peekAll, toList, walk_eq_map _ _ r.head_lt, walk_eq_map _ _ r.head_lt, ← map_take, take_range]

@[simp]
theorem toList_drain (count : ℕ) :
  (r.drain count).toList = r.toList.drop count
  := by
  apply ext_getElem
  · rw [length_drop, length_toList, length_toList]
    show r.len - min count r.len = r.len - count
    omega
  intro i h₁ h₂
  simp only [toList, walk_eq_map _ _ r.head_lt, walk_eq_map _ _ (r.drain count).head_lt,
    getElem_drop, getElem_map, getElem_range]
  simp only [drain, Nat.mod_add_mod]
  congr 2
  have h : i < r.len - min count r.len := by
    rw [length_toList] at h₁
    exact h₁
  omega

end

/-- Copying to the free part of the ring appends to the contents. -/
theorem walk_fill {head : ℕ} (hhead : head < cap) (as : List α) (data : ℕ → α) (len : ℕ)
    (h : len + as.length ≤ cap) :
  walk cap (fill cap data ((head + len) % cap) as).1 head (len + as.length)
    = walk cap data head len ++ as
  := by
  induction as generalizing data len with
  | nil => rw [fill, length_nil, Nat.add_zero, append_nil]
  | cons a as ih =>
    rw [length_cons] at h ⊢
    have htail : ((head + len) % cap + 1) % cap = (head + (len + 1)) % cap := by
      rw [Nat.mod_add_mod]
      congr 1
    have hlen : len + (as.length + 1) = len + 1 + as.length := by omega
    rw [fill, htail, hlen, ih _ (len + 1) (by omega)]
    have hstep : walk cap (update data ((head + len) % cap) a) head (len + 1)
        = walk cap data head len ++ [a] := by
      rw [walk_eq_map _ _ hhead, walk_eq_map _ _ hhead, range_succ, map_append,
        map_singleton, update_self]
      congr 1
      apply map_congr_left
      intro i hi
      have hi' : i < len := mem_range.mp hi
      rw [update_of_ne]
      intro heq
      have hmod : head + i ≡ head + len [MOD cap] := heq
      have hmod' : i ≡ len [MOD cap] := Nat.ModEq.add_left_cancel' head hmod
      rw [Nat.ModEq, Nat.mod_eq_of_lt (by omega), Nat.mod_eq_of_lt (by omega)] at hmod'
      omega
    rw [hstep, append_assoc, singleton_append]

/-- Writing appends the elements for which there is room. -/
theorem toList_write (r : RingBuf α cap) (src : List α) :
  (r.write src).2.toList = r.toList ++ src.take (r.write src).1
  := by
  have hlen : (src.take (min src.length r.available)).length = min src.length r.available := by
    rw [length_take]
    omega
  have hroom : r.len + (src.take (min src.length r.available)).length ≤ cap := by
    have h := r.len_le
    have hn : min src.length r.available ≤ cap - r.len := Nat.min_le_right _ _
    omega
  have hfill := walk_fill r.head_lt (src.take (min src.length r.available)) r.data r.len hroom
  rw [hlen, ← r.tail_eq] at hfill
  exact hfill

end RingBuf
