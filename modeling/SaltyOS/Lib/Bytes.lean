import Mathlib.Data.List.GetD
import Mathlib.Data.List.TakeDrop

/-!
# Arrays that grow

A list as an array that can be written at any position and whose length can be changed. The positions
that it grows over are filled with one element.
-/

namespace List

variable {α : Type*}

/-- The list with the given length. -/
def resize (fill : α) (l : List α) (n : ℕ) : List α :=
  l.take n ++ replicate (n - l.length) fill

/-- The list with `src` at the positions from `off` on. Nothing changes if `src` is empty. -/
def overwrite (fill : α) (l : List α) (off : ℕ) (src : List α) : List α :=
  if src.isEmpty then l else l.resize fill off ++ (src ++ l.drop (off + src.length))

variable {fill : α} {l src : List α} {off n k : ℕ}

theorem length_resize :
  (l.resize fill n).length = n
  := by
  unfold resize
  simp only [length_append, length_take, length_replicate]
  omega

theorem getD_resize (hk : k < n) :
  (l.resize fill n).getD k fill = l.getD k fill
  := by
  unfold resize
  by_cases hin : k < l.length
  · rw [getD_append _ _ _ _ (by rw [length_take]; omega), getD_eq_getElem?_getD,
      getElem?_take_of_lt hk, getD_eq_getElem?_getD]
  rw [getD_append_right _ _ _ _ (by rw [length_take]; omega), getD_eq_default l _ (by omega),
    getD_replicate]
  rw [length_take]
  omega

theorem length_overwrite (hsrc : src ≠ []) :
  (l.overwrite fill off src).length = max l.length (off + src.length)
  := by
  unfold overwrite
  rw [if_neg (by simpa using hsrc)]
  simp only [length_append, length_resize, length_drop]
  omega

/-- The elements after writing: those of `src`, or those of the list, or the filling. -/
theorem getD_overwrite (hsrc : src ≠ []) :
  (l.overwrite fill off src).getD k fill =
    if off ≤ k ∧ k < off + src.length then src.getD (k - off) fill else l.getD k fill
  := by
  have hlen : (l.resize fill off).length = off := length_resize
  unfold overwrite
  rw [if_neg (by simpa using hsrc)]
  by_cases hlow : k < off
  · rw [getD_append _ _ _ _ (by omega), if_neg (by omega), getD_resize hlow]
  rw [getD_append_right _ _ _ _ (by omega), hlen]
  by_cases hhigh : k < off + src.length
  · rw [getD_append _ _ _ _ (by omega), if_pos ⟨by omega, hhigh⟩]
  rw [getD_append_right _ _ _ _ (by omega), if_neg (by omega), getD_eq_getElem?_getD,
    getElem?_drop, getD_eq_getElem?_getD]
  congr 2
  omega

/-- A piece of a list, element by element. -/
theorem take_drop_eq_map (l : List α) (fill : α) (off n : ℕ) :
  (l.drop off).take n = (range (min n (l.length - off))).map fun k => l.getD (off + k) fill
  := by
  apply ext_getElem
  · simp
  intro k hk hk'
  simp only [length_take, length_drop] at hk
  rw [getElem_take, getElem_drop, getElem_map, getElem_range, getD_eq_getElem _ _ (by omega)]

end List
