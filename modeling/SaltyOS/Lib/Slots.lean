import Mathlib.Algebra.BigOperators.Group.Finset.Basic
import Mathlib.Data.List.ReduceOption
import Mathlib.Tactic.Abel

/-!
# Arrays of slots

An array of slots of which some are occupied, as a list of options. The first occupied slot can be
emptied, and the first empty slot can be occupied. The values in the array are
`List.reduceOption`.

A family of cells of which some are occupied is a function to options. The values that all cells
together hold are a multiset.
-/

open Function

namespace List

variable {α : Type*}

/-- Empty the first slot whose value satisfies a predicate. -/
def takeSlot (p : α → Bool) : List (Option α) → Option (α × List (Option α))
  | [] => none
  | none :: l => (l.takeSlot p).map fun r => (r.1, none :: r.2)
  | some a :: l =>
    if p a then some (a, none :: l) else (l.takeSlot p).map fun r => (r.1, some a :: r.2)

/-- Put a value into the first empty slot. -/
def putSlot (a : α) : List (Option α) → Option (List (Option α))
  | [] => none
  | none :: l => some (some a :: l)
  | some b :: l => (l.putSlot a).map (some b :: ·)

variable {p : α → Bool} {a : α} {l l' : List (Option α)}

/-- The value that was taken was in the array, and the others stay. -/
theorem perm_of_takeSlot (h : l.takeSlot p = some (a, l')) :
  l.reduceOption ~ a :: l'.reduceOption
  := by
  induction l generalizing l' with
  | nil => cases h
  | cons x l ih =>
    cases x with
    | none =>
      obtain ⟨⟨b, m⟩, hm, heq⟩ := Option.map_eq_some_iff.mp h
      cases heq
      rw [reduceOption_cons_of_none, reduceOption_cons_of_none]
      apply ih hm
    | some b =>
      unfold takeSlot at h
      split_ifs at h with hp
      · cases h
        rw [reduceOption_cons_of_some, reduceOption_cons_of_none]
      obtain ⟨⟨c, m⟩, hm, heq⟩ := Option.map_eq_some_iff.mp h
      cases heq
      rw [reduceOption_cons_of_some, reduceOption_cons_of_some]
      apply Perm.trans (Perm.cons b (ih hm))
      apply Perm.swap

/-- Taking a value does not change the number of slots. -/
theorem length_of_takeSlot (h : l.takeSlot p = some (a, l')) :
  l'.length = l.length
  := by
  induction l generalizing l' with
  | nil => cases h
  | cons x l ih =>
    cases x with
    | none =>
      obtain ⟨⟨b, m⟩, hm, heq⟩ := Option.map_eq_some_iff.mp h
      cases heq
      rw [length_cons, length_cons, ih hm]
    | some b =>
      unfold takeSlot at h
      split_ifs at h with hp
      · cases h
        rfl
      obtain ⟨⟨c, m⟩, hm, heq⟩ := Option.map_eq_some_iff.mp h
      cases heq
      rw [length_cons, length_cons, ih hm]

/-- The new value is in the array together with the others. -/
theorem perm_of_putSlot (h : l.putSlot a = some l') :
  l'.reduceOption ~ a :: l.reduceOption
  := by
  induction l generalizing l' with
  | nil => cases h
  | cons x l ih =>
    cases x with
    | none =>
      cases h
      rw [reduceOption_cons_of_some, reduceOption_cons_of_none]
    | some b =>
      obtain ⟨m, hm, rfl⟩ := Option.map_eq_some_iff.mp h
      rw [reduceOption_cons_of_some, reduceOption_cons_of_some]
      apply Perm.trans (Perm.cons b (ih hm))
      apply Perm.swap

/-- Putting a value does not change the number of slots. -/
theorem length_of_putSlot (h : l.putSlot a = some l') :
  l'.length = l.length
  := by
  induction l generalizing l' with
  | nil => cases h
  | cons x l ih =>
    cases x with
    | none =>
      cases h
      rfl
    | some b =>
      obtain ⟨m, hm, rfl⟩ := Option.map_eq_some_iff.mp h
      rw [length_cons, length_cons, ih hm]

/-- A value cannot be put only if every slot is occupied. -/
theorem length_reduceOption_of_putSlot_eq_none (h : l.putSlot a = none) :
  l.reduceOption.length = l.length
  := by
  induction l with
  | nil => rfl
  | cons x l ih =>
    cases x with
    | none => cases h
    | some b =>
      rw [reduceOption_cons_of_some, length_cons, length_cons, ih (Option.map_eq_none_iff.mp h)]

end List

/-! ## Families of cells -/

namespace Cells

variable {α β : Type*}

/-- What the cells below a number hold together, if an occupied cell holds several values. -/
def holdings (w : α → Multiset β) (n : ℕ) (f : ℕ → Option α) : Multiset β :=
  ∑ h ∈ Finset.range n, (f h).elim 0 w

variable {w : α → Multiset β} {n : ℕ} {f : ℕ → Option α}

/-- The content of one cell is replaced. -/
theorem holdings_update {h : ℕ} (hlt : h < n) (x : Option α) :
  holdings w n (update f h x) + (f h).elim 0 w = holdings w n f + x.elim 0 w
  := by
  have hmem : h ∈ Finset.range n := Finset.mem_range.mpr hlt
  have hrest : ∑ g ∈ (Finset.range n).erase h, (update f h x g).elim 0 w =
      ∑ g ∈ (Finset.range n).erase h, (f g).elim 0 w := by
    apply Finset.sum_congr rfl
    intro g hg
    rw [update_of_ne (Finset.ne_of_mem_erase hg)]
  unfold holdings
  rw [← Finset.add_sum_erase _ _ hmem,
    ← Finset.add_sum_erase (Finset.range n) (fun g => (f g).elim 0 w) hmem, hrest,
    update_self]
  abel

/-- One more cell is used. -/
theorem holdings_succ (x : Option α) :
  holdings w (n + 1) (update f n x) = holdings w n f + x.elim 0 w
  := by
  unfold holdings
  rw [Finset.sum_range_succ, update_self]
  congr 1
  apply Finset.sum_congr rfl
  intro g hg
  rw [update_of_ne (Nat.ne_of_lt (Finset.mem_range.mp hg))]

/-- A part of a sum is replaced. -/
theorem add_balance {M : Type*} [AddCancelCommMonoid M] {a a' x y e e' r : M}
    (h : a' + x = a + y) (h' : y + e' = x + e) :
  a' + r + e' = a + r + e
  := by
  apply add_right_cancel (b := x)
  calc a' + r + e' + x = a' + x + (r + e') := by abel
    _ = a + (y + e') + r := by rw [h]; abel
    _ = a + r + e + x := by rw [h']; abel

end Cells
