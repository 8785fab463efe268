import Mathlib.Algebra.BigOperators.Group.Finset.Basic
import Mathlib.Tactic.Abel
import SaltyOS.Mm.RadixTree

/-!
# Radix trees as maps

After every sequence of operations a radix tree is a finite map from page indices to values, and to
destroy it gives all nodes back to the allocator. An operation fails only for an index that is too large
or if an allocation was refused.
-/

open Function

namespace SaltyOS.Radix

/-! ## The calls of the allocator -/

namespace NodeAllocator

/-- A call is refused, or gives a node. -/
theorem allocNode_cases (a : NodeAllocator) :
  ∃ a' : NodeAllocator, a'.freed = a.freed ∧ (a.allocNode = (none, a') ∧ a'.given = a.given ∨
      ∃ addr, a.allocNode = (some addr, a') ∧ a'.given = addr :: a.given)
  := by
  use a.allocNode.2, rfl
  unfold allocNode
  cases a.answers a.calls with
  | none => exact .inl ⟨rfl, rfl⟩
  | some addr => exact .inr ⟨addr, rfl, rfl⟩

/-- A call was answered with a null pointer on the way from one state of the allocator to another. -/
def Refused (a a' : NodeAllocator) : Prop :=
  ∃ n, a.calls ≤ n ∧ n < a'.calls ∧ a.answers n = none

/-- Calls were made, and `ok` says that none of them was refused. -/
structure Asked (ok : Bool) (a a' : NodeAllocator) : Prop where
  answers : a'.answers = a.answers
  calls : a.calls ≤ a'.calls
  refused : ok = false ↔ Refused a a'

theorem Asked.refl (a : NodeAllocator) :
  Asked true a a
  := by
  refine ⟨rfl, le_rfl, iff_of_false nofun ?_⟩
  rintro ⟨n, hle, hlt, -⟩
  omega

/-- A refusal at any point is a refusal of the whole. -/
theorem Asked.trans {ok : Bool} {a b c : NodeAllocator} (h : Asked true a b) (h' : Asked ok b c) :
  Asked ok a c
  := by
  refine ⟨h'.answers.trans h.answers, h.calls.trans h'.calls, h'.refused.trans ⟨?_, ?_⟩⟩
  · rintro ⟨n, hle, hlt, hnone⟩
    exact ⟨n, h.calls.trans hle, hlt, h.answers ▸ hnone⟩
  · rintro ⟨n, hle, hlt, hnone⟩
    by_cases hn : n < b.calls
    · exact absurd (h.refused.mpr ⟨n, hle, hn, hnone⟩) nofun
    · exact ⟨n, not_lt.mp hn, hlt, h.answers ▸ hnone⟩

theorem asked_allocNode (a : NodeAllocator) :
  Asked a.allocNode.1.isSome a a.allocNode.2
  := by
  refine ⟨rfl, Nat.le_succ _, Option.isSome_eq_false_iff.trans ?_⟩
  constructor
  · intro hnone
    exact ⟨a.calls, le_rfl, Nat.lt_succ_self _, Option.isNone_iff_eq_none.mp hnone⟩
  · rintro ⟨n, hle, hlt, hnone⟩
    obtain rfl : n = a.calls := Nat.le_antisymm (Nat.le_of_lt_succ hlt) hle
    exact Option.isNone_iff_eq_none.mpr hnone

end NodeAllocator

/-! ## Page indices -/

/-- The word at a level, by division. -/
theorem levelIndex_eq (i l : ℕ) :
  levelIndex i (l + 1) = i / 2 ^ (l * 9) % 512
  := by
  unfold levelIndex bitsPerLevel entriesPerNode
  rw [Nat.add_sub_cancel, Nat.shiftRight_eq_div_pow]
  exact Nat.and_two_pow_sub_one_eq_mod _ 9

theorem levelIndex_lt (i l : ℕ) :
  levelIndex i (l + 1) < entriesPerNode
  := by
  rw [levelIndex_eq]
  exact Nat.mod_lt _ (by decide)

theorem pow_level (l : ℕ) :
  2 ^ ((l + 1) * 9) = 2 ^ (l * 9) * 512
  := by
  rw [Nat.succ_mul, pow_add]
  rfl


/-- Two indices have the same path if they agree below the level. -/
theorem mod_level_iff (i j l : ℕ) :
  j % 2 ^ ((l + 1) * 9) = i % 2 ^ ((l + 1) * 9) ↔
    levelIndex j (l + 1) = levelIndex i (l + 1) ∧ j % 2 ^ (l * 9) = i % 2 ^ (l * 9)
  := by
  rw [levelIndex_eq, levelIndex_eq, pow_level, Nat.mod_mul, Nat.mod_mul]
  constructor
  · intro h
    have hpos : 0 < 2 ^ (l * 9) := Nat.two_pow_pos _
    constructor
    · have hdiv := congrArg (· / 2 ^ (l * 9)) h
      simpa [Nat.add_mul_div_left _ _ hpos, Nat.div_eq_of_lt (Nat.mod_lt _ hpos)] using hdiv
    · have hmod := congrArg (· % 2 ^ (l * 9)) h
      simpa using hmod
  · rintro ⟨hidx, hmod⟩
    rw [hidx, hmod]

namespace Entry

variable {l : ℕ} {i : ℕ}

/-- The value of an index depends on its path only. -/
theorem get_congr {j : ℕ} (e : Entry l) (h : j % 2 ^ (l * 9) = i % 2 ^ (l * 9)) :
  e.get j = e.get i
  := by
  induction e with
  | value v => rfl
  | null => rfl
  | node addr words ih =>
    obtain ⟨hidx, hmod⟩ := (mod_level_iff i j _).mp h
    unfold get
    rw [hidx]
    exact ih _ hmod

@[simp]
theorem get_zero (l : ℕ) :
  (zero l).get i = 0
  := by
  cases l with
  | zero => rfl
  | succ l => rfl

/-- A word of a node is replaced by one that differs at the index only. -/
theorem get_update {j addr v : ℕ} {words : ℕ → Entry l} {e : Entry l}
    (h : e.get j = if j % 2 ^ (l * 9) = i % 2 ^ (l * 9) then v
      else (words (levelIndex i (l + 1))).get j) :
  (node addr (update words (levelIndex i (l + 1)) e)).get j =
    if j % 2 ^ ((l + 1) * 9) = i % 2 ^ ((l + 1) * 9) then v else (node addr words).get j
  := by
  simp only [get, mod_level_iff, update_apply]
  by_cases hidx : levelIndex j (l + 1) = levelIndex i (l + 1)
  · simp only [hidx, if_true, true_and, h]
  · simp only [hidx, if_false, false_and]

/-- A removal clears the indices with the same path. -/
theorem get_remove (e : Entry l) (j : ℕ) :
  (e.remove i).get j = if j % 2 ^ (l * 9) = i % 2 ^ (l * 9) then 0 else e.get j
  := by
  induction e with
  | value v => simp [remove, get, Nat.mod_one]
  | null => simp [remove, get]
  | node addr words ih => exact get_update (ih _)

/-! ## The nodes of a tree -/

/-- The addresses of the nodes below a word. -/
def nodes {l : ℕ} : Entry l → Multiset ℕ
  | .value _ => 0
  | .null => 0
  | .node addr words => addr ::ₘ ∑ i ∈ Finset.range entriesPerNode, (words i).nodes

@[simp]
theorem nodes_zero (l : ℕ) :
  (zero l).nodes = 0
  := by
  cases l with
  | zero => rfl
  | succ l => rfl

/-- A word is replaced, and the nodes below it with it. -/
theorem nodes_update (addr : ℕ) (words : ℕ → Entry l) {k : ℕ} (e : Entry l) (hk : k < entriesPerNode) :
  (node addr (update words k e)).nodes + (words k).nodes = (node addr words).nodes + e.nodes
  := by
  have hmem := Finset.mem_range.mpr hk
  have hrest : ∑ i ∈ (Finset.range entriesPerNode).erase k, (update words k e i).nodes =
      ∑ i ∈ (Finset.range entriesPerNode).erase k, (words i).nodes := by
    apply Finset.sum_congr rfl
    intro i hi
    rw [update_of_ne (Finset.ne_of_mem_erase hi)]
  simp only [nodes]
  rw [← Finset.add_sum_erase _ _ hmem, hrest, update_self,
    ← Finset.add_sum_erase _ (fun i => (words i).nodes) hmem]
  simp only [← Multiset.singleton_add]
  abel

/-- A removal frees no node. -/
theorem nodes_remove (e : Entry l) :
  (e.remove i).nodes = e.nodes
  := by
  induction e with
  | value v => rfl
  | null => rfl
  | node addr words ih =>
    apply add_right_cancel
    rw [remove, nodes_update addr words _ (levelIndex_lt i _), ih]

/-- A null pointer is a word of a zeroed page. -/
theorem eq_zero_of_isNull {e : Entry l} (h : e.isNull = true) :
  e = zero l
  := by
  cases e with
  | value v => rw [eq_of_beq h, zero]
  | null => rfl
  | node addr words => cases h

/-- The nodes of the tree stay. -/
theorem isNull_remove {e : Entry l} (hl : l ≠ 0) (h : e.isNull = false) :
  (e.remove i).isNull = false
  := by
  cases e with
  | value v => exact absurd rfl hl
  | null => cases h
  | node addr words => rfl

@[simp]
theorem forEachNode_zero (l base : ℕ) :
  (zero l).forEachNode base = []
  := by
  cases l with
  | zero => rfl
  | succ l => rfl

/-! ## The walk -/

section

variable {ρ : Type} (f : ℕ → ρ × ℕ)

/-- The walk stops at a word, or goes on below it. -/
theorem walk_succ (e : Entry (l + 1)) (a : NodeAllocator) :
  ∃ a' : NodeAllocator, a'.freed = a.freed ∧
    (walk i f (l + 1) e a = (none, e, a') ∧ a'.given = a.given ∨ ∃ addr words, walk i f (l + 1) e a =
          (let r := walk i f l (words (levelIndex i (l + 1))) a'
          (r.1, node addr (update words (levelIndex i (l + 1)) r.2.1), r.2.2)) ∧
        (∀ j, (node addr words).get j = e.get j) ∧
        (node addr words).nodes + a.given = e.nodes + a'.given)
  := by
  cases e with
  | node addr words => exact ⟨a, rfl, .inr ⟨addr, words, rfl, fun _ => rfl, rfl⟩⟩
  | null =>
    obtain ⟨a', hfreed, ⟨halloc, hgiven⟩ | ⟨addr, halloc, hgiven⟩⟩ := a.allocNode_cases
    · exact ⟨a', hfreed, .inl ⟨by rw [walk, child, halloc], hgiven⟩⟩
    refine ⟨a', hfreed, .inr ⟨addr, fun _ => zero l, ?_, fun _ => get_zero l, ?_⟩⟩
    · rw [walk, child, halloc]
    · simp [nodes, hgiven]

/-- The walk changes the value of the index, or nothing if an allocation fails. -/
theorem get_walk (e : Entry l) (a : NodeAllocator) :
  ∃ v, (∀ j, (walk i f l e a).2.1.get j =
      if j % 2 ^ (l * 9) = i % 2 ^ (l * 9) then v else e.get j) ∧
    ((walk i f l e a).1 = none ∧ v = e.get i ∨
      (walk i f l e a).1 = some (f (e.get i)).1 ∧ v = (f (e.get i)).2)
  := by
  induction l generalizing a with
  | zero =>
    cases e with
    | value v => exact ⟨(f v).2, fun j => by simp [walk, get, Nat.mod_one], .inr ⟨rfl, rfl⟩⟩
  | succ l ih =>
    obtain ⟨a', -, ⟨hwalk, -⟩ | ⟨addr, words, hwalk, hget, -⟩⟩ := walk_succ f e a
    · rw [hwalk]
      refine ⟨e.get i, fun j => ?_, .inl ⟨rfl, rfl⟩⟩
      split_ifs with hj
      · exact e.get_congr hj
      · rfl
    · obtain ⟨v, hnew, hv⟩ := ih (words (levelIndex i (l + 1))) a'
      have hword : (words (levelIndex i (l + 1))).get i = e.get i := hget i
      rw [hwalk]
      refine ⟨v, fun j => ?_, hword ▸ hv⟩
      rw [← hget j]
      exact get_update (hnew j)

/-- The new nodes of the walk are those that the allocator gave. -/
theorem nodes_walk (e : Entry l) (a : NodeAllocator) :
  (walk i f l e a).2.2.freed = a.freed ∧
    (walk i f l e a).2.1.nodes + a.given = e.nodes + (walk i f l e a).2.2.given
  := by
  induction l generalizing a with
  | zero =>
    cases e with
    | value v => exact ⟨rfl, rfl⟩
  | succ l ih =>
    obtain ⟨a', hfreed, ⟨hwalk, hgiven⟩ | ⟨addr, words, hwalk, -, hnodes⟩⟩ := walk_succ f e a
    · rw [hwalk]
      exact ⟨hfreed, by rw [hgiven]⟩
    obtain ⟨hfreed', hgiven⟩ := ih (words (levelIndex i (l + 1))) a'
    have hupdate := nodes_update addr words
      (walk i f l (words (levelIndex i (l + 1))) a').2.1 (levelIndex_lt i l)
    rw [hwalk]
    use hfreed'.trans hfreed
    ext x
    have hcount := congrArg (Multiset.count x) hupdate
    have hcount' := congrArg (Multiset.count x) hgiven
    have hcount'' := congrArg (Multiset.count x) hnodes
    simp only [Multiset.count_add] at hcount hcount' hcount'' ⊢
    omega

/-- A walk keeps the root. -/
theorem isNull_walk {e : Entry l} (hl : l ≠ 0) (h : e.isNull = false) (a : NodeAllocator) :
  (walk i f l e a).2.1.isNull = false
  := by
  cases e with
  | value v => exact absurd rfl hl
  | null => cases h
  | node addr words => rfl

/-- The walk gives up exactly if an allocation is refused. -/
theorem asked_walk (e : Entry l) (a : NodeAllocator) :
  NodeAllocator.Asked (walk i f l e a).1.isSome a (walk i f l e a).2.2
  := by
  induction l generalizing a with
  | zero =>
    cases e with
    | value v => exact .refl a
  | succ l ih =>
    cases e with
    | node addr words => exact ih _ a
    | null =>
      have hasked := a.asked_allocNode
      unfold walk child
      rcases halloc : a.allocNode with ⟨_ | addr, a'⟩
      · rw [halloc] at hasked
        exact hasked
      · rw [halloc] at hasked
        exact hasked.trans (ih _ a')

end

/-! ## Visits and destruction -/

/-- Numbers below a product, block by block. -/
theorem range_mul (m n : ℕ) :
  List.range (m * n) = (List.range n).flatMap fun c => (List.range m).map (m * c + ·)
  := by
  induction n with
  | zero => rfl
  | succ n ih => rw [Nat.mul_succ, List.range_add, ih, List.range_succ, List.flatMap_append]; simp

/-- The visits below a word are the values below it, in the order of their indices. -/
theorem forEachNode_eq (e : Entry l) (k : ℕ) :
  e.forEachNode (2 ^ (l * 9) * k) =
    ((List.range (2 ^ (l * 9))).map fun i => (2 ^ (l * 9) * k + i, e.get i)).filter (·.2 ≠ 0)
  := by
  induction e generalizing k with
  | value v => by_cases hv : v = 0 <;> simp [forEachNode, get, hv]
  | null => simp [forEachNode, get]
  | @node l addr words ih =>
    have hblock : ∀ c ∈ List.range entriesPerNode,
        (words c).forEachNode (2 ^ ((l + 1) * 9) * k ||| c <<< (l * bitsPerLevel)) =
        (((List.range (2 ^ (l * 9))).map (2 ^ (l * 9) * c + ·)).map fun i =>
          (2 ^ ((l + 1) * 9) * k + i, (node addr words).get i)).filter (·.2 ≠ 0) := by
      intro c hc
      have hc : c < 2 ^ 9 := List.mem_range.mp hc
      have hbase : 2 ^ ((l + 1) * 9) * k ||| c <<< (l * bitsPerLevel) =
          2 ^ (l * 9) * (2 ^ 9 * k + c) := by
        rw [Nat.two_pow_add_eq_or_of_lt hc, pow_level, bitsPerLevel,
          mul_comm (2 ^ (l * 9)) (_ ||| c), ← Nat.shiftLeft_eq, Nat.shiftLeft_or_distrib,
          Nat.shiftLeft_eq (2 ^ 9 * k), mul_comm (2 ^ (l * 9)) 512, mul_right_comm]
      rw [hbase, ih c, List.map_map]
      congr 1
      apply List.map_congr_left
      intro i hi
      have hlt := List.mem_range.mp hi
      have hidx : levelIndex (2 ^ (l * 9) * c + i) (l + 1) = c := by
        rw [levelIndex_eq, Nat.mul_add_div (Nat.two_pow_pos _), Nat.div_eq_of_lt hlt, Nat.add_zero]
        exact Nat.mod_eq_of_lt hc
      have hget : (node addr words).get (2 ^ (l * 9) * c + i) = (words c).get i := by
        rw [get, hidx]
        exact get_congr _ (Nat.mul_add_mod ..)
      rw [comp_apply, hget, mul_add, ← mul_assoc, ← pow_add, ← Nat.succ_mul, add_assoc]
    rw [forEachNode, List.flatMap_congr hblock, pow_level, range_mul, List.map_flatMap,
      List.filter_flatMap]
    rfl

/-- The nodes are freed and none is given. -/
theorem destroyNode_spec (e : Entry l) (a : NodeAllocator) :
  (e.destroyNode a).given = a.given ∧ ((e.destroyNode a).freed : Multiset ℕ) = e.nodes + a.freed
  := by
  induction e generalizing a with
  | value v => exact ⟨rfl, (zero_add _).symm⟩
  | null => exact ⟨rfl, (zero_add _).symm⟩
  | node addr words ih =>
    have hfold : ∀ n, ((List.range n).foldl (fun a i => (words i).destroyNode a) a).given = a.given ∧
        (((List.range n).foldl (fun a i => (words i).destroyNode a) a).freed : Multiset ℕ) =
          ∑ i ∈ Finset.range n, (words i).nodes + a.freed := by
      intro n
      induction n with
      | zero => exact ⟨rfl, (zero_add _).symm⟩
      | succ n hn =>
        rw [List.range_succ, List.foldl_append, Finset.sum_range_succ]
        obtain ⟨hgiven, hfreed⟩ := ih n ((List.range n).foldl (fun a i => (words i).destroyNode a) a)
        use hgiven.trans hn.1
        rw [List.foldl_cons, List.foldl_nil, hfreed, hn.2]
        abel
    obtain ⟨hgiven, hfreed⟩ := hfold entriesPerNode
    rw [destroyNode, nodes, Multiset.cons_add, ← hfreed]
    generalize (List.range entriesPerNode).foldl _ a = a' at hgiven
    exact ⟨hgiven, rfl⟩

end Entry

/-! ## The map of a tree -/

/-- The tree holds a map, and its nodes are those that the allocator gave and that were not freed. -/
structure Holds (m : ℕ → ℕ) (t : RadixTree) (a : NodeAllocator) : Prop where
  depth : t.depth ≤ maxLevels
  root : t.root.isNull = true ↔ t.depth = 0
  get : ∀ j, (if j < 2 ^ (t.depth * 9) then t.root.get j else 0) = m j
  nodes : (a.given : Multiset ℕ) = t.root.nodes + a.freed

namespace RadixTree

theorem depthLoop_spec (i : ℕ) {n d : ℕ} (hi : i < 2 ^ ((d + n) * 9)) :
  i < 2 ^ (depthLoop i n d * 9) ∧ d ≤ depthLoop i n d ∧ depthLoop i n d ≤ d + n
  := by
  induction n generalizing d with
  | zero => exact ⟨hi, le_rfl, le_rfl⟩
  | succ n ih =>
    unfold depthLoop
    split_ifs with h
    · obtain ⟨hlt, hge, hle⟩ := ih (d := d + 1) (by rwa [Nat.add_right_comm])
      exact ⟨hlt, by omega, by omega⟩
    · rw [Nat.one_shiftLeft, not_le] at h
      exact ⟨h, le_rfl, by omega⟩

/-- The depth is enough for the index and at most the maximal one. -/
theorem depthForIndex_spec {i : ℕ} (hi : i < maxIndex) :
  i < 2 ^ (depthForIndex i * 9) ∧ 0 < depthForIndex i ∧ depthForIndex i ≤ maxLevels
  := by
  unfold depthForIndex
  split_ifs with h
  · rw [h]
    decide
  · exact depthLoop_spec i hi

/-- The tree stops growing at a refusal. -/
theorem asked_growDepth (n : ℕ) (t : RadixTree) (a : NodeAllocator) :
  NodeAllocator.Asked (t.growDepth n a).1 a (t.growDepth n a).2.2
  := by
  induction n generalizing t a with
  | zero => exact .refl a
  | succ n ih =>
    have hasked := a.asked_allocNode
    unfold growDepth
    rcases halloc : a.allocNode with ⟨_ | addr, a'⟩
    · rw [halloc] at hasked
      exact hasked
    · rw [halloc] at hasked
      exact hasked.trans (ih _ a')

theorem asked_ensureRoot (needed : ℕ) (t : RadixTree) (a : NodeAllocator) :
  NodeAllocator.Asked (t.ensureRoot needed a).1 a (t.ensureRoot needed a).2.2
  := by
  unfold ensureRoot
  split_ifs
  · have hasked := a.asked_allocNode
    rcases halloc : a.allocNode with ⟨_ | addr, a'⟩
    · rw [halloc] at hasked
      exact hasked
    · rw [halloc] at hasked
      exact hasked
  · exact .refl a

/-- Apart from an index that is too large, an operation fails exactly if an allocation is refused. -/
theorem modify_eq_none_iff {ρ : Type} (t : RadixTree) (i : ℕ) (f : ℕ → ρ × ℕ) (a : NodeAllocator) :
  (t.modify i f a).1 = none ↔ maxIndex ≤ i ∨ a.Refused (t.modify i f a).2.2
  := by
  unfold modify
  by_cases hi : i ≥ maxIndex
  · rw [if_pos hi]
    exact iff_of_true rfl (.inl hi)
  rw [if_neg hi, or_iff_right hi]
  have hgrow := asked_growDepth (depthForIndex i - t.depth) t a
  dsimp only
  rcases hgrown : t.growDepth (depthForIndex i - t.depth) a with ⟨_ | _, t₁, a₁⟩
  · rw [hgrown] at hgrow
    exact iff_of_true rfl (hgrow.refused.mp rfl)
  rw [hgrown] at hgrow
  have hroot := asked_ensureRoot (depthForIndex i) t₁ a₁
  dsimp only
  rcases hrooted : t₁.ensureRoot (depthForIndex i) a₁ with ⟨_ | _, t₂, a₂⟩
  · rw [hrooted] at hroot
    exact iff_of_true rfl ((hgrow.trans hroot).refused.mp rfl)
  rw [hrooted] at hroot
  have hwalk := (hgrow.trans hroot).trans (Entry.asked_walk (i := i) f t₂.root a₂)
  rw [← hwalk.refused, Option.isSome_eq_false_iff, Option.isNone_iff_eq_none]

end RadixTree

namespace Holds

variable {m : ℕ → ℕ} {t : RadixTree} {a : NodeAllocator} (h : Holds m t a)
include h

/-- An empty tree has no root. -/
theorem root_of_empty (hnull : (t.root.isNull || t.depth == 0) = true) :
  t.root = .zero t.depth
  := by
  apply Entry.eq_zero_of_isNull
  obtain hroot | hdepth := (Bool.or_eq_true _ _).mp hnull
  · exact hroot
  · exact h.root.mpr (eq_of_beq hdepth)

/-- A lookup is the application of the map. -/
theorem get_eq (j : ℕ) :
  t.get j = m j
  := by
  rw [← h.get j, RadixTree.get, bitsPerLevel, Nat.one_shiftLeft]
  by_cases hnull : (t.root.isNull || t.depth == 0) = true
  · rw [if_pos hnull, h.root_of_empty hnull, Entry.get_zero, ite_self]
  rw [if_neg hnull]
  by_cases hj : j < 2 ^ (t.depth * 9)
  · rw [if_neg (not_le.mpr hj), if_pos hj]
  · rw [if_pos (not_lt.mp hj), if_neg hj]

/-- A new root above the tree holds the same map. -/
theorem newRoot {addr : ℕ} {a' : NodeAllocator} (hgiven : a'.given = addr :: a.given)
    (hfreed : a'.freed = a.freed) (hlt : t.depth < maxLevels) :
  Holds m ⟨t.depth + 1, .node addr (update (fun _ => .zero t.depth) 0 t.root)⟩ a'
  := by
  refine ⟨hlt, iff_of_false nofun (Nat.succ_ne_zero _), ?_, ?_⟩
  · intro j
    rw [← h.get j, Entry.get, levelIndex_eq, pow_level, update_apply]
    by_cases hj : j < 2 ^ (t.depth * 9)
    · rw [Nat.div_eq_of_lt hj, if_pos (by omega), if_pos (by rfl), if_pos hj]
    split_ifs with hlt hzero
    · have hdiv := Nat.div_lt_of_lt_mul hlt
      rw [Nat.mod_eq_of_lt hdiv, Nat.div_eq_zero_iff] at hzero
      omega
    · exact Entry.get_zero _
    · rfl
  · have hnodes := Entry.nodes_update addr (fun _ => .zero t.depth) t.root
      (show 0 < entriesPerNode by decide)
    rw [hgiven, hfreed, ← Multiset.cons_coe, h.nodes]
    simp only [Entry.nodes, Entry.nodes_zero, Finset.sum_const_zero, add_zero] at hnodes ⊢
    rw [hnodes, Multiset.cons_add, Multiset.cons_add, zero_add]

/-- The value at an index of the tree changes. -/
theorem setRoot {i v : ℕ} {e : Entry t.depth} {a' : NodeAllocator} (hi : i < 2 ^ (t.depth * 9))
    (hdepth : t.depth ≠ 0) (hnode : e.isNull = false)
    (hget : ∀ j, e.get j = if j % 2 ^ (t.depth * 9) = i % 2 ^ (t.depth * 9) then v
      else t.root.get j)
    (hnodes : (a'.given : Multiset ℕ) = e.nodes + a'.freed) :
  Holds (update m i v) ⟨t.depth, e⟩ a'
  := by
  refine ⟨h.depth, iff_of_false (Bool.eq_false_iff.mp hnode) hdepth, ?_, hnodes⟩
  intro j
  rw [update_apply, ← h.get j, hget j]
  by_cases hj : j < 2 ^ (t.depth * 9)
  · rw [if_pos hj, if_pos hj, Nat.mod_eq_of_lt hj, Nat.mod_eq_of_lt hi]
  have hne : j ≠ i := by
    rintro rfl
    exact hj hi
  rw [if_neg hj, if_neg hj, if_neg hne]

/-- The value of the index changes, or nothing if an allocation is refused. -/
theorem walk {ρ : Type} (f : ℕ → ρ × ℕ) {i : ℕ} (hi : i < 2 ^ (t.depth * 9)) (hdepth : t.depth ≠ 0) :
  ∃ v, Holds (update m i v) ⟨t.depth, (Entry.walk i f t.depth t.root a).2.1⟩
      (Entry.walk i f t.depth t.root a).2.2 ∧
    ((Entry.walk i f t.depth t.root a).1 = none ∧ v = m i ∨
      (Entry.walk i f t.depth t.root a).1 = some (f (m i)).1 ∧ v = (f (m i)).2)
  := by
  obtain ⟨v, hget, hv⟩ := Entry.get_walk (i := i) f t.root a
  obtain ⟨hfreed, hgiven⟩ := Entry.nodes_walk (i := i) f t.root a
  have hm := h.get i
  rw [if_pos hi] at hm
  have hroot : t.root.isNull = false := Bool.eq_false_iff.mpr (mt h.root.mp hdepth)
  refine ⟨v, h.setRoot hi hdepth (Entry.isNull_walk f hdepth hroot a) hget ?_, hm ▸ hv⟩
  rw [h.nodes, add_left_comm] at hgiven
  rw [hfreed]
  exact (add_left_cancel hgiven).symm

/-- New roots do not change the map. -/
theorem growDepth {n : ℕ} (hn : t.depth + n ≤ maxLevels) :
  Holds m (t.growDepth n a).2.1 (t.growDepth n a).2.2 ∧
    ((t.growDepth n a).1 = true → (t.growDepth n a).2.1.depth = t.depth + n)
  := by
  induction n generalizing t a with
  | zero => exact ⟨h, fun _ => rfl⟩
  | succ n ih =>
    unfold RadixTree.growDepth
    obtain ⟨a', hfreed, ⟨halloc, hgiven⟩ | ⟨addr, halloc, hgiven⟩⟩ := a.allocNode_cases
    · rw [halloc]
      refine ⟨⟨h.depth, h.root, h.get, ?_⟩, fun hfalse => by cases hfalse⟩
      rw [hgiven, hfreed]
      exact h.nodes
    · rw [halloc]
      obtain ⟨hgrown, hdepth⟩ := ih (h.newRoot hgiven hfreed (by omega)) (by dsimp only; omega)
      exact ⟨hgrown, fun htrue => (hdepth htrue).trans (by dsimp only; omega)⟩

/-- A tree that has grown has a root. -/
theorem ensureRoot (hdepth : t.depth ≠ 0) (needed : ℕ) :
  t.ensureRoot needed a = (true, t, a)
  := by
  unfold RadixTree.ensureRoot
  rw [if_neg (mt h.root.mp hdepth)]

/-- The value of the index is changed, or nothing if an allocation fails. -/
theorem modify {ρ : Type} (f : ℕ → ρ × ℕ) (i : ℕ) :
  ∃ v, Holds (update m i v) (t.modify i f a).2.1 (t.modify i f a).2.2 ∧
    ((t.modify i f a).1 = none ∧ v = m i ∨
      (t.modify i f a).1 = some (f (m i)).1 ∧ v = (f (m i)).2)
  := by
  have hsame : ∀ {t a}, Holds m t a → Holds (update m i (m i)) t a := by
    intro t a h
    rwa [update_eq_self]
  unfold RadixTree.modify
  split_ifs with hi
  · exact ⟨m i, hsame h, .inl ⟨rfl, rfl⟩⟩
  obtain ⟨hlt, hpos, hle⟩ := RadixTree.depthForIndex_spec (not_le.mp hi)
  have hdepth := h.depth
  obtain ⟨hgrown, hdepth₁⟩ := h.growDepth (n := RadixTree.depthForIndex i - t.depth) (by omega)
  dsimp only
  rcases hgrow : t.growDepth (RadixTree.depthForIndex i - t.depth) a with ⟨_ | _, t₁, a₁⟩
  · rw [hgrow] at hgrown
    exact ⟨m i, hsame hgrown, .inl ⟨rfl, rfl⟩⟩
  rw [hgrow] at hgrown hdepth₁
  have hdepth₂ : RadixTree.depthForIndex i ≤ t₁.depth := by
    have heq : t₁.depth = _ := hdepth₁ rfl
    omega
  have hne : t₁.depth ≠ 0 := Nat.ne_of_gt (hpos.trans_le hdepth₂)
  dsimp only
  rw [hgrown.ensureRoot hne]
  exact hgrown.walk f (hlt.trans_le (Nat.pow_le_pow_right (by decide)
    (Nat.mul_le_mul_right 9 hdepth₂))) hne

/-- A removal is an update of the map. -/
theorem remove (i : ℕ) :
  Holds (update m i 0) (t.remove i) a
  := by
  unfold RadixTree.remove
  rw [bitsPerLevel, Nat.one_shiftLeft]
  have hget := h.get_eq i
  unfold RadixTree.get at hget
  rw [bitsPerLevel, Nat.one_shiftLeft] at hget
  split_ifs at hget ⊢ with hnull hi
  · rwa [hget, update_eq_self]
  · rwa [hget, update_eq_self]
  have hdepth : t.depth ≠ 0 := fun hzero => hnull (by simp [hzero])
  have hroot : t.root.isNull = false := Bool.eq_false_iff.mpr (mt h.root.mp hdepth)
  apply h.setRoot (not_le.mp hi) hdepth (Entry.isNull_remove hdepth hroot) (t.root.get_remove)
  rw [Entry.nodes_remove]
  exact h.nodes

/-- The visits are the indices with a value, in increasing order. -/
theorem forEach_eq :
  t.forEach = ((List.range (2 ^ (t.depth * 9))).map fun i => (i, m i)).filter (·.2 ≠ 0)
  := by
  have hmap : ((List.range (2 ^ (t.depth * 9))).map fun i => (i, m i)) =
      (List.range (2 ^ (t.depth * 9))).map fun i => (i, t.root.get i) := by
    apply List.map_congr_left
    intro i hi
    rw [← h.get i, if_pos (List.mem_range.mp hi)]
  have hnode := t.root.forEachNode_eq 0
  simp only [Nat.mul_zero, Nat.zero_add] at hnode
  rw [hmap, ← hnode, RadixTree.forEach]
  split_ifs with hnull
  · rw [h.root_of_empty hnull, Entry.forEachNode_zero]
  · rfl

/-- The visits are the graph of the map. -/
theorem mem_forEach (i v : ℕ) :
  (i, v) ∈ t.forEach ↔ v = m i ∧ v ≠ 0
  := by
  rw [h.forEach_eq, List.mem_filter, List.mem_map]
  simp only [Prod.mk.injEq, List.mem_range, decide_eq_true_eq]
  constructor
  · rintro ⟨⟨k, -, rfl, rfl⟩, hv⟩
    exact ⟨rfl, hv⟩
  · rintro ⟨rfl, hv⟩
    refine ⟨⟨i, ?_, rfl, rfl⟩, hv⟩
    by_contra hi
    rw [← h.get i, if_neg hi] at hv
    exact hv rfl

theorem pairwise_forEach :
  t.forEach.Pairwise (·.1 < ·.1)
  := by
  rw [h.forEach_eq]
  apply List.Pairwise.filter
  rw [List.pairwise_map]
  exact List.pairwise_lt_range

/-- All nodes that were given are freed. -/
theorem destroy :
  (t.destroy a).2.freed.Perm a.given
  := by
  rw [← Multiset.coe_eq_coe, h.nodes]
  unfold RadixTree.destroy
  split_ifs with hroot
  · exact (t.root.destroyNode_spec a).2
  have hnull : (t.root.isNull || t.depth == 0) = true := by
    simpa [or_iff_not_imp_left] using hroot
  rw [h.root_of_empty hnull, Entry.nodes_zero, zero_add]

end Holds

/-! ## Runs -/

/-- A tree and the allocator of its nodes. -/
structure System where
  tree : RadixTree
  alloc : NodeAllocator

namespace System

/-- The operations that change a tree. -/
inductive Op where
  | insert (pageIdx value : ℕ)
  | reserveSlot (pageIdx busySentinel : ℕ)
  | remove (pageIdx : ℕ)

def exec (s : System) : Op → System
  | .insert i v => let r := s.tree.insert i v s.alloc; ⟨r.2.1, r.2.2⟩
  | .reserveSlot i busy => let r := s.tree.reserveSlot i busy s.alloc; ⟨r.2.1, r.2.2⟩
  | .remove i => ⟨s.tree.remove i, s.alloc⟩

/-- The tree is a finite map: an operation changes the value of its index and no other, and nothing
if it fails; it fails only for an index that is too large or if an allocation was refused; the visits
are the indices with a value, each once and in increasing order; and to destroy the tree frees each
node that was allocated once. -/
structure IsMap (s : System) : Prop where
  insert : ∀ i v j, (s.exec (.insert i v)).tree.get j =
    if (s.tree.insert i v s.alloc).1 = true ∧ j = i then v else s.tree.get j
  reserveSlot : ∀ i busy j, (s.exec (.reserveSlot i busy)).tree.get j =
    if (s.tree.reserveSlot i busy s.alloc).1 = some true ∧ j = i then busy else s.tree.get j
  reserved : ∀ i busy b, (s.tree.reserveSlot i busy s.alloc).1 = some b → (b = true ↔ s.tree.get i = 0)
  insertFails : ∀ i v, (s.tree.insert i v s.alloc).1 = false ↔
    maxIndex ≤ i ∨ s.alloc.Refused (s.exec (.insert i v)).alloc
  reserveFails : ∀ i busy, (s.tree.reserveSlot i busy s.alloc).1 = none ↔
    maxIndex ≤ i ∨ s.alloc.Refused (s.exec (.reserveSlot i busy)).alloc
  remove : ∀ i j, (s.exec (.remove i)).tree.get j = if j = i then 0 else s.tree.get j
  forEach : s.tree.forEach.Pairwise (·.1 < ·.1) ∧
    ∀ i v, (i, v) ∈ s.tree.forEach ↔ v = s.tree.get i ∧ v ≠ 0
  destroy : (s.tree.destroy s.alloc).2.freed.Perm s.alloc.given

variable {s : System}

/-- Every operation leaves a tree that holds some map. -/
theorem exec_holds {m : ℕ → ℕ} (h : Holds m s.tree s.alloc) (o : Op) :
  ∃ m', Holds m' (s.exec o).tree (s.exec o).alloc
  := by
  cases o with
  | insert i v =>
    obtain ⟨v, hv, -⟩ := h.modify (fun _ => ((), v)) i
    exact ⟨_, hv⟩
  | reserveSlot i busy =>
    obtain ⟨v, hv, -⟩ := h.modify _ i
    exact ⟨_, hv⟩
  | remove i => exact ⟨_, h.remove i⟩

/-- A tree that holds a map is one. -/
theorem isMap_of_holds {m : ℕ → ℕ} (h : Holds m s.tree s.alloc) :
  s.IsMap
  := by
  have hget : s.tree.get = m := funext h.get_eq
  constructor
  case insert =>
    intro i v j
    rw [hget]
    obtain ⟨w, hw, ⟨hr, rfl⟩ | ⟨hr, rfl⟩⟩ := h.modify (fun _ => ((), v)) i
    · apply (hw.get_eq j).trans
      simp [RadixTree.insert, hr]
    · apply (hw.get_eq j).trans
      simp [RadixTree.insert, hr, update_apply]
  case reserveSlot =>
    intro i busy j
    rw [hget]
    obtain ⟨w, hw, ⟨hr, rfl⟩ | ⟨hr, rfl⟩⟩ := h.modify (RadixTree.reserve busy) i
    · apply (hw.get_eq j).trans
      simp [RadixTree.reserveSlot, hr]
    apply (hw.get_eq j).trans
    by_cases hm : m i = 0
    · simp [RadixTree.reserveSlot, hr, hm, RadixTree.reserve, update_apply]
    · simp [RadixTree.reserveSlot, hr, hm, RadixTree.reserve]
  case reserved =>
    intro i busy b hb
    rw [hget]
    obtain ⟨w, -, ⟨hr, -⟩ | ⟨hr, -⟩⟩ := h.modify (RadixTree.reserve busy) i
    · cases hr.symm.trans hb
    rw [← Option.some.inj (hr.symm.trans hb)]
    by_cases hm : m i = 0
    · simp [hm, RadixTree.reserve]
    · simp [hm, RadixTree.reserve]
  case insertFails =>
    intro i v
    rw [RadixTree.insert, Option.isSome_eq_false_iff, Option.isNone_iff_eq_none]
    apply RadixTree.modify_eq_none_iff
  case reserveFails =>
    intro i busy
    apply RadixTree.modify_eq_none_iff
  case remove =>
    intro i j
    rw [hget]
    exact ((h.remove i).get_eq j).trans (update_apply ..)
  case forEach => exact ⟨h.pairwise_forEach, fun i v => hget ▸ h.mem_forEach i v⟩
  case destroy => exact h.destroy

theorem holds_of_run (answers : ℕ → Option ℕ) (ops : List Op) :
  ∃ m, Holds m (ops.foldl exec ⟨.empty, { answers }⟩).tree (ops.foldl exec ⟨.empty, { answers }⟩).alloc
  := by
  have hstart : Holds (fun _ => 0) .empty { answers } :=
    ⟨Nat.zero_le _, iff_of_true rfl rfl, fun j => by simp [RadixTree.empty, Entry.get], rfl⟩
  refine List.foldlRecOn (b := ⟨.empty, { answers }⟩) ops exec
    (motive := fun s : System => ∃ m, Holds m s.tree s.alloc) ⟨_, hstart⟩ ?_
  rintro s ⟨m, hs⟩ op -
  exact exec_holds hs op

/-- After every sequence of operations, with allocations that fail at any point, the tree is a finite
map. -/
theorem radixTree_isMap (answers : ℕ → Option ℕ) (ops : List Op) :
  (ops.foldl exec ⟨.empty, { answers }⟩).IsMap
  := by
  obtain ⟨m, hm⟩ := holds_of_run answers ops
  exact isMap_of_holds hm

/-- The tree grows for an index of the second level. -/
example :
    let r := RadixTree.empty.insert 600 7 { answers := fun n => some n }
    r.1 = true ∧ r.2.1.depth = 2 ∧ r.2.1.get 600 = 7 ∧ r.2.1.get 88 = 0 := by
  decide

end System

end SaltyOS.Radix
