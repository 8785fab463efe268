import Mathlib.Data.List.Nodup
import Mathlib.Data.List.Lattice

/-!
# Intrusive linked lists

The elements of an intrusive list carry their own links. A singly linked list is given by a function
`next` and a null element that ends the list, a doubly linked list has a function `prev` as well.
The file contains:

* `Chain`, the list of elements of a singly linked list, and `Follows`, membership by following links,
* `Linked`, the list of elements of a doubly linked list,
* how the lists change when the links of an element are rewritten: insertion at the front or at the
  end, removal of an element, and cutting after an element.
-/

variable {α : Type*}

/-! ## Singly linked lists -/

/-- Following `next` from `x` up to `null` goes through the elements of the list. -/
def Chain (next : α → α) (null : α) : α → List α → Prop
  | x, [] => x = null
  | x, y :: ys => x = y ∧ y ≠ null ∧ Chain next null (next y) ys

/-- An element is reached from `x` by following `next` without going through `null`. -/
inductive Follows (next : α → α) (null : α) (x : α) : α → Prop
  | start : x ≠ null → Follows next null x x
  | step (y : α) : Follows next null x y → next y ≠ null → Follows next null x (next y)

namespace Follows

variable {next next' : α → α} {null x x' y z : α}

theorem ne_null (h : Follows next null x y) :
  y ≠ null
  := by
  cases h with
  | start hx => apply hx
  | step _ _ hne => apply hne

theorem trans (h : Follows next null x y) (h' : Follows next null y z) :
  Follows next null x z
  := by
  induction h' with
  | start _ => apply h
  | step w _ hne ih => apply Follows.step w ih hne

/-- What is reached from the next element is reached from the element. -/
theorem of_next (hx : x ≠ null) (h : Follows next null (next x) y) :
  Follows next null x y
  := by
  induction h with
  | start hne => apply Follows.step x (Follows.start hx) hne
  | step w _ hne ih => apply Follows.step w ih hne

/-- Links that skip elements reach no new elements. -/
theorem of_shortcut (hstart : x' ≠ null → Follows next null x x')
    (hnext : ∀ w, w ≠ null → next' w ≠ null → Follows next null w (next' w))
    (h : Follows next' null x' y) :
  Follows next null x y
  := by
  induction h with
  | start hx => apply hstart hx
  | step w _ hne ih => apply ih.trans (hnext w ih.ne_null hne)

end Follows

namespace Chain

variable {next : α → α} {null x y : α} {L L' : List α}

section

variable (h : Chain next null x L)
include h

/-- The elements of a chain are determined by its start. -/
theorem unique (h' : Chain next null x L') :
  L = L'
  := by
  induction L generalizing x L' with
  | nil =>
    cases L' with
    | nil => rfl
    | cons z zs =>
      obtain ⟨rfl, hz, _⟩ := h'
      exact absurd h hz
  | cons y ys ih =>
    obtain ⟨rfl, hx, htail⟩ := h
    cases L' with
    | nil => exact absurd h' hx
    | cons z zs =>
      obtain ⟨rfl, _, htail'⟩ := h'
      rw [ih htail htail']

/-- The part of a chain from one of its elements on. -/
theorem suffix (hy : y ∈ L) :
  ∃ L₁ L₂, L = L₁ ++ y :: L₂ ∧ Chain next null y (y :: L₂)
  := by
  induction L generalizing x with
  | nil => cases hy
  | cons z zs ih =>
    obtain ⟨rfl, hx, htail⟩ := h
    cases hy with
    | head => exact ⟨[], zs, rfl, rfl, hx, htail⟩
    | tail _ hy =>
      obtain ⟨L₁, L₂, rfl, hL⟩ := ih htail hy
      exact ⟨x :: L₁, L₂, rfl, hL⟩

theorem nodup :
  L.Nodup
  := by
  induction L generalizing x with
  | nil => apply List.nodup_nil
  | cons y ys ih =>
    have hchain := h
    obtain ⟨rfl, hx, htail⟩ := h
    rw [List.nodup_cons]
    constructor
    · intro hmem
      obtain ⟨L₁, L₂, rfl, hL⟩ := htail.suffix hmem
      have heq := congrArg List.length (hchain.unique hL)
      simp only [List.length_cons, List.length_append] at heq
      omega
    · apply ih htail

theorem ne_null (hy : y ∈ L) :
  y ≠ null
  := by
  obtain ⟨_, _, _, _, hne, _⟩ := h.suffix hy
  exact hne

/-- The element after an element of a chain is in the chain, unless it is the last one. -/
theorem next_mem (hy : y ∈ L) (hne : next y ≠ null) :
  next y ∈ L
  := by
  obtain ⟨L₁, L₂, rfl, _, _, htail⟩ := h.suffix hy
  cases L₂ with
  | nil => exact absurd htail hne
  | cons z zs =>
    rw [htail.1]
    simp

theorem mem_iff_follows :
  y ∈ L ↔ Follows next null x y
  := by
  constructor
  · intro hy
    induction L generalizing x with
    | nil => cases hy
    | cons z zs ih =>
      obtain ⟨rfl, hx, htail⟩ := h
      cases hy with
      | head => apply Follows.start hx
      | tail _ hy => apply Follows.of_next hx (ih htail hy)
  · intro hf
    induction hf with
    | start hx =>
      cases L with
      | nil => exact absurd h hx
      | cons z zs =>
        rw [h.1]
        apply List.mem_cons_self
    | step w _ hne ihw => apply h.next_mem ihw hne

/-- An element of a list is on no cycle of links. -/
theorem not_transGen (hy : y ∈ L) :
  ¬ Relation.TransGen (fun a b => b ≠ null ∧ next a = b) y y
  := by
  intro hcycle
  obtain ⟨L₁, L₂, rfl, hL⟩ := h.suffix hy
  have hmem : ∀ z, Relation.TransGen (fun a b => b ≠ null ∧ next a = b) y z → z ∈ L₂ := by
    intro z hz
    induction hz with
    | single hyz =>
      obtain ⟨hne, rfl⟩ := hyz
      cases L₂ with
      | nil => exact absurd hL.2.2 hne
      | cons w ws =>
        rw [hL.2.2.1]
        apply List.mem_cons_self
    | tail _ hzw ih =>
      obtain ⟨hne, rfl⟩ := hzw
      apply Chain.next_mem hL.2.2 ih hne
  have hnodup := hL.nodup
  rw [List.nodup_cons] at hnodup
  apply hnodup.1 (hmem y hcycle)

theorem congr {next' : α → α} (hnext : ∀ y ∈ L, next' y = next y) :
  Chain next' null x L
  := by
  induction L generalizing x with
  | nil => apply h
  | cons y ys ih =>
    obtain ⟨rfl, hx, htail⟩ := h
    use rfl, hx
    rw [hnext x List.mem_cons_self]
    apply ih htail
    intro z hz
    apply hnext z (List.mem_cons_of_mem _ hz)

/-- The chain after one of its elements. -/
theorem drop {j : ℕ} (hj : L[j]? = some y) :
  Chain next null (next y) (L.drop (j + 1))
  := by
  induction L generalizing x j with
  | nil => cases hj
  | cons z zs ih =>
    obtain ⟨rfl, _, htail⟩ := h
    cases j with
    | zero =>
      cases hj
      apply htail
    | succ j => apply ih htail hj

theorem head_eq :
  x = L[0]?.getD null
  := by
  cases L with
  | nil => apply h
  | cons y ys => apply h.1

/-- The link of an element. -/
theorem next_eq {j : ℕ} (hj : L[j]? = some y) :
  next y = L[j + 1]?.getD null
  := by
  have hhead := (h.drop hj).head_eq
  rw [List.getElem?_drop] at hhead
  exact hhead

/-- An element is linked to the end of a chain. -/
theorem concat {next' : α → α} {j : ℕ} {z : α} (hj : L[j]? = some z) (hlast : j + 1 = L.length)
    (hy : y ≠ null) (hz : next' z = y) (hend : next' y = null)
    (hsame : ∀ w ∈ L, w ≠ z → next' w = next w) :
  Chain next' null x (L ++ [y])
  := by
  induction L generalizing x j with
  | nil => cases hj
  | cons w ws ih =>
    have hnodup := h.nodup
    obtain ⟨rfl, hx, htail⟩ := h
    use rfl, hx
    cases j with
    | zero =>
      cases hj
      obtain rfl : ws = [] := List.eq_nil_of_length_eq_zero (by simpa using hlast.symm)
      exact ⟨hz, hy, hend⟩
    | succ j =>
      have hne : x ≠ z := by
        rintro rfl
        exact (List.nodup_cons.mp hnodup).1 (List.mem_of_getElem? hj)
      rw [hsame x List.mem_cons_self hne]
      apply ih htail hj (Nat.succ.inj hlast)
      intro v hv
      apply hsame v (List.mem_cons_of_mem _ hv)

/-- A chain is cut after one of its elements. -/
theorem take {next' : α → α} {j : ℕ} {z : α} (hj : L[j]? = some z) (hz : next' z = null)
    (hsame : ∀ w ∈ L.take j, next' w = next w) :
  Chain next' null x (L.take (j + 1))
  := by
  induction L generalizing x j with
  | nil => cases hj
  | cons w ws ih =>
    obtain ⟨rfl, hx, htail⟩ := h
    use rfl, hx
    cases j with
    | zero =>
      cases hj
      exact hz
    | succ j =>
      rw [hsame x List.mem_cons_self]
      apply ih htail hj
      intro v hv
      apply hsame v (List.mem_cons_of_mem _ hv)

end

end Chain

/-! ## Doubly linked lists -/

/-- Following `next` from `x` up to `null` goes through the elements of the list, and `prev` leads
back to the element before, which is `p` for the first element. -/
def Linked (next prev : α → α) (null : α) : α → α → List α → Prop
  | _, x, [] => x = null
  | p, x, y :: ys => x = y ∧ y ≠ null ∧ prev y = p ∧ Linked next prev null y (next y) ys

namespace Linked

variable {next prev next' prev' : α → α} {null p x y c : α} {L : List α}

section

variable (h : Linked next prev null p x L)
include h

theorem chain :
  Chain next null x L
  := by
  induction L generalizing p x with
  | nil => apply h
  | cons y ys ih =>
    obtain ⟨rfl, hx, _, htail⟩ := h
    exact ⟨rfl, hx, ih htail⟩

/-- Only the links of the elements of the list matter. -/
theorem congr (hnext : ∀ y ∈ L, next' y = next y) (hprev : ∀ y ∈ L, prev' y = prev y) :
  Linked next' prev' null p x L
  := by
  induction L generalizing p x with
  | nil => apply h
  | cons y ys ih =>
    obtain ⟨rfl, hx, hp, htail⟩ := h
    refine ⟨rfl, hx, ?_, ?_⟩
    · rw [hprev x List.mem_cons_self, hp]
    rw [hnext x List.mem_cons_self]
    apply ih htail
    · intro z hz
      apply hnext z (List.mem_cons_of_mem x hz)
    · intro z hz
      apply hprev z (List.mem_cons_of_mem x hz)

/-- The element before an element is in the list, unless it is the first one. -/
theorem prev_mem (hc : c ∈ L) :
  (x = c ∧ prev c = p) ∨ (x ≠ c ∧ prev c ∈ L)
  := by
  induction L generalizing p x with
  | nil => cases hc
  | cons y ys ih =>
    have hnodup := h.chain.nodup
    rw [List.nodup_cons] at hnodup
    obtain ⟨rfl, hx, hp, htail⟩ := h
    cases hc with
    | head => exact .inl ⟨rfl, hp⟩
    | tail _ hc =>
      right
      constructor
      · intro heq
        apply hnodup.1
        rw [heq]
        apply hc
      · obtain ⟨_, hprev⟩ | ⟨_, hprev⟩ := ih htail hc
        · rw [hprev]
          apply List.mem_cons_self
        · apply List.mem_cons_of_mem x hprev

/-- The element after an element leads back to it. -/
theorem prev_next (hc : c ∈ L) (hne : next c ≠ null) :
  prev (next c) = c
  := by
  induction L generalizing p x with
  | nil => cases hc
  | cons y ys ih =>
    obtain ⟨rfl, hx, hp, htail⟩ := h
    cases hc with
    | head =>
      cases ys with
      | nil => exact absurd htail hne
      | cons z zs =>
        obtain ⟨hz, _, hprev, _⟩ := htail
        rw [hz, hprev]
    | tail _ hc => apply ih htail hc

/-- The element before an element that is not the first leads on to it. -/
theorem next_prev (hc : c ∈ L) (hne : x ≠ c) :
  next (prev c) = c
  := by
  induction L generalizing p x with
  | nil => cases hc
  | cons y ys ih =>
    obtain ⟨rfl, hx, hp, htail⟩ := h
    cases hc with
    | head => exact absurd rfl hne
    | tail _ hc =>
      by_cases hfirst : next x = c
      · obtain ⟨_, hprev⟩ | ⟨hne', _⟩ := htail.prev_mem hc
        · rw [hprev, hfirst]
        · exact absurd hfirst hne'
      · apply ih htail hc hfirst

end

variable [DecidableEq α]

/-- Inserting an element at the front. -/
theorem cons (h : Linked next prev null p x L) (hcL : c ∉ L) (hc : c ≠ null)
    (hnext : ∀ y ∈ c :: L, next' y = if y = c then x else next y)
    (hprev : ∀ y ∈ c :: L, prev' y = if y = c then p else if y = x then c else prev y) :
  Linked next' prev' null p c (c :: L)
  := by
  refine ⟨rfl, hc, ?_, ?_⟩
  · rw [hprev c List.mem_cons_self, if_pos rfl]
  rw [hnext c List.mem_cons_self, if_pos rfl]
  obtain _ | ⟨y, ys⟩ := L
  · apply h
  have hnodup := h.chain.nodup
  rw [List.nodup_cons] at hnodup
  obtain ⟨rfl, hx, hp, htail⟩ := h
  have hxc : x ≠ c := fun heq => hcL (heq ▸ List.mem_cons_self)
  have hmem : x ∈ c :: x :: ys := List.mem_cons_of_mem c List.mem_cons_self
  refine ⟨rfl, hx, ?_, ?_⟩
  · rw [hprev x hmem, if_neg hxc, if_pos rfl]
  rw [hnext x hmem, if_neg hxc]
  apply htail.congr
  · intro z hz
    have hzc : z ≠ c := fun heq => hcL (heq ▸ List.mem_cons_of_mem x hz)
    rw [hnext z (List.mem_cons_of_mem c (List.mem_cons_of_mem x hz)), if_neg hzc]
  · intro z hz
    have hzc : z ≠ c := fun heq => hcL (heq ▸ List.mem_cons_of_mem x hz)
    have hzx : z ≠ x := fun heq => hnodup.1 (heq ▸ hz)
    rw [hprev z (List.mem_cons_of_mem c (List.mem_cons_of_mem x hz)), if_neg hzc, if_neg hzx]

/-- Removing an element. -/
theorem erase (h : Linked next prev null p x L) (hp : p ∉ L) (hc : c ∈ L)
    (hnext : ∀ y ∈ L, y ≠ c → next' y = if y = prev c then next c else next y)
    (hprev : ∀ y ∈ L, y ≠ c → prev' y = if y = next c then prev c else prev y) :
  Linked next' prev' null p (if x = c then next c else x) (L.erase c)
  := by
  induction L generalizing p x with
  | nil => cases hc
  | cons y ys ih =>
    have hnodup := h.chain.nodup
    rw [List.nodup_cons] at hnodup
    obtain ⟨rfl, hx, hpx, htail⟩ := h
    by_cases hxc : x = c
    · subst hxc
      rw [if_pos rfl, List.erase_cons_head]
      have hne : ∀ z ∈ ys, z ≠ x := fun z hz heq => hnodup.1 (heq ▸ hz)
      have hnep : ∀ z ∈ ys, z ≠ prev x := by
        intro z hz heq
        apply hp
        rw [← hpx, ← heq]
        apply List.mem_cons_of_mem x hz
      obtain _ | ⟨z, zs⟩ := ys
      · apply htail
      have hzs := (List.nodup_cons.mp hnodup.2).1
      obtain ⟨hz, hznull, hzp, htail'⟩ := htail
      refine ⟨hz, hznull, ?_, ?_⟩
      · rw [hprev z (by simp) (hne z List.mem_cons_self), if_pos hz.symm, hpx]
      rw [hnext z (by simp) (hne z List.mem_cons_self), if_neg (hnep z List.mem_cons_self)]
      apply htail'.congr
      · intro w hw
        have hw' := List.mem_cons_of_mem z hw
        rw [hnext w (List.mem_cons_of_mem x hw') (hne w hw'), if_neg (hnep w hw')]
      intro w hw
      have hw' := List.mem_cons_of_mem z hw
      have hwz : w ≠ next x := by
        rw [hz]
        intro heq
        apply hzs
        rw [← heq]
        apply hw
      rw [hprev w (List.mem_cons_of_mem x hw') (hne w hw'), if_neg hwz]
    · have hc' : c ∈ ys := by
        cases hc with
        | head => exact absurd rfl hxc
        | tail _ hc => exact hc
      rw [if_neg hxc, List.erase_cons_tail (by simpa using hxc)]
      have hxnext : x ≠ next c := by
        intro heq
        apply hnodup.1
        rw [heq]
        apply htail.chain.next_mem hc'
        rw [← heq]
        apply hx
      have hlink : next' x = if next x = c then next c else next x := by
        rw [hnext x List.mem_cons_self hxc]
        obtain ⟨hfirst, hback⟩ | ⟨hfirst, hback⟩ := htail.prev_mem hc'
        · rw [if_pos hfirst, if_pos hback.symm]
        rw [if_neg hfirst, if_neg]
        intro heq
        apply hnodup.1
        rw [heq]
        apply hback
      refine ⟨rfl, hx, ?_, ?_⟩
      · rw [hprev x List.mem_cons_self hxc, if_neg hxnext, hpx]
      rw [hlink]
      apply ih htail hnodup.1 hc'
      · intro z hz hzc
        apply hnext z (List.mem_cons_of_mem x hz) hzc
      · intro z hz hzc
        apply hprev z (List.mem_cons_of_mem x hz) hzc

end Linked
