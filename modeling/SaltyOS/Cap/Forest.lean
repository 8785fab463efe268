import SaltyOS.Lib.Chain
import SaltyOS.Cap.Slot

/-!
# The derivation tree as a forest

The derivation tree is stored in four links per slot. `Forest` says that they represent a forest in
which `children` lists the children of every slot in order. We show that taking out a leaf and
inserting a leaf represent the expected changes of the lists, and that a represented forest is well
formed in terms of its links.
-/

namespace SaltyOS

open Function Relation Kernel

/-! ## The links after an update -/

section Links

variable (k : Kernel) (s t parent child : CapSlot)

/-- One slot changes. -/
theorem slotMeta_setMeta {f : CapSlotMeta → CapSlotMeta} :
  (k.setMeta s f).slotMeta t = if t = s then f (k.slotMeta s) else k.slotMeta t
  := by
  simp only [setMeta, update_apply]

theorem slotMeta_ite {c : Prop} [Decidable c] {k' : Kernel} :
  (if c then k else k').slotMeta t = if c then k.slotMeta t else k'.slotMeta t
  := by
  split <;> rfl

/-- The slot has no parent any more. -/
theorem remove_cdtParent :
  ((k.remove s).slotMeta t).cdtParent = if t = s then invalidSlot else (k.slotMeta t).cdtParent
  := by
  simp only [remove, clearLinks, slotMeta_setMeta, slotMeta_ite]
  grind

/-- The parent of a first child gets the next one. -/
theorem remove_cdtFirstChild :
  ((k.remove s).slotMeta t).cdtFirstChild =
    if t = s then invalidSlot
    else if t = (k.slotMeta s).cdtParent ∧ t ≠ invalidSlot ∧ (k.slotMeta s).cdtPrev = invalidSlot
      then (k.slotMeta s).cdtNext
    else (k.slotMeta t).cdtFirstChild
  := by
  simp only [remove, clearLinks, slotMeta_setMeta, slotMeta_ite]
  grind

/-- The previous sibling gets the next one. -/
theorem remove_cdtNext :
  ((k.remove s).slotMeta t).cdtNext =
    if t = s then invalidSlot
    else if t = (k.slotMeta s).cdtPrev ∧ t ≠ invalidSlot then (k.slotMeta s).cdtNext
    else (k.slotMeta t).cdtNext
  := by
  simp only [remove, clearLinks, slotMeta_setMeta, slotMeta_ite]
  grind

/-- The next sibling gets the previous one. -/
theorem remove_cdtPrev :
  ((k.remove s).slotMeta t).cdtPrev =
    if t = s then invalidSlot
    else if t = (k.slotMeta s).cdtNext ∧ t ≠ invalidSlot then (k.slotMeta s).cdtPrev
    else (k.slotMeta t).cdtPrev
  := by
  simp only [remove, clearLinks, slotMeta_setMeta, slotMeta_ite]
  grind

theorem remove_state :
  ((k.remove s).slotMeta t).state = (k.slotMeta t).state
  := by
  simp only [remove, clearLinks, slotMeta_setMeta, slotMeta_ite]
  grind

/-- The child gets its parent. -/
theorem insertChild_cdtParent :
  ((k.insertChild parent child).slotMeta t).cdtParent =
    if t = child then parent else (k.slotMeta t).cdtParent
  := by
  simp only [insertChild, slotMeta_setMeta, slotMeta_ite]
  grind

/-- The child becomes the first one. -/
theorem insertChild_cdtFirstChild :
  ((k.insertChild parent child).slotMeta t).cdtFirstChild =
    if t = parent then child else (k.slotMeta t).cdtFirstChild
  := by
  simp only [insertChild, slotMeta_setMeta, slotMeta_ite]
  grind

/-- The former first child follows it. -/
theorem insertChild_cdtNext :
  ((k.insertChild parent child).slotMeta t).cdtNext =
    if t = child then (k.slotMeta parent).cdtFirstChild else (k.slotMeta t).cdtNext
  := by
  simp only [insertChild, slotMeta_setMeta, slotMeta_ite]
  grind

/-- The former first child gets the new one before it. -/
theorem insertChild_cdtPrev (hne : (k.slotMeta parent).cdtFirstChild ≠ child) :
  ((k.insertChild parent child).slotMeta t).cdtPrev =
    if t = child then invalidSlot
    else if t = (k.slotMeta parent).cdtFirstChild ∧ t ≠ invalidSlot then child
    else (k.slotMeta t).cdtPrev
  := by
  simp only [insertChild, slotMeta_setMeta, slotMeta_ite]
  grind

theorem insertChild_state :
  ((k.insertChild parent child).slotMeta t).state = (k.slotMeta t).state
  := by
  simp only [insertChild, slotMeta_setMeta, slotMeta_ite]
  grind

end Links

/-! ## Forests -/

/-- The slot has no links in the derivation tree. -/
structure Kernel.Isolated (k : Kernel) (s : CapSlot) : Prop where
  parent : (k.slotMeta s).cdtParent = invalidSlot
  firstChild : (k.slotMeta s).cdtFirstChild = invalidSlot
  next : (k.slotMeta s).cdtNext = invalidSlot
  prev : (k.slotMeta s).cdtPrev = invalidSlot

/-- The links of a slot in the derivation tree. -/
def CapSlotMeta.links (m : CapSlotMeta) : CapSlot × CapSlot × CapSlot × CapSlot :=
  (m.cdtParent, m.cdtFirstChild, m.cdtNext, m.cdtPrev)

/-- An isolated slot has the links of a free one. -/
theorem Kernel.isolated_iff {k : Kernel} {s : CapSlot} :
  k.Isolated s ↔ (k.slotMeta s).links = CapSlotMeta.free.links
  := by
  simp only [CapSlotMeta.links, Prod.mk.injEq]
  exact ⟨fun ⟨h₁, h₂, h₃, h₄⟩ => ⟨h₁, h₂, h₃, h₄⟩, fun ⟨h₁, h₂, h₃, h₄⟩ => ⟨h₁, h₂, h₃, h₄⟩⟩

theorem Kernel.Isolated.of_links {k k' : Kernel} {s : CapSlot} (h : k.Isolated s)
    (hlinks : (k'.slotMeta s).links = (k.slotMeta s).links) :
  k'.Isolated s
  := isolated_iff.mpr (hlinks.trans (isolated_iff.mp h))

/-- The links represent a forest: `children` gives the children of every slot, and the rank of a
child is above that of its parent. -/
structure Forest (children : CapSlot → List CapSlot) (rank : CapSlot → ℕ) (k : Kernel) : Prop where
  linked : ∀ p, Linked (fun s => (k.slotMeta s).cdtNext) (fun s => (k.slotMeta s).cdtPrev)
    invalidSlot invalidSlot (k.slotMeta p).cdtFirstChild (children p)
  mem_iff : ∀ p c, c ∈ children p ↔ (k.slotMeta c).cdtParent = p ∧ p ≠ invalidSlot
  root : ∀ c, (k.slotMeta c).cdtParent = invalidSlot →
    (k.slotMeta c).cdtNext = invalidSlot ∧ (k.slotMeta c).cdtPrev = invalidSlot
  free : ∀ s, (k.slotMeta s).state = .free → k.Isolated s
  invalid : k.Isolated invalidSlot
  rank_lt : ∀ c, (k.slotMeta c).cdtParent ≠ invalidSlot → rank (k.slotMeta c).cdtParent < rank c

namespace Forest

variable {children : CapSlot → List CapSlot} {rank : CapSlot → ℕ} {k k' : Kernel}

section Facts

variable (h : Forest children rank k) {p c s : CapSlot}

include h

theorem ne_invalidSlot (hc : c ∈ children p) :
  c ≠ invalidSlot
  := (h.linked p).chain.ne_null hc

/-- A slot without a first child has no children. -/
theorem children_eq_nil (hp : (k.slotMeta p).cdtFirstChild = invalidSlot) :
  children p = []
  := by
  have hlinked := h.linked p
  rw [hp] at hlinked
  cases hchildren : children p with
  | nil => rfl
  | cons c cs =>
    rw [hchildren] at hlinked
    exact absurd hlinked.1.symm hlinked.2.1

theorem firstChild_mem (hp : (k.slotMeta p).cdtFirstChild ≠ invalidSlot) :
  (k.slotMeta p).cdtFirstChild ∈ children p
  := by
  rw [(h.linked p).chain.mem_iff_follows]
  apply Follows.start hp

/-- Only slots in use have links. -/
theorem occupied_of_not_isolated (hs : ¬ k.Isolated s) :
  (k.slotMeta s).state = .occupied
  := by
  cases hstate : (k.slotMeta s).state with
  | free => exact absurd (h.free s hstate) hs
  | occupied => rfl

/-- An isolated slot is nobody's child. -/
theorem notMem_of_isolated (hc : k.Isolated c) (q : CapSlot) :
  c ∉ children q
  := by
  intro hmem
  obtain ⟨hparent, hq⟩ := (h.mem_iff q c).mp hmem
  apply hq
  rw [← hparent, hc.parent]

theorem occupied_child (hc : c ∈ children p) :
  (k.slotMeta c).state = .occupied
  := by
  apply h.occupied_of_not_isolated
  intro hisolated
  apply h.notMem_of_isolated hisolated p hc

theorem occupied_parent (hc : c ∈ children p) :
  (k.slotMeta p).state = .occupied
  := by
  apply h.occupied_of_not_isolated
  intro hisolated
  rw [h.children_eq_nil hisolated.firstChild] at hc
  cases hc

/-- A slot without parent and children has no links at all. -/
theorem isolated (hparent : (k.slotMeta s).cdtParent = invalidSlot)
    (hchild : (k.slotMeta s).cdtFirstChild = invalidSlot) :
  k.Isolated s
  := ⟨hparent, hchild, (h.root s hparent).1, (h.root s hparent).2⟩

/-- The neighbours of a child are children of the same parent. -/
theorem next_mem (hc : c ∈ children p) (hne : (k.slotMeta c).cdtNext ≠ invalidSlot) :
  (k.slotMeta c).cdtNext ∈ children p
  := (h.linked p).chain.next_mem hc hne

theorem prev_mem (hc : c ∈ children p) (hne : (k.slotMeta c).cdtPrev ≠ invalidSlot) :
  (k.slotMeta c).cdtPrev ∈ children p
  := by
  obtain ⟨_, hprev⟩ | ⟨_, hprev⟩ := (h.linked p).prev_mem hc
  · exact absurd hprev hne
  · apply hprev

/-- The lists of children are disjoint. -/
theorem parent_unique {q : CapSlot} (hp : c ∈ children p) (hq : c ∈ children q) :
  p = q
  := by
  rw [← ((h.mem_iff p c).mp hp).1, ← ((h.mem_iff q c).mp hq).1]

end Facts

/-- Links that have not changed represent the same forest. Isolated slots may be allocated and
freed. -/
theorem of_links (h : Forest children rank k)
    (hlinks : ∀ s, (k'.slotMeta s).links = (k.slotMeta s).links)
    (hstate : ∀ s, (k'.slotMeta s).state = .free → (k.slotMeta s).state = .free ∨ k.Isolated s) :
  Forest children rank k'
  := by
  have hfields : ∀ s, (k'.slotMeta s).cdtParent = (k.slotMeta s).cdtParent ∧
      (k'.slotMeta s).cdtFirstChild = (k.slotMeta s).cdtFirstChild ∧
      (k'.slotMeta s).cdtNext = (k.slotMeta s).cdtNext ∧
      (k'.slotMeta s).cdtPrev = (k.slotMeta s).cdtPrev := by
    intro s
    simpa only [CapSlotMeta.links, Prod.mk.injEq] using hlinks s
  constructor
  · intro p
    simp only [hfields]
    apply h.linked p
  · intro p c
    simp only [hfields]
    apply h.mem_iff p c
  · intro c
    simp only [hfields]
    apply h.root c
  · intro s hs
    apply Kernel.Isolated.of_links _ (hlinks s)
    obtain hfree | hiso := hstate s hs
    · apply h.free s hfree
    · apply hiso
  · apply h.invalid.of_links (hlinks _)
  · intro c
    simp only [hfields]
    apply h.rank_lt c

/-- Only the metadata of the slots matters. -/
theorem of_slotMeta (h : Forest children rank k) (heq : k'.slotMeta = k.slotMeta) :
  Forest children rank k'
  := by
  apply h.of_links <;> intro s <;> rw [heq]
  apply Or.inl

/-! ## Taking out a leaf -/

section Remove

variable {p s : CapSlot}

/-- Taking out a slot without parent and children changes no links. -/
theorem links_remove (hs : k.Isolated s) (t : CapSlot) :
  ((k.remove s).slotMeta t).links = (k.slotMeta t).links
  := by
  obtain ⟨hparent, hchild, hnext, hprev⟩ := hs
  simp only [CapSlotMeta.links, remove_cdtParent, remove_cdtFirstChild, remove_cdtNext, remove_cdtPrev,
    hparent, hnext, hprev]
  by_cases hts : t = s
  · simp [hts, hparent, hchild, hnext, hprev]
  · grind

/-- Taking out an isolated slot changes nothing. -/
theorem remove_isolated (h : Forest children rank k) (hs : k.Isolated s) :
  Forest children rank (k.remove s)
  := by
  apply h.of_links (links_remove hs)
  intro t ht
  rw [remove_state] at ht
  left
  apply ht

section

variable (h : Forest children rank k) (hs : s ∈ children p)
include h hs

/-- The links of the children of the parent after a leaf has been taken out. -/
theorem linked_remove :
  Linked (fun t => ((k.remove s).slotMeta t).cdtNext) (fun t => ((k.remove s).slotMeta t).cdtPrev)
    invalidSlot invalidSlot ((k.remove s).slotMeta p).cdtFirstChild ((children p).erase s)
  := by
  obtain ⟨hparent, hp⟩ := (h.mem_iff p s).mp hs
  have hps : p ≠ s := by
    intro heq
    have hrank := h.rank_lt s (hparent ▸ hp)
    rw [hparent, heq] at hrank
    exact absurd hrank (lt_irrefl _)
  have hfirst : ((k.remove s).slotMeta p).cdtFirstChild =
      if (k.slotMeta p).cdtFirstChild = s then (k.slotMeta s).cdtNext
      else (k.slotMeta p).cdtFirstChild := by
    rw [remove_cdtFirstChild, if_neg hps]
    obtain ⟨hfirst, hprev⟩ | ⟨hfirst, hprev⟩ := (h.linked p).prev_mem hs
    · rw [if_pos ⟨hparent.symm, hp, hprev⟩, if_pos hfirst]
    rw [if_neg hfirst, if_neg]
    rintro ⟨_, _, hinvalid⟩
    rw [hinvalid] at hprev
    apply h.ne_invalidSlot hprev rfl
  rw [hfirst]
  apply (h.linked p).erase _ hs
  · intro t ht hts
    rw [remove_cdtNext, if_neg hts]
    simp only [h.ne_invalidSlot ht, ne_eq, not_false_eq_true, and_true]
  · intro t ht hts
    rw [remove_cdtPrev, if_neg hts]
    simp only [h.ne_invalidSlot ht, ne_eq, not_false_eq_true, and_true]
  · intro hmem
    apply h.ne_invalidSlot hmem rfl

/-- The links of a slot that is neither in the list of the leaf nor its parent stay the same. -/
theorem remove_other {t : CapSlot} (ht : t ∉ children p) :
  ((k.remove s).slotMeta t).cdtNext = (k.slotMeta t).cdtNext ∧
    ((k.remove s).slotMeta t).cdtPrev = (k.slotMeta t).cdtPrev ∧
    ((k.remove s).slotMeta t).cdtParent = (k.slotMeta t).cdtParent
  := by
  have hts : t ≠ s := by
    rintro rfl
    apply ht hs
  refine ⟨?_, ?_, ?_⟩
  · rw [remove_cdtNext, if_neg hts, if_neg]
    rintro ⟨rfl, hne⟩
    apply ht (h.prev_mem hs hne)
  · rw [remove_cdtPrev, if_neg hts, if_neg]
    rintro ⟨rfl, hne⟩
    apply ht (h.next_mem hs hne)
  · rw [remove_cdtParent, if_neg hts]

theorem remove_firstChild_other (hleaf : (k.slotMeta s).cdtFirstChild = invalidSlot) {t : CapSlot}
    (ht : t ≠ p) :
  ((k.remove s).slotMeta t).cdtFirstChild = (k.slotMeta t).cdtFirstChild
  := by
  obtain ⟨hparent, _⟩ := (h.mem_iff p s).mp hs
  rw [remove_cdtFirstChild]
  split
  · rename_i hts
    rw [hts, hleaf]
  rw [if_neg]
  rintro ⟨htp, _⟩
  apply ht
  rw [htp, hparent]

end

/-- The slot itself has no links after it has been taken out. -/
theorem isolated_remove_self (k : Kernel) (s : CapSlot) :
  (k.remove s).Isolated s
  := by
  constructor
  · rw [remove_cdtParent, if_pos rfl]
  · rw [remove_cdtFirstChild, if_pos rfl]
  · rw [remove_cdtNext, if_pos rfl]
  · rw [remove_cdtPrev, if_pos rfl]

/-- Slots without links do not get any when a leaf is taken out. -/
theorem isolated_remove (h : Forest children rank k)
    (hleaf : (k.slotMeta s).cdtFirstChild = invalidSlot) {t : CapSlot} (ht : k.Isolated t) :
  (k.remove s).Isolated t
  := by
  by_cases hts : t = s
  · rw [hts]
    apply isolated_remove_self
  by_cases hroot : (k.slotMeta s).cdtParent = invalidSlot
  · apply ht.of_links (links_remove (h.isolated hroot hleaf) t)
  have hs := (h.mem_iff _ s).mpr ⟨rfl, hroot⟩
  obtain ⟨hnext, hprev, hparent⟩ := h.remove_other hs (h.notMem_of_isolated ht _)
  have htp : t ≠ (k.slotMeta s).cdtParent := by
    intro heq
    rw [← heq, h.children_eq_nil ht.firstChild] at hs
    cases hs
  constructor
  · rw [hparent, ht.parent]
  · rw [h.remove_firstChild_other hs hleaf htp, ht.firstChild]
  · rw [hnext, ht.next]
  · rw [hprev, ht.prev]

/-- Taking out a child without children of its own. -/
theorem remove_child (h : Forest children rank k) (hs : s ∈ children p)
    (hleaf : (k.slotMeta s).cdtFirstChild = invalidSlot) :
  Forest (update children p ((children p).erase s)) rank (k.remove s)
  := by
  obtain ⟨hparent, hp⟩ := (h.mem_iff p s).mp hs
  have hnodup := (h.linked p).chain.nodup
  constructor
  · intro q
    by_cases hq : q = p
    · subst hq
      rw [update_self]
      apply h.linked_remove hs
    rw [update_of_ne hq, h.remove_firstChild_other hs hleaf hq]
    have hother : ∀ t ∈ children q, t ∉ children p := by
      intro t ht htp
      apply hq (h.parent_unique ht htp)
    apply (h.linked q).congr
    · intro t ht
      apply (h.remove_other hs (hother t ht)).1
    · intro t ht
      apply (h.remove_other hs (hother t ht)).2.1
  · intro q c
    rw [remove_cdtParent]
    by_cases hq : q = p
    · subst hq
      rw [update_self, hnodup.mem_erase_iff, h.mem_iff]
      grind
    · rw [update_of_ne hq, h.mem_iff]
      grind
  · intro c hc
    by_cases hmem : c ∈ children p
    · rw [remove_cdtParent] at hc
      have hcs : c = s := by
        by_contra hcs
        rw [if_neg hcs, ((h.mem_iff p c).mp hmem).1] at hc
        apply hp hc
      rw [remove_cdtNext, remove_cdtPrev, if_pos hcs, if_pos hcs]
      exact ⟨rfl, rfl⟩
    · obtain ⟨hnext, hprev, hpar⟩ := h.remove_other hs hmem
      rw [hpar] at hc
      rw [hnext, hprev]
      apply h.root c hc
  · intro t ht
    rw [remove_state] at ht
    apply h.isolated_remove hleaf (h.free t ht)
  · apply h.isolated_remove hleaf h.invalid
  · intro c hc
    rw [remove_cdtParent] at hc ⊢
    split_ifs with hcs
    · rw [if_pos hcs] at hc
      exact absurd rfl hc
    · rw [if_neg hcs] at hc
      apply h.rank_lt c hc

/-- Taking out a slot without children. -/
theorem remove (h : Forest children rank k) (hleaf : (k.slotMeta s).cdtFirstChild = invalidSlot) :
  ∃ children', Forest children' rank (k.remove s)
  := by
  by_cases hparent : (k.slotMeta s).cdtParent = invalidSlot
  · exact ⟨children, h.remove_isolated (h.isolated hparent hleaf)⟩
  · exact ⟨_, h.remove_child ((h.mem_iff _ s).mpr ⟨rfl, hparent⟩) hleaf⟩

end Remove

/-! ## Inserting a leaf -/

section Insert

variable {p c : CapSlot}

section

variable (h : Forest children rank k) (hc : k.Isolated c)
include h hc

/-- A slot without links is not the first child of another one. -/
theorem firstChild_ne (hne : c ≠ invalidSlot) (q : CapSlot) :
  (k.slotMeta q).cdtFirstChild ≠ c
  := by
  rintro rfl
  apply h.notMem_of_isolated hc q (h.firstChild_mem hne)

/-- Slots without links do not get any when another slot is inserted. -/
theorem isolated_insertChild (hcne : c ≠ invalidSlot) {t : CapSlot} (ht : k.Isolated t)
    (htc : t ≠ c) (htp : t ≠ p) :
  (k.insertChild p c).Isolated t
  := by
  constructor
  · rw [insertChild_cdtParent, if_neg htc, ht.parent]
  · rw [insertChild_cdtFirstChild, if_neg htp, ht.firstChild]
  · rw [insertChild_cdtNext, if_neg htc, ht.next]
  · rw [insertChild_cdtPrev _ _ _ _ (h.firstChild_ne hc hcne p), if_neg htc, if_neg, ht.prev]
    rintro ⟨rfl, hne⟩
    apply h.firstChild_ne ht hne p rfl

/-- Inserting an isolated slot as a child of another slot. -/
theorem insertChild (hoccupied : (k.slotMeta c).state = .occupied)
    (hp : (k.slotMeta p).state = .occupied) (hpc : p ≠ c) (hcne : c ≠ invalidSlot)
    (hpne : p ≠ invalidSlot) :
  Forest (update children p (c :: children p)) (update rank c (rank p + 1)) (k.insertChild p c)
  := by
  have hnotMem := h.notMem_of_isolated hc
  have hne := h.firstChild_ne hc hcne p
  have hfirst : ∀ q t, t = (k.slotMeta q).cdtFirstChild → t ≠ invalidSlot → t ∈ children q := by
    rintro q t rfl ht
    apply h.firstChild_mem ht
  constructor
  · intro q
    rw [insertChild_cdtFirstChild]
    by_cases hq : q = p
    · subst hq
      rw [if_pos rfl, update_self]
      apply (h.linked q).cons (hnotMem q) hcne
      · intro t _
        rw [insertChild_cdtNext]
      intro t ht
      rw [insertChild_cdtPrev _ _ _ _ hne]
      obtain rfl | ht := List.mem_cons.mp ht
      · rw [if_pos rfl, if_pos rfl]
      · simp only [h.ne_invalidSlot ht, ne_eq, not_false_eq_true, and_true]
    · rw [if_neg hq, update_of_ne hq]
      have htc : ∀ t ∈ children q, t ≠ c := by
        rintro t ht rfl
        apply hnotMem q ht
      apply (h.linked q).congr
      · intro t ht
        rw [insertChild_cdtNext, if_neg (htc t ht)]
      intro t ht
      rw [insertChild_cdtPrev _ _ _ _ hne, if_neg (htc t ht), if_neg]
      rintro ⟨heq, htne⟩
      apply hq (h.parent_unique ht (hfirst p t heq htne))
  · intro q t
    rw [insertChild_cdtParent]
    by_cases hq : q = p
    · subst hq
      rw [update_self, List.mem_cons, h.mem_iff]
      grind
    · rw [update_of_ne hq, h.mem_iff]
      have hparent := hc.parent
      grind
  · intro t ht
    rw [insertChild_cdtParent] at ht
    split_ifs at ht with htc
    · exact absurd ht hpne
    obtain ⟨hnext, hprev⟩ := h.root t ht
    rw [insertChild_cdtNext, insertChild_cdtPrev _ _ _ _ hne, if_neg htc, if_neg htc, if_neg]
    · exact ⟨hnext, hprev⟩
    · rintro ⟨heq, htne⟩
      apply hpne
      rw [← ((h.mem_iff p t).mp (hfirst p t heq htne)).1, ht]
  · intro t ht
    rw [insertChild_state] at ht
    apply h.isolated_insertChild hc hcne (h.free t ht)
    · rintro rfl
      rw [hoccupied] at ht
      cases ht
    · rintro rfl
      rw [hp] at ht
      cases ht
  · apply h.isolated_insertChild hc hcne h.invalid hcne.symm hpne.symm
  · intro t ht
    rw [insertChild_cdtParent] at ht ⊢
    split_ifs with htc
    · rw [htc, update_self, update_of_ne hpc]
      apply Nat.lt_succ_self
    rw [if_neg htc] at ht
    have hparent : (k.slotMeta t).cdtParent ≠ c := by
      intro heq
      have hmem := (h.mem_iff c t).mpr ⟨heq, hcne⟩
      rw [h.children_eq_nil hc.firstChild] at hmem
      cases hmem
    rw [update_of_ne htc, update_of_ne hparent]
    apply h.rank_lt t ht

end

end Insert

end Forest

/-! ## Well-formed links -/

/-- The derivation tree is a forest in terms of its links: links lead to occupied slots, the children
of a slot that are reached by following links are the slots whose parent it is, `prev` is the inverse
of `next`, and there is no cycle. -/
structure CdtWellFormed (k : Kernel) : Prop where
  parent : ∀ s, (k.slotMeta s).cdtParent ≠ invalidSlot →
    (k.slotMeta (k.slotMeta s).cdtParent).state = .occupied
  firstChild : ∀ s, (k.slotMeta s).cdtFirstChild ≠ invalidSlot →
    (k.slotMeta (k.slotMeta s).cdtFirstChild).state = .occupied
  next : ∀ s, (k.slotMeta s).cdtNext ≠ invalidSlot →
    (k.slotMeta (k.slotMeta s).cdtNext).state = .occupied
  prev : ∀ s, (k.slotMeta s).cdtPrev ≠ invalidSlot →
    (k.slotMeta (k.slotMeta s).cdtPrev).state = .occupied
  children : ∀ p c, p ≠ invalidSlot →
    (Follows (fun s => (k.slotMeta s).cdtNext) invalidSlot (k.slotMeta p).cdtFirstChild c ↔
      (k.slotMeta c).cdtParent = p)
  prev_next : ∀ s, (k.slotMeta s).cdtNext ≠ invalidSlot →
    (k.slotMeta (k.slotMeta s).cdtNext).cdtPrev = s
  next_prev : ∀ s, (k.slotMeta s).cdtPrev ≠ invalidSlot →
    (k.slotMeta (k.slotMeta s).cdtPrev).cdtNext = s
  parent_acyclic : ∀ s, ¬ TransGen (fun a b => b ≠ invalidSlot ∧ (k.slotMeta a).cdtParent = b) s s
  next_acyclic : ∀ s, ¬ TransGen (fun a b => b ≠ invalidSlot ∧ (k.slotMeta a).cdtNext = b) s s

namespace Forest

variable {children : CapSlot → List CapSlot} {rank : CapSlot → ℕ} {k : Kernel}
variable (h : Forest children rank k) {s : CapSlot}

include h

/-- A slot with a next sibling is a child. -/
theorem mem_of_next (hs : (k.slotMeta s).cdtNext ≠ invalidSlot) :
  s ∈ children (k.slotMeta s).cdtParent
  := by
  rw [h.mem_iff]
  use rfl
  intro hroot
  apply hs (h.root s hroot).1

theorem mem_of_prev (hs : (k.slotMeta s).cdtPrev ≠ invalidSlot) :
  s ∈ children (k.slotMeta s).cdtParent
  := by
  rw [h.mem_iff]
  use rfl
  intro hroot
  apply hs (h.root s hroot).2

/-- A slot has a larger rank than the slots above it. -/
theorem rank_lt_of_above {t : CapSlot}
    (hst : TransGen (fun a b => b ≠ invalidSlot ∧ (k.slotMeta a).cdtParent = b) s t) :
  rank t < rank s
  := by
  induction hst with
  | single hab =>
    obtain ⟨hne, rfl⟩ := hab
    apply h.rank_lt s hne
  | tail _ hab ih =>
    obtain ⟨hne, rfl⟩ := hab
    apply lt_trans (h.rank_lt _ hne) ih

/-- A represented forest is well formed. -/
theorem wellFormed :
  CdtWellFormed k
  := by
  constructor
  · intro s hs
    apply h.occupied_parent ((h.mem_iff _ s).mpr ⟨rfl, hs⟩)
  · intro s hs
    apply h.occupied_child (h.firstChild_mem hs)
  · intro s hs
    apply h.occupied_child (h.next_mem (h.mem_of_next hs) hs)
  · intro s hs
    apply h.occupied_child (h.prev_mem (h.mem_of_prev hs) hs)
  · intro p c hp
    rw [← (h.linked p).chain.mem_iff_follows, h.mem_iff]
    simp only [hp, ne_eq, not_false_eq_true, and_true]
  · intro s hs
    apply (h.linked _).prev_next (h.mem_of_next hs) hs
  · intro s hs
    have hmem := h.mem_of_prev hs
    apply (h.linked _).next_prev hmem
    obtain ⟨_, hprev⟩ | ⟨hne, _⟩ := (h.linked _).prev_mem hmem
    · exact absurd hprev hs
    · apply hne
  · intro s hs
    exact absurd (h.rank_lt_of_above hs) (lt_irrefl _)
  · intro s hs
    have hne : (k.slotMeta s).cdtNext ≠ invalidSlot := by
      obtain ⟨b, ⟨hb, heq⟩, _⟩ := TransGen.head'_iff.mp hs
      rw [heq]
      apply hb
    apply (h.linked _).chain.not_transGen (h.mem_of_next hne) hs

end Forest

end SaltyOS
