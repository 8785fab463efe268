import SaltyOS.Lib.Chain
import SaltyOS.Cap.Footprint

/-!
# The tree of memory objects

A copy-on-write child of a memory object holds a capability to its parent in a private slot, and the
children of an object are on a list. Destroying a memory object detaches it from its parent, which
may destroy the parent as well or give the parent's own private slot to the only child left. The
file shows that this keeps the private slots apart from all other slots, and that no slot is freed
other than the private slots.

The lists of children may keep objects that have been destroyed: an intermediate object that loses
its private slot is not taken from the list of its own parent. The invariant therefore only says that
what is on the list of an object has a larger rank.
-/

namespace SaltyOS

open Kernel

namespace Kernel

variable (k : Kernel)

/-- The parent of a memory object. -/
def cowParentOf (m : ObjPtr) : ObjPtr := (k.cap (k.mo m).cowParent).object

/-- A memory object is on the list of children of another one. -/
def OnList (p x : ObjPtr) : Prop :=
  Follows (fun m => (k.mo m).nextSibling) .null (k.mo p).firstChild x

/-- The slot is the private slot of a memory object. -/
def CowSlot (s : CapSlot) : Prop := ∃ m, (k.mo m).cowParent = s ∧ s ≠ 0

end Kernel

/-- The private slots of the memory objects are occupied, distinct and not referred to by any
capability node. Parents have a smaller rank than their children, and so has an object compared with
those on its list of children. No object is on two lists. -/
structure CowTree (r : ObjPtr → ℕ) (k : Kernel) : Prop where
  occupied : ∀ m, (k.mo m).cowParent ≠ 0 → (k.slotMeta (k.mo m).cowParent).state = .occupied
  unique : ∀ m m', (k.mo m).cowParent ≠ 0 → (k.mo m).cowParent = (k.mo m').cowParent → m = m'
  unreferenced : ∀ m p i, (k.mo m).cowParent ≠ 0 → (k.cnode p).slots i ≠ (k.mo m).cowParent
  parent : ∀ m, (k.mo m).cowParent ≠ 0 → k.cowParentOf m ≠ .null ∧ r (k.cowParentOf m) < r m
  below : ∀ p x, k.OnList p x → r p < r x
  disjoint : ∀ p q x, k.OnList p x → k.OnList q x → p = q

/-- What the destruction of memory objects leaves alone. Only private slots are freed. -/
structure MoFrame (k k' : Kernel) : Prop where
  cap : k'.cap = k.cap
  cnode : k'.cnode = k.cnode
  numSlots : k'.numSlots = k.numSlots
  objType : ∀ p, (k'.header p).objType = (k.header p).objType
  sizeBits : ∀ p, (k'.header p).sizeBits = (k.header p).sizeBits
  live : ∀ p, k'.live p = true → k.live p = true
  nextSlot : k'.nextSlot ≤ k.nextSlot
  cowSlot : ∀ s, k'.CowSlot s → k.CowSlot s
  slot : ∀ s, (k'.slotMeta s = k.slotMeta s ∧ k'.bitmap s = k.bitmap s) ∨
    (k.CowSlot s ∧ k'.slotMeta s = CapSlotMeta.free ∧ k'.bitmap s = false)

instance : IsPreorder Kernel MoFrame where
  refl k := by
    use rfl, rfl, rfl, fun _ => rfl, fun _ => rfl, fun _ => id, le_rfl, fun _ => id
    intro s
    left
    exact ⟨rfl, rfl⟩
  trans k₁ k₂ k₃ h h' := by
    constructor
    · rw [h'.cap, h.cap]
    · rw [h'.cnode, h.cnode]
    · rw [h'.numSlots, h.numSlots]
    · intro p
      rw [h'.objType, h.objType]
    · intro p
      rw [h'.sizeBits, h.sizeBits]
    · intro p hp
      apply h.live p (h'.live p hp)
    · apply h'.nextSlot.trans h.nextSlot
    · intro s hs
      apply h.cowSlot s (h'.cowSlot s hs)
    · intro s
      obtain ⟨hmeta', hbit'⟩ | ⟨hcow', hfree'⟩ := h'.slot s
      · rw [hmeta', hbit']
        apply h.slot s
      · right
        exact ⟨h.cowSlot s hcow', hfree'⟩

/-- The links of the derivation tree and the child lists of untyped regions may change, and so may
nothing else. -/
theorem MoFrame.of_sameRefs {k k' : Kernel} (h : SameRefs k k') :
  MoFrame k k'
  := by
  refine ⟨h.cap, h.cnode, h.numSlots, h.objType, h.sizeBits, h.live, le_of_eq h.nextSlot, ?_, ?_⟩
  · rintro s ⟨m, hm, hs⟩
    use m
    rw [← h.cowParent m]
    exact ⟨hm, hs⟩
  · intro s
    left
    rw [h.slotMeta, h.bitmap]
    exact ⟨rfl, rfl⟩

/-! ## Editing the lists of children -/

section Lists

variable {r : ObjPtr → ℕ} {k k' : Kernel}

theorem SameRefs.cowParentOf (h : SameRefs k k') (m : ObjPtr) :
  k'.cowParentOf m = k.cowParentOf m
  := by
  rw [Kernel.cowParentOf, Kernel.cowParentOf, h.cap, h.cowParent]

/-- Shortening the lists of children keeps the tree. -/
theorem CowTree.of_sameRefs (hk : CowTree r k) (h : SameRefs k k')
    (hlist : ∀ p x, k'.OnList p x → k.OnList p x) :
  CowTree r k'
  := by
  constructor
  · intro m hm
    rw [h.cowParent, h.slotMeta] at *
    apply hk.occupied m hm
  · intro m m' hm heq
    rw [h.cowParent, h.cowParent] at heq
    rw [h.cowParent] at hm
    apply hk.unique m m' hm heq
  · intro m p i hm
    rw [h.cowParent, h.cnode] at *
    apply hk.unreferenced m p i hm
  · intro m hm
    rw [h.cowParent] at hm
    rw [h.cowParentOf]
    apply hk.parent m hm
  · intro p x hx
    apply hk.below p x (hlist p x hx)
  · intro p q x hp hq
    apply hk.disjoint p q x (hlist p x hp) (hlist q x hq)

theorem CowTree.of_sameSlots (hk : CowTree r k) (h : SameSlots k k') :
  CowTree r k'
  := by
  apply hk.of_sameRefs h.toSameRefs
  intro p x hx
  simpa only [Kernel.OnList, h.firstChild, h.nextSibling] using hx

end Lists

/-! ## Writing one memory object -/

section Write

variable {r : ObjPtr → ℕ} {k : Kernel} {obj : ObjPtr} {f : MemoryObject → MemoryObject}

theorem mo_setMo (m : ObjPtr) :
  (k.setMo obj f).mo m = if m = obj then f (k.mo obj) else k.mo m
  := by
  simp only [setMo, Function.update_apply]

theorem SameRefs.setMo (hparent : ∀ m, (f m).cowParent = m.cowParent) :
  SameRefs k (k.setMo obj f)
  := by
  use rfl, rfl, rfl, rfl, rfl, rfl, fun _ => rfl, fun _ => rfl, fun _ => id
  intro p
  rw [mo_setMo]
  split_ifs with h
  · rw [hparent, h]
  · rfl

/-- Writing links that skip objects of the lists keeps the tree. -/
theorem CowTree.shortcut (hk : CowTree r k) (hparent : ∀ m, (f m).cowParent = m.cowParent)
    (hfirst : (f (k.mo obj)).firstChild ≠ .null → k.OnList obj (f (k.mo obj)).firstChild)
    (hnext : obj ≠ .null → (f (k.mo obj)).nextSibling ≠ .null →
      Follows (fun m => (k.mo m).nextSibling) .null obj (f (k.mo obj)).nextSibling) :
  CowTree r (k.setMo obj f)
  := by
  apply hk.of_sameRefs (SameRefs.setMo hparent)
  intro p x
  apply Follows.of_shortcut
  · rw [mo_setMo]
    split_ifs with hp
    · rw [hp]
      apply hfirst
    · apply Follows.start
  · intro w hw
    rw [mo_setMo]
    split_ifs with hp
    · subst hp
      apply hnext hw
    · intro hne
      apply Follows.step w (Follows.start hw) hne

/-- Making a list start at its second object. -/
theorem CowTree.dropFirst {child : ObjPtr} (hk : CowTree r k) (hchild : child ≠ .null)
    (hfirst : (k.mo obj).firstChild = child) :
  CowTree r (k.setMo obj fun m => { m with firstChild := (k.mo child).nextSibling })
  := by
  apply hk.shortcut
  · intro m
    rfl
  · intro hne
    rw [Kernel.OnList, hfirst]
    apply Follows.step child (Follows.start hchild) hne
  · intro hobj hne
    apply Follows.step obj (Follows.start hobj) hne

/-- Making an object skip the object after it. -/
theorem CowTree.skipNext {child : ObjPtr} (hk : CowTree r k) (hchild : child ≠ .null)
    (hnext : (k.mo obj).nextSibling = child) :
  CowTree r (k.setMo obj fun m => { m with nextSibling := (k.mo child).nextSibling })
  := by
  apply hk.shortcut
  · intro m
    rfl
  · apply Follows.start
  intro hobj hne
  have hstep : Follows (fun m => (k.mo m).nextSibling) .null obj child := by
    rw [← hnext]
    apply Follows.step obj (Follows.start hobj)
    rw [hnext]
    apply hchild
  apply Follows.step child hstep hne

/-- Ending a list at an object. -/
theorem CowTree.endAt (hk : CowTree r k) :
  CowTree r (k.setMo obj fun m => { m with nextSibling := .null })
  := by
  apply hk.shortcut
  · intro m
    rfl
  · apply Follows.start
  · intro _ hne
    exact absurd rfl hne

end Write

/-! ## Collapsing an intermediate object -/

section Collapse

variable {r : ObjPtr → ℕ} {k : Kernel} {parent : ObjPtr}

theorem cap_handOver {child : ObjPtr} :
  (k.handOver parent child).cap = k.cap
  := by
  simp only [handOver, setMo]
  split
  · simp only [freeSlot_cap]
  · rfl

theorem mo_handOver {child : ObjPtr} (hne : parent ≠ child) (m : ObjPtr) :
  (k.handOver parent child).mo m =
    if m = child then
      { k.mo child with cowParent := (k.mo parent).cowParent, nextSibling := .null }
    else if m = parent then { k.mo parent with cowParent := 0, firstChild := .null }
    else k.mo m
  := by
  have hfree : ∀ (k' : Kernel) (s : CapSlot), (if s ≠ 0 then k'.freeSlot s else k').mo = k'.mo := by
    intro k' s
    split
    · apply freeSlot_mo
    · rfl
  simp only [handOver, mo_setMo, hfree, if_neg hne, if_neg hne.symm]
  split
  · rfl
  · split <;> rfl

/-- Only the slot that the child had before is freed. -/
theorem slot_handOver {child : ObjPtr} (s : CapSlot) :
  ((k.handOver parent child).slotMeta s = k.slotMeta s ∧
      (k.handOver parent child).bitmap s = k.bitmap s) ∨
    (s = (k.mo child).cowParent ∧ s ≠ 0 ∧ (k.handOver parent child).slotMeta s = CapSlotMeta.free ∧
      (k.handOver parent child).bitmap s = false)
  := by
  simp only [handOver, setMo]
  split_ifs with hold
  · by_cases hs : s = (k.mo child).cowParent
    · subst hs
      obtain hfree | hsame := freeSlot_self _ (k.mo child).cowParent
      · right
        exact ⟨rfl, hold, hfree⟩
      · left
        exact hsame
    · left
      apply freeSlot_of_ne _ _ hs
  · left
    exact ⟨rfl, rfl⟩

theorem nextSlot_handOver {child : ObjPtr} :
  (k.handOver parent child).nextSlot ≤ k.nextSlot
  := by
  simp only [handOver, setMo]
  split
  · apply freeSlot_nextSlot
  · apply le_refl

theorem rest_handOver (k : Kernel) (parent child : ObjPtr) :
  (k.handOver parent child).cnode = k.cnode ∧ (k.handOver parent child).header = k.header ∧
    (k.handOver parent child).live = k.live ∧ (k.handOver parent child).numSlots = k.numSlots
  := by
  simp only [handOver, setMo]
  split
  · simp only [freeSlot_cnode, freeSlot_header, freeSlot_live, freeSlot_numSlots, and_self]
  · exact ⟨rfl, rfl, rfl, rfl⟩

/-- Adopting a memory object only touches memory objects. -/
theorem adopt_eq (k : Kernel) (child : ObjPtr) :
  ∃ mo, k.adopt child = { k with mo }
  := by
  simp only [adopt]
  split <;> exact ⟨_, rfl⟩

/-- What is needed to collapse an intermediate object, with its child and its parent. -/
structure Collapsible (r : ObjPtr → ℕ) (k : Kernel) (parent child grandparent : ObjPtr) : Prop where
  tree : CowTree r k
  cowParent : (k.mo parent).cowParent ≠ 0
  firstChild : (k.mo parent).firstChild = child
  child_ne : child ≠ .null
  grandparent : k.cowParentOf parent = grandparent

namespace Collapsible

variable {child grandparent : ObjPtr} (h : Collapsible r k parent child grandparent)

include h

theorem onList :
  k.OnList parent child
  := by
  rw [Kernel.OnList, h.firstChild]
  apply Follows.start h.child_ne

theorem rank_child :
  r parent < r child
  := h.tree.below parent child h.onList

theorem rank_grandparent :
  r grandparent < r parent
  := h.grandparent ▸ (h.tree.parent parent h.cowParent).2

theorem grandparent_ne :
  grandparent ≠ .null
  := h.grandparent ▸ (h.tree.parent parent h.cowParent).1

theorem parent_ne_child :
  parent ≠ child
  := ne_of_apply_ne r h.rank_child.ne

theorem grandparent_ne_parent :
  grandparent ≠ parent
  := ne_of_apply_ne r h.rank_grandparent.ne

theorem grandparent_ne_child :
  grandparent ≠ child
  := ne_of_apply_ne r (h.rank_grandparent.trans h.rank_child).ne

/-- The memory objects after the collapse. -/
theorem mo_collapse (m : ObjPtr) :
  (k.collapse parent).mo m =
    if m = grandparent then { k.mo grandparent with firstChild := child }
    else if m = child then
      { k.mo child with
        cowParent := (k.mo parent).cowParent, nextSibling := (k.mo grandparent).firstChild }
    else if m = parent then { k.mo parent with cowParent := 0, firstChild := .null }
    else k.mo m
  := by
  have hcap : ((k.handOver parent child).cap (k.mo parent).cowParent).object = grandparent := by
    rw [cap_handOver]
    apply h.grandparent
  have hslot : ((k.handOver parent child).mo child).cowParent = (k.mo parent).cowParent := by
    rw [mo_handOver h.parent_ne_child, if_pos rfl]
  have hadopt : ((k.handOver parent child).mo child).cowParent ≠ 0 ∧
      ((k.handOver parent child).cap ((k.handOver parent child).mo child).cowParent).object ≠
        .null := by
    rw [hslot, hcap]
    exact ⟨h.cowParent, h.grandparent_ne⟩
  rw [collapse, h.firstChild, adopt, if_pos hadopt, hslot, hcap]
  simp only [mo_setMo, mo_handOver h.parent_ne_child, if_neg h.grandparent_ne_child,
    if_neg h.grandparent_ne_parent]
  split
  · rfl
  · split <;> rfl

/-- The private slots after the collapse: the child has the slot of the intermediate object. -/
theorem cowParent_collapse (m : ObjPtr) :
  ((k.collapse parent).mo m).cowParent =
    if m = child then (k.mo parent).cowParent else if m = parent then 0 else (k.mo m).cowParent
  := by
  rw [h.mo_collapse]
  by_cases hgrand : m = grandparent
  · rw [hgrand, if_pos rfl, if_neg h.grandparent_ne_child, if_neg h.grandparent_ne_parent]
  rw [if_neg hgrand]
  split
  · rfl
  · split <;> rfl

theorem firstChild_collapse (m : ObjPtr) :
  ((k.collapse parent).mo m).firstChild =
    if m = grandparent then child else if m = parent then .null else (k.mo m).firstChild
  := by
  rw [h.mo_collapse]
  by_cases hchild : m = child
  · rw [hchild, if_neg h.grandparent_ne_child.symm, if_pos rfl,
      if_neg h.grandparent_ne_child.symm, if_neg h.parent_ne_child.symm]
  split
  · rfl
  · split <;> rfl

theorem nextSibling_collapse (m : ObjPtr) :
  ((k.collapse parent).mo m).nextSibling =
    if m = child then (k.mo grandparent).firstChild else (k.mo m).nextSibling
  := by
  rw [h.mo_collapse]
  by_cases hgrand : m = grandparent
  · rw [hgrand, if_pos rfl, if_neg h.grandparent_ne_child]
  rw [if_neg hgrand]
  split
  · rfl
  split_ifs with hparent
  · rw [hparent]
  · rfl

/-- The lists of children after the collapse. -/
theorem onList_collapse {p x : ObjPtr} (hx : (k.collapse parent).OnList p x) :
  p ≠ parent ∧ (k.OnList p x ∨ (p = grandparent ∧ x = child))
  := by
  have hother : ∀ y, p ≠ parent → k.OnList p y → y ≠ child := by
    intro y hp hy heq
    apply hp
    apply h.tree.disjoint p parent child (heq ▸ hy) h.onList
  induction hx with
  | start hne =>
    rw [h.firstChild_collapse] at hne ⊢
    by_cases hgrand : p = grandparent
    · rw [if_pos hgrand, hgrand]
      exact ⟨h.grandparent_ne_parent, .inr ⟨rfl, rfl⟩⟩
    rw [if_neg hgrand] at hne ⊢
    by_cases hparent : p = parent
    · rw [if_pos hparent] at hne
      exact absurd rfl hne
    · rw [if_neg hparent] at hne ⊢
      exact ⟨hparent, .inl (Follows.start hne)⟩
  | step y _ hne ih =>
    obtain ⟨hparent, hlist⟩ := ih
    use hparent
    left
    rw [h.nextSibling_collapse] at hne ⊢
    obtain hlist | ⟨hp, hy⟩ := hlist
    · have hy := hother y hparent hlist
      rw [if_neg hy] at hne ⊢
      apply Follows.step y hlist hne
    · rw [if_pos hy] at hne ⊢
      rw [hp]
      apply Follows.start hne

/-- Apart from the memory objects, the collapse does what handing over the slot does. -/
theorem collapse_eq :
  ∃ mo, k.collapse parent = { k.handOver parent child with mo }
  := by
  rw [collapse, h.firstChild]
  apply adopt_eq

section

variable {m : ObjPtr} (hm : ((k.collapse parent).mo m).cowParent ≠ 0)
include hm

/-- A private slot after the collapse was one before: the child has the one of the intermediate object,
and the others keep theirs. -/
theorem origin_collapse :
  ∃ m', (k.mo m').cowParent = ((k.collapse parent).mo m).cowParent ∧
    (m' = parent ∧ m = child ∨ m' = m ∧ m ≠ child ∧ m ≠ parent)
  := by
  rw [h.cowParent_collapse] at *
  split_ifs at * with hchild hparent
  · exact ⟨parent, rfl, .inl ⟨rfl, hchild⟩⟩
  · exact absurd rfl hm
  · exact ⟨m, rfl, .inr ⟨rfl, hchild, hparent⟩⟩

/-- The slot that the child had before is no private slot. -/
theorem ne_of_cowParent_collapse :
  ((k.collapse parent).mo m).cowParent ≠ (k.mo child).cowParent
  := by
  obtain ⟨m', hm', horigin⟩ := h.origin_collapse hm
  rw [← hm'] at hm ⊢
  intro heq
  rw [h.tree.unique m' child hm heq] at horigin
  obtain ⟨hparent, -⟩ | ⟨hchild, hne, -⟩ := horigin
  · exact h.parent_ne_child hparent.symm
  · exact hne hchild.symm

end

theorem slot_collapse (s : CapSlot) :
  ((k.collapse parent).slotMeta s = k.slotMeta s ∧ (k.collapse parent).bitmap s = k.bitmap s) ∨
    (s = (k.mo child).cowParent ∧ s ≠ 0 ∧ (k.collapse parent).slotMeta s = CapSlotMeta.free ∧
      (k.collapse parent).bitmap s = false)
  := by
  obtain ⟨mo, heq⟩ := h.collapse_eq
  rw [heq]
  apply slot_handOver

theorem moFrame :
  MoFrame k (k.collapse parent)
  := by
  obtain ⟨mo, heq⟩ := h.collapse_eq
  obtain ⟨hcnode, hheader, hlive, hnum⟩ := rest_handOver k parent child
  have hcow : ∀ s, (k.collapse parent).CowSlot s → k.CowSlot s := by
    rintro s ⟨m, rfl, hs⟩
    obtain ⟨m', hm', -⟩ := h.origin_collapse hs
    exact ⟨m', hm', hs⟩
  have hslot := h.slot_collapse
  rw [heq] at hcow hslot ⊢
  refine ⟨cap_handOver, hcnode, hnum, ?_, ?_, ?_, nextSlot_handOver, hcow, ?_⟩
  · intro p
    rw [← hheader]
  · intro p
    rw [← hheader]
  · intro p
    rw [← hlive]
    apply id
  · intro s
    obtain hsame | ⟨hs, hne, hfree⟩ := hslot s
    · left
      exact hsame
    · right
      exact ⟨⟨child, hs.symm, hne⟩, hfree⟩

theorem cowTree :
  CowTree r (k.collapse parent)
  := by
  have hrank := h.rank_grandparent.trans h.rank_child
  constructor
  · intro m hm
    obtain ⟨hmeta, _⟩ | ⟨hs, _⟩ := h.slot_collapse ((k.collapse parent).mo m).cowParent
    · obtain ⟨m', hm', -⟩ := h.origin_collapse hm
      rw [hmeta, ← hm']
      apply h.tree.occupied m' (hm' ▸ hm)
    · exact absurd hs (h.ne_of_cowParent_collapse hm)
  · intro m₁ m₂ hm heq
    obtain ⟨o₁, ho₁, horigin₁⟩ := h.origin_collapse hm
    obtain ⟨o₂, ho₂, horigin₂⟩ := h.origin_collapse (heq ▸ hm)
    have ho := h.tree.unique o₁ o₂ (ho₁ ▸ hm) (ho₁.trans (heq.trans ho₂.symm))
    grind
  · intro m p i hm
    obtain ⟨m', hm', -⟩ := h.origin_collapse hm
    rw [h.moFrame.cnode, ← hm']
    apply h.tree.unreferenced m' p i (hm' ▸ hm)
  · intro m hm
    obtain ⟨m', hm', horigin⟩ := h.origin_collapse hm
    rw [Kernel.cowParentOf, h.moFrame.cap, ← hm']
    obtain ⟨hparent, hchild⟩ | ⟨rfl, -⟩ := horigin
    · rw [hparent, hchild, ← Kernel.cowParentOf, h.grandparent]
      exact ⟨h.grandparent_ne, hrank⟩
    · apply h.tree.parent m' (hm' ▸ hm)
  · intro p x hx
    obtain ⟨_, hlist | ⟨hp, hx⟩⟩ := h.onList_collapse hx
    · apply h.tree.below p x hlist
    · rw [hp, hx]
      apply hrank
  · intro p q x hp hq
    obtain ⟨hp, hlist | ⟨hpg, hxc⟩⟩ := h.onList_collapse hp
    · obtain ⟨hq, hlist' | ⟨hqg, hxc⟩⟩ := h.onList_collapse hq
      · apply h.tree.disjoint p q x hlist hlist'
      · rw [hxc] at hlist
        exact absurd (h.tree.disjoint p parent child hlist h.onList) hp
    · obtain ⟨hq, hlist' | ⟨hqg, _⟩⟩ := h.onList_collapse hq
      · rw [hxc] at hlist'
        exact absurd (h.tree.disjoint q parent child hlist' h.onList) hq
      · rw [hpg, hqg]

end Collapsible

end Collapse

/-! ## Destroying memory objects -/

/-- What destroying a memory object of rank `b` does: objects of larger rank keep their private slot,
unless it is given up altogether. -/
structure MoStep (r : ObjPtr → ℕ) (b : ℕ) (k k' : Kernel) : Prop extends MoFrame k k' where
  kept : ∀ x, b < r x → (k'.mo x).cowParent = (k.mo x).cowParent ∨ ¬ k'.CowSlot (k.mo x).cowParent

section Destroy

variable {r : ObjPtr → ℕ} {b : ℕ} {k k' : Kernel}

instance : IsPreorder Kernel (MoStep r b) where
  refl k := by
    use refl k
    intro x _
    left
    rfl
  trans k₁ k₂ k₃ h h' := by
    use IsTrans.trans _ _ _ h.toMoFrame h'.toMoFrame
    intro x hx
    obtain heq | hgone := h.kept x hx
    · rw [← heq]
      apply h'.kept x hx
    right
    intro hcow
    apply hgone (h'.cowSlot _ hcow)

theorem MoStep.of_sameRefs (h : SameRefs k k') :
  MoStep r b k k'
  := by
  use MoFrame.of_sameRefs h
  intro x _
  left
  apply h.cowParent

theorem MoStep.mono {b' : ℕ} (h : MoStep r b k k') (hb : b ≤ b') :
  MoStep r b' k k'
  := by
  use h.toMoFrame
  intro x hx
  apply h.kept x (hb.trans_lt hx)

theorem Collapsible.moStep {parent child grandparent : ObjPtr}
    (h : Collapsible r k parent child grandparent) (hb : r parent ≤ b) :
  MoStep r b k (k.collapse parent)
  := by
  use h.moFrame
  intro x hx
  rw [h.cowParent_collapse]
  by_cases hchild : x = child
  · right
    rintro ⟨m, hm, hne⟩
    rw [← hm] at hne
    apply h.ne_of_cowParent_collapse hne
    rw [hm, hchild]
  · left
    rw [if_neg hchild, if_neg]
    intro heq
    rw [heq] at hx
    omega

/-- Quiet programs keep the tree. -/
theorem Quiet.keeps_cowTree {ε α : Type} {m : Prog Kernel ε α} (h : Quiet m) :
  Prog.Keeps (CowTree r) (MoStep r b) (fun _ => True) m
  := by
  apply h.of_rel
  intro k k' hk hkk'
  exact ⟨hk.of_sameSlots hkk', MoStep.of_sameRefs hkk'.toSameRefs⟩

/-- What the tree of memory objects depends on. Objects may lose their parent, lists may shrink. -/
theorem CowTree.transfer (hk : CowTree r k)
    (hcow : ∀ m, (k'.mo m).cowParent ≠ 0 → (k'.mo m).cowParent = (k.mo m).cowParent)
    (hstate : ∀ s, k.CowSlot s → k'.CowSlot s → (k'.slotMeta s).state = (k.slotMeta s).state)
    (href : ∀ s p i, k.CowSlot s → (k'.cnode p).slots i = s → ∃ q j, (k.cnode q).slots j = s)
    (hcap : ∀ s, k.CowSlot s → (k'.cap s).object = (k.cap s).object)
    (hlist : ∀ p x, k'.OnList p x → k.OnList p x) :
  CowTree r k'
  := by
  have hslot : ∀ m, (k'.mo m).cowParent ≠ 0 → k.CowSlot (k'.mo m).cowParent := by
    intro m hm
    exact ⟨m, (hcow m hm).symm, hm⟩
  constructor
  · intro m hm
    have heq := hcow m hm
    rw [hstate _ (hslot m hm) ⟨m, rfl, hm⟩, heq]
    rw [heq] at hm
    apply hk.occupied m hm
  · intro m m' hm heq
    have hm' := heq ▸ hm
    rw [hcow m hm, hcow m' hm'] at heq
    apply hk.unique m m' _ heq
    rw [← hcow m hm]
    apply hm
  · intro m p i hm heq
    obtain ⟨q, j, hq⟩ := href _ p i (hslot m hm) heq
    rw [hcow m hm] at hq
    apply hk.unreferenced m q j _ hq
    rw [← hcow m hm]
    apply hm
  · intro m hm
    have heq := hcow m hm
    rw [cowParentOf, hcap _ (hslot m hm), heq]
    rw [heq] at hm
    apply hk.parent m hm
  · intro p x hx
    apply hk.below p x (hlist p x hx)
  · intro p q x hp hq
    apply hk.disjoint p q x (hlist p x hp) (hlist q x hq)

/-- The private slot of an object is freed and taken from it. -/
def Kernel.giveUp (k : Kernel) (s : CapSlot) (m : ObjPtr) : Kernel :=
  (k.freeSlot s).setMo m fun mo => { mo with cowParent := 0 }

theorem mo_giveUp (k : Kernel) (s : CapSlot) (m x : ObjPtr) :
  (k.giveUp s m).mo x = if x = m then { k.mo m with cowParent := 0 } else k.mo x
  := by
  rw [Kernel.giveUp, mo_setMo, freeSlot_mo]

/-- The private slots that are left. -/
theorem cowParent_giveUp {m x : ObjPtr} {s : CapSlot} (hx : ((k.giveUp s m).mo x).cowParent ≠ 0) :
  x ≠ m ∧ ((k.giveUp s m).mo x).cowParent = (k.mo x).cowParent
  := by
  rw [mo_giveUp] at *
  split_ifs at * with heq
  · exact absurd rfl hx
  · exact ⟨heq, rfl⟩

/-- Giving up the private slot of an object. -/
theorem CowTree.giveUp {m : ObjPtr} {s : CapSlot} (hk : CowTree r k)
    (hs : (k.mo m).cowParent = s ∨ ¬ k.CowSlot s) :
  CowTree r (k.giveUp s m)
  := by
  apply hk.transfer
  · intro x hx
    apply (cowParent_giveUp hx).2
  · rintro t ht ⟨x, hxt, hx⟩
    obtain ⟨hxm, heq⟩ := cowParent_giveUp (hxt.symm ▸ hx)
    have hts : t ≠ s := by
      rintro rfl
      obtain hs | hs := hs
      · apply hxm (hk.unique x m _ _)
        · rwa [← heq, hxt]
        · rw [← heq, hxt, hs]
      · exact hs ht
    change ((k.freeSlot s).slotMeta t).state = _
    rw [(freeSlot_of_ne k s hts).1]
  · intro t p i _ ht
    have hcnode : (k.giveUp s m).cnode = k.cnode := freeSlot_cnode k s
    rw [hcnode] at ht
    exact ⟨p, i, ht⟩
  · intro t _
    change ((k.freeSlot s).cap t).object = _
    rw [freeSlot_cap]
  · intro p x hx
    have hfields : ∀ y, ((k.giveUp s m).mo y).nextSibling = (k.mo y).nextSibling ∧
        ((k.giveUp s m).mo y).firstChild = (k.mo y).firstChild := by
      intro y
      rw [mo_giveUp]
      split_ifs with hy
      · rw [hy]
        exact ⟨rfl, rfl⟩
      · exact ⟨rfl, rfl⟩
    simpa only [Kernel.OnList, hfields] using hx

/-- Giving up the private slot that an object had at the beginning. -/
theorem MoStep.giveUp {m : ObjPtr} {s : CapSlot} (h : MoStep r b k k') (hb : r m ≤ b)
    (hs : k.CowSlot s) :
  MoStep r b k (k'.giveUp s m)
  := by
  have hcow : ∀ t, (k'.giveUp s m).CowSlot t → k'.CowSlot t := by
    rintro t ⟨x, rfl, ht⟩
    exact ⟨x, (cowParent_giveUp ht).2.symm, ht⟩
  refine ⟨⟨(freeSlot_cap k' s).trans h.cap, (freeSlot_cnode k' s).trans h.cnode,
    (freeSlot_numSlots k' s).trans h.numSlots, ?_, ?_, ?_, (freeSlot_nextSlot k' s).trans h.nextSlot,
    fun t ht => h.cowSlot t (hcow t ht), ?_⟩, ?_⟩
  · intro p
    change ((k'.freeSlot s).header p).objType = _
    rw [freeSlot_header, h.objType]
  · intro p
    change ((k'.freeSlot s).header p).sizeBits = _
    rw [freeSlot_header, h.sizeBits]
  · intro p
    change (k'.freeSlot s).live p = true → _
    rw [freeSlot_live]
    apply h.live
  · intro t
    change ((k'.freeSlot s).slotMeta t = _ ∧ (k'.freeSlot s).bitmap t = _) ∨
      (_ ∧ (k'.freeSlot s).slotMeta t = _ ∧ (k'.freeSlot s).bitmap t = _)
    by_cases ht : t = s
    · subst ht
      obtain hfree | ⟨hmeta, hbit⟩ := freeSlot_self k' t
      · right
        exact ⟨hs, hfree⟩
      · rw [hmeta, hbit]
        apply h.slot t
    · rw [(freeSlot_of_ne k' s ht).1, (freeSlot_of_ne k' s ht).2]
      apply h.slot t
  · intro x hx
    have hxm : x ≠ m := ne_of_apply_ne r (hb.trans_lt hx).ne'
    rw [mo_giveUp, if_neg hxm]
    obtain heq | hgone := h.kept x hx
    · left
      exact heq
    right
    intro ht
    apply hgone (hcow _ ht)

end Destroy

end SaltyOS
