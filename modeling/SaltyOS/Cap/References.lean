import Mathlib.Data.Set.Insert
import SaltyOS.Cap.SlotTable

/-!
# References of capability nodes

A capability node refers to slots of the global slot array. A reference is stale if its slot has been
freed, and it silently comes to denote another capability when the slot is allocated again. We show
that references do not become stale as long as capabilities are revoked only when nothing has been
derived from them. In general they do: revoking a capability frees the slots of all its descendants
and clears one reference.
-/

namespace SaltyOS

open Function Kernel

namespace Kernel

variable (k : Kernel)

/-- The object is a capability node that is alive. -/
def IsCNode (p : ObjPtr) : Prop := k.live p = true ∧ (k.header p).objType = .cnode

instance (p : ObjPtr) : Decidable (k.IsCNode p) :=
  inferInstanceAs (Decidable (_ ∧ _))

/-- A capability node that is alive refers to a slot. -/
def RefersTo (p : ObjPtr) (i : ℕ) (s : CapSlot) : Prop :=
  k.IsCNode p ∧ i < k.numRefs p ∧ (k.cnode p).slots i = s ∧ s ≠ invalidSlot

instance (p : ObjPtr) (i : ℕ) (s : CapSlot) : Decidable (k.RefersTo p i s) :=
  inferInstanceAs (Decidable (_ ∧ _))

end Kernel

/-- Every reference is to an occupied slot, and no slot is referred to twice. -/
structure NoStaleRef (k : Kernel) : Prop where
  occupied : ∀ p i s, k.RefersTo p i s → (k.slotMeta s).state = .occupied
  unique : ∀ p i q j s, k.RefersTo p i s → k.RefersTo q j s → p = q ∧ i = j

/-! ## The invariant -/

/-- The invariant of runs, where the references at the positions in `e` are excepted because their
slot is about to be freed. -/
structure RefInv (e : Set (ObjPtr × ℕ)) (r : ObjPtr → ℕ) (k : Kernel) : Prop where
  tree : CowTree r k
  table : SlotTable k
  occupied : ∀ p i s, k.RefersTo p i s → (p, i) ∉ e → (k.slotMeta s).state = .occupied
  unique : ∀ p i q j s, k.RefersTo p i s → k.RefersTo q j s → p = q ∧ i = j

/-- References are kept, objects only die, and free slots stay free. -/
structure RefStable (k k' : Kernel) : Prop where
  cnode : k'.cnode = k.cnode
  objType : ∀ p, (k'.header p).objType = (k.header p).objType
  sizeBits : ∀ p, (k'.header p).sizeBits = (k.header p).sizeBits
  live : ∀ p, k'.live p = true → k.live p = true
  free : ∀ s, (k.slotMeta s).state = .free → (k'.slotMeta s).state = .free
  cowSlot : ∀ s, k'.CowSlot s → k.CowSlot s

instance : IsPreorder Kernel RefStable where
  refl k := ⟨rfl, fun _ => rfl, fun _ => rfl, fun _ => id, fun _ => id, fun _ => id⟩
  trans k₁ k₂ k₃ h h' := by
    constructor
    · rw [h'.cnode, h.cnode]
    · intro p
      rw [h'.objType, h.objType]
    · intro p
      rw [h'.sizeBits, h.sizeBits]
    · intro p hp
      apply h.live p (h'.live p hp)
    · intro s hs
      apply h'.free s (h.free s hs)
    · intro s hs
      apply h.cowSlot s (h'.cowSlot s hs)

/-- The slot may be freed: nothing but the references at the positions in `e` names it. -/
def Kernel.Droppable (e : Set (ObjPtr × ℕ)) (s : CapSlot) (k : Kernel) : Prop :=
  (∀ p i, k.RefersTo p i s → (p, i) ∈ e) ∧ ¬ k.CowSlot s

section Lemmas

variable {e : Set (ObjPtr × ℕ)} {r : ObjPtr → ℕ} {k k' : Kernel} {s : CapSlot}

theorem Kernel.RefersTo.of_same {p : ObjPtr} {i : ℕ} (hcnode : k'.cnode p = k.cnode p)
    (hheader : (k'.header p).objType = (k.header p).objType)
    (hsize : (k'.header p).sizeBits = (k.header p).sizeBits)
    (hlive : k'.live p = true → k.live p = true) (h : k'.RefersTo p i s) :
  k.RefersTo p i s
  := by
  obtain ⟨⟨halive, htype⟩, hi, hs, hne⟩ := h
  rw [hheader] at htype
  rw [numRefs, hsize] at hi
  rw [hcnode] at hs
  exact ⟨⟨hlive halive, htype⟩, hi, hs, hne⟩

theorem RefStable.refersTo (h : RefStable k k') {p : ObjPtr} {i : ℕ} (hp : k'.RefersTo p i s) :
  k.RefersTo p i s
  := by
  apply hp.of_same _ (h.objType p) (h.sizeBits p) (h.live p)
  rw [h.cnode]

theorem Kernel.Droppable.of_refStable (hs : k.Droppable e s) (h : RefStable k k') :
  k'.Droppable e s
  := by
  constructor
  · intro p i hp
    apply hs.1 p i (h.refersTo hp)
  · intro hcow
    apply hs.2 (h.cowSlot s hcow)

/-- A slot that is referred to is droppable as far as the other references are concerned. -/
theorem RefInv.droppable (hk : RefInv e r k) {p : ObjPtr} {i : ℕ} (h : k.RefersTo p i s) :
  k.Droppable {(p, i)} s
  := by
  constructor
  · intro q j hq
    obtain ⟨rfl, rfl⟩ := hk.unique p i q j s h hq
    apply Set.mem_singleton
  · rw [← h.2.2.1]
    apply hk.tree.not_cowSlot_ref

theorem RefInv.mono {e' : Set (ObjPtr × ℕ)} (hk : RefInv e r k) (he : e ⊆ e') :
  RefInv e' r k
  := by
  refine ⟨hk.tree, hk.table, ?_, hk.unique⟩
  intro p i s h hp
  apply hk.occupied p i s h
  intro hmem
  apply hp (he hmem)

/-- The invariant survives steps that make no references and do not free their slots. -/
theorem RefInv.of_refersTo (hk : RefInv e r k) (htree : CowTree r k') (htable : SlotTable k')
    (hrefers : ∀ p i s, k'.RefersTo p i s → k.RefersTo p i s)
    (hstate : ∀ s, (∃ p i, k.RefersTo p i s ∧ (p, i) ∉ e) → (k.slotMeta s).state = .occupied →
      (k'.slotMeta s).state = .occupied) :
  RefInv e r k'
  := by
  refine ⟨htree, htable, ?_, ?_⟩
  · intro p i s hp he
    have hp' := hrefers p i s hp
    apply hstate s ⟨p, i, hp', he⟩
    apply hk.occupied p i s hp' he
  · intro p i q j s hp hq
    apply hk.unique p i q j s (hrefers p i s hp) (hrefers q j s hq)

/-! ## Steps -/

theorem RefStable.of_sameRefs (h : SameRefs k k') :
  RefStable k k'
  := by
  refine ⟨h.cnode, h.objType, h.sizeBits, h.live, ?_, ?_⟩
  · intro s hs
    rw [h.slotMeta]
    apply hs
  · rintro s ⟨m, hm, hs⟩
    rw [h.cowParent] at hm
    exact ⟨m, hm, hs⟩

section

variable (hk : RefInv e r k)
include hk

theorem RefInv.of_sameSlots (h : SameSlots k k') :
  RefInv e r k' ∧ RefStable k k'
  := by
  have hstable := RefStable.of_sameRefs h.toSameRefs
  refine ⟨?_, hstable⟩
  apply hk.of_refersTo (hk.tree.of_sameSlots h) (hk.table.of_sameRefs h.toSameRefs) fun _ _ _ =>
    hstable.refersTo
  intro s _ hs
  rw [h.slotMeta]
  apply hs

theorem RefInv.of_moFrame (htree : CowTree r k') (h : MoFrame k k') :
  RefInv e r k' ∧ RefStable k k'
  := by
  have hstable : RefStable k k' := by
    refine ⟨h.cnode, h.objType, h.sizeBits, h.live, ?_, h.cowSlot⟩
    intro s hs
    obtain ⟨hmeta, _⟩ | ⟨_, hmeta, _⟩ := h.slot s
    · rw [hmeta]
      apply hs
    · rw [hmeta]
      rfl
  refine ⟨?_, hstable⟩
  apply hk.of_refersTo htree (hk.table.of_moFrame h) fun _ _ _ => hstable.refersTo
  rintro s ⟨p, i, hp, _⟩ hs
  obtain ⟨hmeta, _⟩ | ⟨hcow, _⟩ := h.slot s
  · rw [hmeta]
    apply hs
  · rw [← hp.2.2.1] at hcow
    exact absurd hcow (hk.tree.not_cowSlot_ref p i)

theorem RefInv.of_linkEdit (h : LinkEdit k k') :
  RefInv e r k' ∧ RefStable k k'
  := by
  have htree := hk.tree.of_linkEdit h
  have htable := hk.table.of_linkEdit h
  obtain ⟨slotMeta, rfl, hstate⟩ := h
  have hstable : RefStable k { k with slotMeta } := by
    refine ⟨rfl, fun _ => rfl, fun _ => rfl, fun _ => id, ?_, fun _ => id⟩
    intro s hs
    rw [← hs]
    apply hstate
  refine ⟨?_, hstable⟩
  apply hk.of_refersTo htree htable fun _ _ _ => id
  intro s _ hs
  rw [← hs]
  apply hstate

/-- Writing a capability that is not private, or that names the same object as before. -/
theorem RefInv.setCap {cap : Capability} (hs : k.CowSlot s → cap.object = (k.cap s).object) :
  RefInv e r (k.setCap s cap) ∧ RefStable k (k.setCap s cap)
  := by
  have hstable : RefStable k (k.setCap s cap) :=
    ⟨rfl, fun _ => rfl, fun _ => rfl, fun _ => id, fun _ => id, fun _ => id⟩
  refine ⟨?_, hstable⟩
  have htable : SlotTable (k.setCap s cap) :=
    ⟨hk.table.numSlots, hk.table.nextSlot, hk.table.occupied⟩
  apply hk.of_refersTo (hk.tree.setCap hs) htable fun _ _ _ => id
  intro t _ ht
  apply ht

theorem RefInv.freeSlot (hs : k.Droppable e s) :
  RefInv e r (k.freeSlot s) ∧ RefStable k (k.freeSlot s)
  := by
  have hstable : RefStable k (k.freeSlot s) := by
    refine ⟨freeSlot_cnode k s, ?_, ?_, ?_, ?_, ?_⟩
    · intro p
      rw [freeSlot_header]
    · intro p
      rw [freeSlot_header]
    · intro p
      rw [freeSlot_live]
      apply id
    · intro t ht
      by_cases hts : t = s
      · subst hts
        obtain ⟨hmeta, _⟩ | ⟨hmeta, _⟩ := freeSlot_self k t
        · rw [hmeta]
          rfl
        · rw [hmeta]
          apply ht
      · rw [(freeSlot_of_ne k s hts).1]
        apply ht
    · rintro t ⟨m, hm, ht⟩
      rw [freeSlot_mo] at hm
      exact ⟨m, hm, ht⟩
  refine ⟨?_, hstable⟩
  apply hk.of_refersTo (hk.tree.freeSlot hs.2) (hk.table.freeSlot s) fun _ _ _ => hstable.refersTo
  rintro t ⟨p, i, hp, he⟩ ht
  have hts : t ≠ s := by
    intro heq
    rw [heq] at hp
    apply he (hs.1 p i hp)
  rw [(freeSlot_of_ne k s hts).1]
  apply ht

end

end Lemmas

/-! ## Deletion and destruction -/

/-- What deletion and destruction do to references. -/
def refSpec (e : Set (ObjPtr × ℕ)) (r : ObjPtr → ℕ) : DeletionSpec where
  inv := RefInv e r
  rel := RefStable
  halts _ := True
  deletable := Kernel.Droppable e
  droppable := Kernel.Droppable e
  dropped := Kernel.Droppable e
  revocable s k := k.Droppable e s ∧ k.hasChildren s = false
  moInv := CowTree r
  moRel m := MoStep r (r m)
  siblingRel := SameRefs

/-- Capability nodes are destroyed once. -/
def destroysLiveCNodes : Call → Kernel → Bool
  | .destroyObject obj .cnode, k => decide (k.IsCNode obj)
  | _, _ => true

section Deletion

variable {e : Set (ObjPtr × ℕ)} {r : ObjPtr → ℕ}

theorem refSpec_ofSlots :
  (refSpec e r).OfSlots r
  := by
  constructor
  · show IsPreorder Kernel RefStable
    infer_instance
  · intro _
    trivial
  · intro k k'
    apply RefInv.of_sameSlots
  · intro k hk
    apply hk.tree
  · intro k k'
    apply RefInv.of_moFrame
  · rfl
  · rfl
  · rfl

/-- A slot that nothing names can be emptied and freed. -/
theorem RefInv.dropSlot {k : Kernel} {s : CapSlot} (hk : RefInv e r k) (hs : k.Droppable e s) :
  RefInv e r (k.dropSlot s) ∧ RefStable k (k.dropSlot s)
  := by
  obtain ⟨hk₁, hrel₁⟩ := hk.setCap fun hcow => absurd hcow hs.2
  obtain ⟨hk₂, hrel₂⟩ := hk₁.of_linkEdit
    (LinkEdit.setMeta _ fun m => (rfl : { m with utParent := invalidSlot }.state = m.state))
  obtain ⟨hk₃, hrel₃⟩ := hk₂.freeSlot ((hs.of_refStable hrel₁).of_refStable hrel₂)
  exact ⟨hk₃, IsTrans.trans _ _ _ hrel₁ (IsTrans.trans _ _ _ hrel₂ hrel₃)⟩

/-- The slots that a destroyed capability node refers to may be freed. -/
theorem RefInv.droppable_of_destroyed {k k' : Kernel} {obj : ObjPtr} {i : ℕ} (hk : RefInv e r k)
    (hobj : k.IsCNode obj) (h : RefStable (k.kill obj) k') (hk' : RefInv e r k')
    (hi : i < k.numRefs obj) (hne : (k'.cnode obj).slots i ≠ invalidSlot) :
  k'.Droppable e ((k'.cnode obj).slots i)
  := by
  have hcnode : k'.cnode = k.cnode := h.cnode
  refine ⟨?_, hk'.tree.not_cowSlot_ref obj i⟩
  intro p j hp
  have hp' := h.refersTo hp
  have hpk := (RefStable.of_sameRefs (SameSlots.kill k obj).toSameRefs).refersTo hp'
  rw [hcnode] at hpk hne
  obtain ⟨rfl, rfl⟩ := hk.unique p j obj i _ hpk ⟨hobj, hi, rfl, hne⟩
  have hlive := hp'.1.1
  simp [kill] at hlive

theorem refSpec_sound :
  (refSpec e r).Sound destroysLiveCNodes
  := by
  apply refSpec_ofSlots.sound
  constructor
  · intro k ut child prev hk
    apply hk.of_linkEdit (LinkEdit.unlinkUtChild k ut child prev)
  · intro k s _ hs _ _
    apply hs
  · intro k s hk hs
    obtain ⟨hinv, hrel⟩ := RefInv.of_linkEdit hk (LinkEdit.remove k s)
    exact ⟨hinv, hs.of_refStable hrel⟩
  · intro k k' s _ hs _ hrel
    apply hs.of_refStable hrel
  · intro k k' s hk _ hk' hrel hs
    obtain ⟨_, hremove⟩ := RefInv.of_linkEdit hk (LinkEdit.remove k s)
    obtain ⟨hdrop, hrel'⟩ := RefInv.dropSlot hk' hs
    have hstable : RefStable (k.remove s) (k'.dropSlot s) := trans hrel hrel'
    have hdropped : RefStable k (k'.dropSlot s) := IsTrans.trans _ _ _ hremove hstable
    exact ⟨hdrop, hdropped⟩
  · intro k s _ hs hchildren
    rw [hs.2] at hchildren
    cases hchildren
  · intro k k' s _ hs hchildren
    rw [hs.2] at hchildren
    cases hchildren
  · intro k s _ hs _
    apply hs.1
  · intro k k' obj i hk hallow hrel hk' hi hne
    apply RefInv.droppable_of_destroyed hk (of_decide_eq_true hallow) hrel hk' hi hne

end Deletion

/-! ## A slot that has just been allocated -/

/-- The slot is occupied and nothing refers to it yet. -/
structure HeldSlot (r : ObjPtr → ℕ) (s : CapSlot) (k : Kernel) : Prop where
  inv : RefInv ∅ r k
  droppable : k.Droppable ∅ s
  occupied : (k.slotMeta s).state = .occupied

section HeldSlot

variable {r : ObjPtr → ℕ} {s : CapSlot} {k k' : Kernel}

theorem RefInv.takeSlot (hk : RefInv ∅ r k) (hs : s < k.numSlots)
    (hfree : (k.slotMeta s).state = .free) :
  HeldSlot r s (k.takeSlot s)
  := by
  have hne : ∀ p i t, k.RefersTo p i t → t ≠ s := by
    rintro p i t h rfl
    rw [hk.occupied p i t h (Set.notMem_empty _)] at hfree
    cases hfree
  constructor
  · apply hk.of_refersTo (hk.tree.takeSlot hfree) (hk.table.takeSlot hs) fun _ _ _ => id
    rintro t ⟨p, i, h, _⟩ ht
    simp only [Kernel.takeSlot, update_of_ne (hne p i t h)]
    apply ht
  · constructor
    · intro p i h
      exact absurd rfl (hne p i s h)
    · apply hk.tree.not_cowSlot hfree
  · simp only [Kernel.takeSlot, update_self]
    rfl

namespace HeldSlot

variable (h : HeldSlot r s k)

include h

theorem of_sameSlots (hkk' : SameSlots k k') :
  HeldSlot r s k'
  := by
  obtain ⟨hinv, hrel⟩ := h.inv.of_sameSlots hkk'
  use hinv, h.droppable.of_refStable hrel
  rw [hkk'.slotMeta]
  apply h.occupied

theorem of_linkEdit (hkk' : LinkEdit k k') :
  HeldSlot r s k'
  := by
  obtain ⟨hinv, hrel⟩ := h.inv.of_linkEdit hkk'
  use hinv, h.droppable.of_refStable hrel
  obtain ⟨slotMeta, rfl, hstate⟩ := hkk'
  rw [← h.occupied]
  apply hstate

theorem setCap (cap : Capability) :
  HeldSlot r s (k.setCap s cap)
  := by
  obtain ⟨hinv, hrel⟩ := h.inv.setCap fun hcow => absurd hcow h.droppable.2
  exact ⟨hinv, h.droppable.of_refStable hrel, h.occupied⟩

/-- The slot is given back. -/
theorem freeSlot :
  RefInv ∅ r (k.freeSlot s)
  := (h.inv.freeSlot h.droppable).1

/-- A new object has no references. -/
theorem createObject {obj : ObjPtr} {objType : ObjectType} {sizeBits : ℕ} {isDevice : Bool}
    {addr : PhysAddr} :
  HeldSlot r s (k.createObject obj objType sizeBits isDevice addr)
  := by
  have hrefers : ∀ p i t, (k.createObject obj objType sizeBits isDevice addr).RefersTo p i t →
      k.RefersTo p i t := by
    rintro p i t hp
    by_cases hobj : p = obj
    · obtain ⟨⟨_, htype⟩, _, ht, hne⟩ := hp
      subst hobj
      rw [createObject_header, update_self] at htype
      have hcnode : objType = .cnode := by
        cases objType <;> first | rfl | cases htype
      rw [createObject_cnode, if_pos hcnode, update_self] at ht
      exact absurd ht.symm hne
    · apply hp.of_same
      · rw [createObject_cnode]
        split
        · rw [update_of_ne hobj]
        · rfl
      · rw [createObject_header, update_of_ne hobj]
      · rw [createObject_header, update_of_ne hobj]
      · rw [createObject_live, update_of_ne hobj]
        apply id
  have hcow : ∀ t, (k.createObject obj objType sizeBits isDevice addr).CowSlot t → k.CowSlot t := by
    rintro t ⟨m, hm, ht⟩
    obtain heq | ⟨_, _, heq⟩ := createObject_mo k obj objType sizeBits isDevice addr m
    · rw [heq] at hm
      exact ⟨m, hm, ht⟩
    · rw [heq] at hm
      exact absurd hm.symm ht
  constructor
  · apply h.inv.of_refersTo (h.inv.tree.createObject h.inv.table) h.inv.table.createObject hrefers
    intro t _ ht
    rw [createObject_slotMeta]
    apply ht
  · constructor
    · intro p i hp
      apply h.droppable.1 p i (hrefers p i s hp)
    · intro hs
      apply h.droppable.2 (hcow s hs)
  · rw [createObject_slotMeta]
    apply h.occupied

end HeldSlot

end HeldSlot

/-! ## Writing references -/

section SetRef

variable {r : ObjPtr → ℕ} {k : Kernel} {p : ObjPtr} {i : ℕ} {s : CapSlot}

theorem slots_setRef (q : ObjPtr) (j : ℕ) :
  ((k.setRef p i s).cnode q).slots j = if q = p ∧ j = i then s else (k.cnode q).slots j
  := by
  simp only [setRef, update_apply]
  split
  · rename_i hq
    simp only [update_apply, hq, true_and]
  · rename_i hq
    rw [if_neg (fun h => hq h.1)]

/-- The references after one of them has been written. -/
theorem refersTo_setRef {q : ObjPtr} {j : ℕ} {t : CapSlot} (h : (k.setRef p i s).RefersTo q j t) :
  (q = p ∧ j = i ∧ t = s) ∨ (¬ (q = p ∧ j = i) ∧ k.RefersTo q j t)
  := by
  obtain ⟨hq, hj, ht, hne⟩ := h
  rw [slots_setRef] at ht
  split_ifs at ht with hqj
  · left
    exact ⟨hqj.1, hqj.2, ht.symm⟩
  · right
    exact ⟨hqj, hq, hj, ht, hne⟩

/-- There is one reference to an occupied slot, and the others are old ones to other slots. -/
theorem RefInv.of_newRef {k' : Kernel} (hk : RefInv ∅ r k) (htree : CowTree r k')
    (htable : SlotTable k') (hmeta : k'.slotMeta = k.slotMeta) (hs : (k.slotMeta s).state = .occupied)
    (hrefers : ∀ q j t, k'.RefersTo q j t → (q = p ∧ j = i ∧ t = s) ∨ (t ≠ s ∧ k.RefersTo q j t)) :
  RefInv ∅ r k'
  := by
  refine ⟨htree, htable, ?_, ?_⟩
  · intro q j t h he
    rw [hmeta]
    obtain ⟨_, _, rfl⟩ | ⟨_, hold⟩ := hrefers q j t h
    · apply hs
    · apply hk.occupied q j t hold he
  intro q₁ j₁ q₂ j₂ t h₁ h₂
  obtain ⟨rfl, rfl, rfl⟩ | ⟨hne₁, hold₁⟩ := hrefers q₁ j₁ t h₁
  · obtain ⟨rfl, rfl, _⟩ | ⟨hne₂, _⟩ := hrefers q₂ j₂ t h₂
    · exact ⟨rfl, rfl⟩
    · exact absurd rfl hne₂
  · obtain ⟨_, _, ht⟩ | ⟨_, hold₂⟩ := hrefers q₂ j₂ t h₂
    · exact absurd ht hne₁
    · apply hk.unique q₁ j₁ q₂ j₂ t hold₁ hold₂

/-- Writing a reference to a held slot. -/
theorem HeldSlot.setRef (h : HeldSlot r s k) :
  RefInv ∅ r (k.setRef p i s)
  := by
  have htable : SlotTable (k.setRef p i s) :=
    ⟨h.inv.table.numSlots, h.inv.table.nextSlot, h.inv.table.occupied⟩
  apply h.inv.of_newRef (h.inv.tree.setRef h.droppable.2) htable rfl h.occupied
  intro q j t hq
  apply (refersTo_setRef hq).imp_right
  rintro ⟨_, hold⟩
  refine ⟨?_, hold⟩
  rintro rfl
  apply h.droppable.1 q j hold

/-- No private slot has the invalid index. -/
theorem RefInv.not_cowSlot_invalidSlot {e : Set (ObjPtr × ℕ)} (hk : RefInv e r k) :
  ¬ k.CowSlot invalidSlot
  := by
  rintro ⟨m, hm, hne⟩
  rw [← hm] at hne
  apply hk.table.ne_invalidSlot (hk.tree.occupied m hne) hm

theorem refersTo_clearRef {q : ObjPtr} {j : ℕ} {t : CapSlot}
    (h : (k.setRef p i invalidSlot).RefersTo q j t) :
  ¬ (q = p ∧ j = i) ∧ k.RefersTo q j t
  := by
  have hne := h.2.2.2
  obtain ⟨_, _, ht⟩ | hold := refersTo_setRef h
  · exact absurd ht hne
  · apply hold

/-- Clearing a reference whose slot has been freed. -/
theorem RefInv.clearRef (hk : RefInv {(p, i)} r k) :
  RefInv ∅ r (k.setRef p i invalidSlot)
  := by
  refine ⟨hk.tree.setRef hk.not_cowSlot_invalidSlot, ?_, ?_, ?_⟩
  · exact ⟨hk.table.numSlots, hk.table.nextSlot, hk.table.occupied⟩
  · intro q j t hq _
    obtain ⟨hne, hold⟩ := refersTo_clearRef hq
    apply hk.occupied q j t hold
    intro hmem
    rw [Set.mem_singleton_iff, Prod.mk.injEq] at hmem
    apply hne hmem
  · intro q j q' j' t hq hq'
    apply hk.unique q j q' j' t (refersTo_clearRef hq).2 (refersTo_clearRef hq').2

/-- Moving a reference. -/
theorem RefInv.moveRef (hk : RefInv ∅ r k) {q : ObjPtr} {j : ℕ} (hs : k.RefersTo q j s) :
  RefInv ∅ r ((k.setRef p i s).setRef q j invalidSlot)
  := by
  have hcow : ¬ k.CowSlot s := by
    rw [← hs.2.2.1]
    apply hk.tree.not_cowSlot_ref
  have hinvalid : ¬ (k.setRef p i s).CowSlot invalidSlot := hk.not_cowSlot_invalidSlot
  apply hk.of_newRef ((hk.tree.setRef hcow).setRef hinvalid)
    ⟨hk.table.numSlots, hk.table.nextSlot, hk.table.occupied⟩ rfl
    (hk.occupied q j s hs (Set.notMem_empty _))
  intro q' j' t h
  obtain ⟨hne, h'⟩ := refersTo_clearRef h
  apply (refersTo_setRef h').imp_right
  rintro ⟨_, hold⟩
  refine ⟨?_, hold⟩
  rintro rfl
  apply hne
  apply hk.unique q' j' q j t hold hs

end SetRef

end SaltyOS
