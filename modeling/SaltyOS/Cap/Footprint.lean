import SaltyOS.Cap.Boot

/-!
# What the parts of destruction leave alone

Most of what happens when an object is destroyed concerns frames, page tables and reference counts.
`SameSlots` says that the slots, the references of the capability nodes and the links between memory
objects are the same in two states. A program is quiet if it leaves all of them alone.
-/

namespace SaltyOS

open Function Kernel Prog

/-! ## Freeing a slot -/

section FreeSlot

variable (k : Kernel) (s : CapSlot)

@[simp]
theorem Kernel.freeSlot_cap :
  (k.freeSlot s).cap = k.cap
  := by
  simp only [freeSlot]
  split <;> rfl

@[simp]
theorem Kernel.freeSlot_cnode :
  (k.freeSlot s).cnode = k.cnode
  := by
  simp only [freeSlot]
  split <;> rfl

@[simp]
theorem Kernel.freeSlot_mo :
  (k.freeSlot s).mo = k.mo
  := by
  simp only [freeSlot]
  split <;> rfl

@[simp]
theorem Kernel.freeSlot_header :
  (k.freeSlot s).header = k.header
  := by
  simp only [freeSlot]
  split <;> rfl

@[simp]
theorem Kernel.freeSlot_live :
  (k.freeSlot s).live = k.live
  := by
  simp only [freeSlot]
  split <;> rfl

@[simp]
theorem Kernel.freeSlot_numSlots :
  (k.freeSlot s).numSlots = k.numSlots
  := by
  simp only [freeSlot]
  split <;> rfl

/-- The search for a free slot starts at the lowest one that was freed. -/
theorem Kernel.freeSlot_nextSlot :
  (k.freeSlot s).nextSlot ≤ k.nextSlot
  := by
  simp only [freeSlot]
  split
  · apply Nat.min_le_right
  · apply le_refl

/-- Freeing a slot changes the metadata of this slot only. -/
theorem Kernel.freeSlot_of_ne {t : CapSlot} (h : t ≠ s) :
  (k.freeSlot s).slotMeta t = k.slotMeta t ∧ (k.freeSlot s).bitmap t = k.bitmap t
  := by
  simp only [freeSlot]
  split
  · exact ⟨update_of_ne h _ _, update_of_ne h _ _⟩
  · exact ⟨rfl, rfl⟩

/-- A slot is free after it has been freed, unless it is out of range. -/
theorem Kernel.freeSlot_self :
  ((k.freeSlot s).slotMeta s = CapSlotMeta.free ∧ (k.freeSlot s).bitmap s = false) ∨
    ((k.freeSlot s).slotMeta s = k.slotMeta s ∧ (k.freeSlot s).bitmap s = k.bitmap s)
  := by
  simp only [freeSlot]
  split
  · left
    exact ⟨update_self .., update_self ..⟩
  · right
    exact ⟨rfl, rfl⟩

end FreeSlot

/-! ## Quiet changes -/

/-- The slots, the references and the parents of memory objects are the same, and no object has come
to life. -/
structure SameRefs (k k' : Kernel) : Prop where
  cap : k'.cap = k.cap
  slotMeta : k'.slotMeta = k.slotMeta
  bitmap : k'.bitmap = k.bitmap
  nextSlot : k'.nextSlot = k.nextSlot
  numSlots : k'.numSlots = k.numSlots
  cnode : k'.cnode = k.cnode
  objType : ∀ p, (k'.header p).objType = (k.header p).objType
  sizeBits : ∀ p, (k'.header p).sizeBits = (k.header p).sizeBits
  live : ∀ p, k'.live p = true → k.live p = true
  cowParent : ∀ p, (k'.mo p).cowParent = (k.mo p).cowParent

/-- The slots, the references and all links between memory objects are the same, and no object has
come to life. -/
structure SameSlots (k k' : Kernel) : Prop extends SameRefs k k' where
  firstChild : ∀ p, (k'.mo p).firstChild = (k.mo p).firstChild
  nextSibling : ∀ p, (k'.mo p).nextSibling = (k.mo p).nextSibling

instance : IsPreorder Kernel SameRefs where
  refl k := by
    constructor <;> intros <;> first | rfl | assumption
  trans k₁ k₂ k₃ h h' := by
    constructor
    · rw [h'.cap, h.cap]
    · rw [h'.slotMeta, h.slotMeta]
    · rw [h'.bitmap, h.bitmap]
    · rw [h'.nextSlot, h.nextSlot]
    · rw [h'.numSlots, h.numSlots]
    · rw [h'.cnode, h.cnode]
    · intro p
      rw [h'.objType, h.objType]
    · intro p
      rw [h'.sizeBits, h.sizeBits]
    · intro p hp
      apply h.live p (h'.live p hp)
    · intro p
      rw [h'.cowParent, h.cowParent]

instance : IsPreorder Kernel SameSlots where
  refl k := by
    refine ⟨refl k, ?_, ?_⟩ <;> intro p <;> rfl
  trans k₁ k₂ k₃ h h' := by
    refine ⟨IsTrans.trans _ _ _ h.toSameRefs h'.toSameRefs, ?_, ?_⟩ <;> intro p
    · rw [h'.firstChild, h.firstChild]
    · rw [h'.nextSibling, h.nextSibling]

namespace SameSlots

variable (k : Kernel)

/-- Changing the frame allocator, an untyped region, an address space or a thread is quiet. -/
theorem of_eq {k' : Kernel} (hcap : k'.cap = k.cap) (hmeta : k'.slotMeta = k.slotMeta)
    (hbitmap : k'.bitmap = k.bitmap) (hnext : k'.nextSlot = k.nextSlot)
    (hnum : k'.numSlots = k.numSlots) (hcnode : k'.cnode = k.cnode)
    (hheader : k'.header = k.header) (hlive : k'.live = k.live) (hmo : k'.mo = k.mo) :
  SameSlots k k'
  := by
  refine ⟨⟨hcap, hmeta, hbitmap, hnext, hnum, hcnode, ?_, ?_, ?_, ?_⟩, ?_, ?_⟩ <;> intro p
  · rw [hheader]
  · rw [hheader]
  · rw [hlive]
    apply id
  · rw [hmo]
  · rw [hmo]
  · rw [hmo]

/-- The frame allocator knows nothing of slots. -/
theorem setPmm (pmm : FrameAllocator) :
  SameSlots k (k.setPmm pmm)
  := by
  apply of_eq <;> rfl

variable (obj : ObjPtr)

theorem setUntyped (f : UntypedMemory → UntypedMemory) :
  SameSlots k (k.setUntyped obj f)
  := by
  apply of_eq <;> rfl

theorem setVSpace (f : VSpace → VSpace) :
  SameSlots k (k.setVSpace obj f)
  := by
  apply of_eq <;> rfl

theorem setTcb (f : Tcb → Tcb) :
  SameSlots k (k.setTcb obj f)
  := by
  apply of_eq <;> rfl

/-- Destroying an object is quiet by itself. -/
theorem kill :
  SameSlots k (k.kill obj)
  := by
  refine ⟨⟨rfl, rfl, rfl, rfl, rfl, rfl, ?_, ?_, ?_, ?_⟩, ?_, ?_⟩ <;> intro p
  · rfl
  · rfl
  · intro hp
    by_cases h : p = obj
    · subst h
      simp [Kernel.kill] at hp
    · simpa [Kernel.kill, update_of_ne h] using hp
  · rfl
  · rfl
  · rfl

theorem setRefCount (count : ℕ) :
  SameSlots k (k.setRefCount obj count)
  := by
  refine ⟨⟨rfl, rfl, rfl, rfl, rfl, rfl, ?_, ?_, ?_, ?_⟩, ?_, ?_⟩ <;> intro p
  · by_cases h : p = obj
    · subst h
      simp [Kernel.setRefCount]
    · simp [Kernel.setRefCount, update_of_ne h]
  · by_cases h : p = obj
    · subst h
      simp [Kernel.setRefCount]
    · simp [Kernel.setRefCount, update_of_ne h]
  · apply id
  · rfl
  · rfl
  · rfl

theorem incrementRefcount :
  SameSlots k (k.incrementRefcount obj)
  := by
  simp only [Kernel.incrementRefcount]
  split
  · apply refl
  · apply setRefCount

/-- Changing a memory object apart from its links is quiet. -/
theorem setMo {obj : ObjPtr} {f : MemoryObject → MemoryObject}
    (hparent : ∀ m, (f m).cowParent = m.cowParent) (hchild : ∀ m, (f m).firstChild = m.firstChild)
    (hsibling : ∀ m, (f m).nextSibling = m.nextSibling) :
  SameSlots k (k.setMo obj f)
  := by
  refine ⟨⟨rfl, rfl, rfl, rfl, rfl, rfl, ?_, ?_, ?_, ?_⟩, ?_, ?_⟩ <;> intro p
  · rfl
  · rfl
  · apply id
  · by_cases h : p = obj
    · subst h
      simp [Kernel.setMo, hparent]
    · simp [Kernel.setMo, update_of_ne h]
  · by_cases h : p = obj
    · subst h
      simp [Kernel.setMo, hchild]
    · simp [Kernel.setMo, update_of_ne h]
  · by_cases h : p = obj
    · subst h
      simp [Kernel.setMo, hsibling]
    · simp [Kernel.setMo, update_of_ne h]

/-- A page goes to the free list of an untyped region. -/
theorem pushFreePage (phys : PhysAddr) :
  SameSlots k (k.pushFreePage phys)
  := by
  simp only [Kernel.pushFreePage]
  split
  · apply refl
  · apply setUntyped

/-- Page tables are not looked at by the capability operations. -/
theorem clearPte (vspace : ObjPtr) (vaddr : VirtAddr) :
  SameSlots k (k.clearPte vspace vaddr)
  := by
  simp only [Kernel.clearPte]
  split
  · split
    · apply setVSpace
    · apply refl
  · apply refl

end SameSlots

/-! ## Quiet programs -/

/-- The program leaves the slots, references and links between memory objects alone. -/
def Quiet {ε α : Type} (m : Prog Kernel ε α) : Prop :=
  Prog.Keeps (fun _ => True) SameSlots (fun _ => True) m

namespace Quiet

variable {ε : Type}

/-- A change that is quiet in every state is a quiet program. -/
theorem modify {f : Kernel → Kernel} (h : ∀ k, SameSlots k (f k)) :
  Quiet (Prog.modify f : Prog Kernel ε Unit)
  := by
  apply keeps_modify
  intro k _
  exact ⟨trivial, h k⟩

/-- A frame goes back to the allocator, or the kernel panics. -/
theorem pmmFree (addr : PhysAddr) (owner : FrameOwner) :
  Quiet (SaltyOS.pmmFree addr owner : Prog Kernel ε Unit)
  := by
  apply keeps_bind keeps_get
  intro k
  split
  · apply modify
    intro k
    apply SameSlots.setPmm
  · apply keeps_stop trivial

section

variable (mo : ObjPtr)

/-- A page goes back to where it came from. -/
theorem freeEntry (index entry : ℕ) :
  Quiet (SaltyOS.freeEntry mo index entry : Prog Kernel ε Unit)
  := by
  apply keeps_when
  intro _
  apply keeps_ite
  · intro _
    apply modify
    intro k
    apply SameSlots.pushFreePage
  · intro _
    apply pmmFree

theorem unmapObservers :
  Quiet (SaltyOS.unmapObservers mo)
  := by
  apply keeps_bind keeps_get
  intro k
  apply keeps_forEach
  intro entry _
  apply keeps_forEach
  intro i _
  apply modify
  intro k
  apply SameSlots.clearPte

theorem freePages :
  Quiet (SaltyOS.freePages mo)
  := by
  apply keeps_bind keeps_get
  intro k
  apply keeps_forEach
  intro index _
  apply freeEntry

theorem freeMetadata :
  Quiet (SaltyOS.freeMetadata mo)
  := by
  apply keeps_bind keeps_get
  intro k
  apply keeps_bind
  · apply keeps_forEach
    intro addr _
    apply pmmFree
  intro _
  apply keeps_bind
  · apply modify
    intro k
    apply SameSlots.setMo <;> intro m <;> rfl
  intro _
  apply keeps_bind
  · apply keeps_forEach
    intro page _
    apply pmmFree
  intro _
  apply modify
  intro k
  apply SameSlots.setMo <;> intro m <;> rfl

/-- All memory of a memory object is given back. -/
theorem reclaim :
  Quiet (SaltyOS.reclaim mo)
  := by
  apply keeps_bind (unmapObservers mo)
  intro _
  apply keeps_bind (freePages mo)
  intro _
  apply freeMetadata

end

end Quiet

/-! ## Editing links -/

/-- The states differ in the links of slots only. -/
def LinkEdit (k k' : Kernel) : Prop :=
  ∃ slotMeta, k' = { k with slotMeta } ∧ ∀ s, (slotMeta s).state = (k.slotMeta s).state

instance : IsPreorder Kernel LinkEdit where
  refl k := ⟨k.slotMeta, rfl, fun _ => rfl⟩
  trans k₁ k₂ k₃ h h' := by
    obtain ⟨m, rfl, hm⟩ := h
    obtain ⟨m', rfl, hm'⟩ := h'
    use m', rfl
    intro s
    rw [hm', ← hm]

namespace LinkEdit

variable (k : Kernel)

/-- Links are changed and the state of the slot is not. -/
theorem setMeta {slot : CapSlot} {f : CapSlotMeta → CapSlotMeta} (hf : ∀ m, (f m).state = m.state) :
  LinkEdit k (k.setMeta slot f)
  := by
  use update k.slotMeta slot (f (k.slotMeta slot)), rfl
  intro s
  rw [update_apply]
  split_ifs with h
  · rw [hf, h]
  · rfl

variable {k}

/-- One more edit. -/
theorem andSetMeta {k' : Kernel} {slot : CapSlot} {f : CapSlotMeta → CapSlotMeta}
    (h : LinkEdit k k') (hf : ∀ m, (f m).state = m.state) :
  LinkEdit k (k'.setMeta slot f)
  := by
  apply IsTrans.trans _ _ _ h (setMeta k' hf)

/-- Two ways to edit. -/
theorem ite {k' k'' : Kernel} {c : Prop} [Decidable c] (h : LinkEdit k k') (h' : LinkEdit k k'') :
  LinkEdit k (if c then k' else k'')
  := by
  split
  · apply h
  · apply h'

variable (k)

/-- A slot is taken out of the derivation tree. -/
theorem remove (slot : CapSlot) :
  LinkEdit k (k.remove slot)
  := by
  have unlinked (prev parent next : CapSlot) : LinkEdit k
      (if prev ≠ invalidSlot then k.setMeta prev fun m => { m with cdtNext := next }
      else if parent ≠ invalidSlot then k.setMeta parent fun m => { m with cdtFirstChild := next }
      else k) := by
    apply ite (andSetMeta (refl k) ?_) (ite (andSetMeta (refl k) ?_) (refl k)) <;> intro m <;> rfl
  simp only [Kernel.remove, clearLinks]
  apply andSetMeta (ite (andSetMeta (unlinked ..) ?_) (unlinked ..)) <;> intro m <;> rfl

/-- A slot is linked below another one. -/
theorem insertChild (parent child : CapSlot) :
  LinkEdit k (k.insertChild parent child)
  := by
  simp only [Kernel.insertChild]
  apply andSetMeta (ite (andSetMeta (andSetMeta (andSetMeta (refl k) ?_) ?_) ?_)
    (andSetMeta (andSetMeta (refl k) ?_) ?_)) <;> intro m <;> rfl

/-- A slot is added to the children of an untyped capability. -/
theorem addUtChild (untypedSlot child : CapSlot) :
  LinkEdit k (k.addUtChild untypedSlot child)
  := by
  simp only [Kernel.addUtChild]
  apply andSetMeta (andSetMeta (refl k) ?_) <;> intro m <;> rfl

/-- A slot is taken out of the children of an untyped capability. -/
theorem unlinkUtChild (untypedSlot child prev : CapSlot) :
  LinkEdit k (k.unlinkUtChild untypedSlot child prev)
  := by
  simp only [Kernel.unlinkUtChild]
  apply andSetMeta (ite (andSetMeta (refl k) ?_) (andSetMeta (refl k) ?_)) <;> intro m <;> rfl

end LinkEdit

end SaltyOS
