import SaltyOS.Cap.Destroy

/-!
# The slot table

The allocator of the global slot array, seen from outside: a slot it hands out was free. Every
operation that writes slots, references or objects keeps the tree of memory objects as long as it
stays away from the private slots. The second half of the file deals with invariants that only
concern slots and references. Such an invariant needs no argument about frames, page tables and
counters when an object is destroyed.
-/

namespace SaltyOS

open Function Prog Kernel

/-! ## Allocation -/

/-- The occupied slots are in range and marked in the bitmap. -/
structure SlotTable (k : Kernel) : Prop where
  numSlots : k.numSlots ≤ invalidSlot
  nextSlot : k.nextSlot ≤ k.numSlots
  occupied : ∀ s, (k.slotMeta s).state = .occupied → s < k.numSlots ∧ k.bitmap s = true

namespace SlotTable

variable {k k' : Kernel}
variable {s : CapSlot}

section

variable (h : SlotTable k)
include h

/-- An occupied slot is a slot of the table. -/
theorem ne_invalidSlot (hs : (k.slotMeta s).state = .occupied) :
  s ≠ invalidSlot
  := by
  apply ne_of_lt
  apply lt_of_lt_of_le (h.occupied s hs).1 h.numSlots

/-- The table does not depend on objects. -/
theorem of_sameRefs (hkk' : SameRefs k k') :
  SlotTable k'
  := by
  constructor
  · rw [hkk'.numSlots]
    apply h.numSlots
  · rw [hkk'.nextSlot, hkk'.numSlots]
    apply h.nextSlot
  · rw [hkk'.slotMeta, hkk'.numSlots, hkk'.bitmap]
    apply h.occupied

theorem of_linkEdit (hkk' : LinkEdit k k') :
  SlotTable k'
  := by
  obtain ⟨slotMeta, rfl, hstate⟩ := hkk'
  use h.numSlots, h.nextSlot
  intro s hs
  rw [hstate s] at hs
  apply h.occupied s hs

theorem of_moFrame (hkk' : MoFrame k k') :
  SlotTable k'
  := by
  constructor
  · rw [hkk'.numSlots]
    apply h.numSlots
  · rw [hkk'.numSlots]
    apply hkk'.nextSlot.trans h.nextSlot
  · intro s hs
    obtain ⟨hmeta, hbitmap⟩ | ⟨_, hmeta, _⟩ := hkk'.slot s
    · rw [hmeta] at hs
      rw [hkk'.numSlots, hbitmap]
      apply h.occupied s hs
    · rw [hmeta] at hs
      cases hs

/-- A slot that is freed can be found again. -/
theorem freeSlot (s : CapSlot) :
  SlotTable (k.freeSlot s)
  := by
  constructor
  · rw [freeSlot_numSlots]
    apply h.numSlots
  · rw [freeSlot_numSlots]
    apply le_trans (freeSlot_nextSlot k s) h.nextSlot
  · intro t ht
    rw [freeSlot_numSlots]
    by_cases hts : t = s
    · subst hts
      obtain ⟨hmeta, _⟩ | ⟨hmeta, hbitmap⟩ := freeSlot_self k t
      · rw [hmeta] at ht
        cases ht
      rw [hmeta] at ht
      rw [hbitmap]
      apply h.occupied t ht
    · obtain ⟨hmeta, hbitmap⟩ := freeSlot_of_ne k s hts
      rw [hmeta] at ht
      rw [hbitmap]
      apply h.occupied t ht

/-- A slot that was found is occupied. -/
theorem takeSlot (hs : s < k.numSlots) :
  SlotTable (k.takeSlot s)
  := by
  use h.numSlots, hs
  intro t ht
  simp only [Kernel.takeSlot, update_apply] at ht ⊢
  split_ifs with hts
  · rw [hts]
    exact ⟨hs, rfl⟩
  · rw [if_neg hts] at ht
    apply h.occupied t ht

/-- A slot that is not marked in the bitmap is free. -/
theorem free (hs : k.bitmap s = false) :
  (k.slotMeta s).state = .free
  := by
  cases hstate : (k.slotMeta s).state with
  | free => rfl
  | occupied =>
    rw [(h.occupied s hstate).2] at hs
    cases hs

end

end SlotTable

/-- The search finds a slot of the table that is not in use. -/
theorem findSlot_eq_some {k : Kernel} {s : CapSlot} (hnext : k.nextSlot ≤ k.numSlots)
    (hs : k.findSlot = some s) :
  s < k.numSlots ∧ k.bitmap s = false
  := by
  simp only [findSlot] at hs
  split at hs
  · rename_i i hi
    cases hs
    have hmem := List.mem_of_find?_eq_some hi
    have hfree := List.find?_some hi
    rw [List.mem_range'_1, Nat.add_sub_cancel' hnext] at hmem
    use hmem.2
    simpa using hfree
  · have hmem := List.mem_of_find?_eq_some hs
    have hfree := List.find?_some hs
    rw [List.mem_range] at hmem
    use lt_of_lt_of_le hmem hnext
    simpa using hfree

/-- An allocation takes a slot that was free, or leaves everything alone. -/
theorem allocSlot_sat {k : Kernel} (h : SlotTable k) {Q : CapSlot → Kernel → Prop}
    {E : CapError → Kernel → Prop} {H : Halt → Prop}
    (hok : ∀ s, s < k.numSlots → (k.slotMeta s).state = .free → Q s (k.takeSlot s))
    (herr : E .outOfSlots k) :
  (allocSlot k).Sat Q E H
  := by
  simp only [allocSlot, sat_bind, sat_get]
  cases hfind : k.findSlot with
  | some s =>
    obtain ⟨hlt, hfree⟩ := findSlot_eq_some h.nextSlot hfind
    apply hok s hlt (h.free hfree)
  | none => apply herr

/-! ## The tree of memory objects -/

section CowTree

variable {r : ObjPtr → ℕ} {k k' : Kernel}
variable {s : CapSlot}

section

variable (hk : CowTree r k)
include hk

/-- Slots and capabilities are written that are not private. -/
theorem CowTree.of_slots (hmo : k'.mo = k.mo) (hcnode : k'.cnode = k.cnode)
    (hstate : ∀ s, k.CowSlot s → (k'.slotMeta s).state = (k.slotMeta s).state)
    (hcap : ∀ s, k.CowSlot s → (k'.cap s).object = (k.cap s).object) :
  CowTree r k'
  := by
  apply hk.transfer
  · intro m _
    rw [hmo]
  · intro s hs _
    apply hstate s hs
  · intro s p i _ hs
    rw [hcnode] at hs
    exact ⟨p, i, hs⟩
  · apply hcap
  · intro p x hx
    simpa only [Kernel.OnList, hmo] using hx

theorem CowTree.of_linkEdit (h : LinkEdit k k') :
  CowTree r k'
  := by
  obtain ⟨slotMeta, rfl, hstate⟩ := h
  refine hk.of_slots rfl rfl ?_ fun _ _ => rfl
  intro s _
  apply hstate

/-- Writing a capability that is not a private one, or that names the same object as before. -/
theorem CowTree.setCap {cap : Capability} (hs : k.CowSlot s → cap.object = (k.cap s).object) :
  CowTree r (k.setCap s cap)
  := by
  refine hk.of_slots rfl rfl (fun _ _ => rfl) ?_
  intro t ht
  simp only [Kernel.setCap, update_apply]
  split_ifs with hts
  · rw [hts] at ht ⊢
    apply hs ht
  · rfl

/-- A slot that belongs to no memory object is freed. -/
theorem CowTree.freeSlot (hs : ¬ k.CowSlot s) :
  CowTree r (k.freeSlot s)
  := by
  apply hk.of_slots (freeSlot_mo k s) (freeSlot_cnode k s)
  · intro t ht
    have hts : t ≠ s := by
      rintro rfl
      apply hs ht
    rw [(freeSlot_of_ne k s hts).1]
  · intro t _
    rw [freeSlot_cap]

/-- A free slot is not a private slot. -/
theorem CowTree.not_cowSlot (hs : (k.slotMeta s).state = .free) :
  ¬ k.CowSlot s
  := by
  rintro ⟨m, rfl, hm⟩
  rw [hk.occupied m hm] at hs
  cases hs

/-- A slot that a capability node refers to is not a private slot. -/
theorem CowTree.not_cowSlot_ref (p : ObjPtr) (i : ℕ) :
  ¬ k.CowSlot ((k.cnode p).slots i)
  := by
  rintro ⟨m, hm, hne⟩
  rw [← hm] at hne
  apply hk.unreferenced m p i hne hm.symm

/-- A slot that was free belongs to no memory object. -/
theorem CowTree.takeSlot (hs : (k.slotMeta s).state = .free) :
  CowTree r (k.takeSlot s)
  := by
  refine hk.of_slots rfl rfl ?_ fun _ _ => rfl
  intro t ht
  have hts : t ≠ s := by
    rintro rfl
    apply hk.not_cowSlot hs ht
  simp only [Kernel.takeSlot, update_of_ne hts]

/-- Writing a reference to a slot that is not private. -/
theorem CowTree.setRef {p : ObjPtr} {i : ℕ} (hs : ¬ k.CowSlot s) :
  CowTree r (k.setRef p i s)
  := by
  apply hk.transfer
  · intro m _
    rfl
  · intro t _ _
    rfl
  · intro t q j ht htq
    simp only [Kernel.setRef, update_apply] at htq
    split at htq
    · simp only [update_apply] at htq
      split at htq
      · rw [htq] at hs
        exact absurd ht hs
      · exact ⟨p, j, htq⟩
    · exact ⟨q, j, htq⟩
  · intro t _
    rfl
  · intro q x hx
    apply hx

end

end CowTree

/-! ## New objects -/

section CreateObject

variable (k : Kernel) (obj : ObjPtr) (objType : ObjectType) (sizeBits : ℕ) (isDevice : Bool)
variable (addr : PhysAddr)

@[simp]
theorem Kernel.createObject_cap :
  (k.createObject obj objType sizeBits isDevice addr).cap = k.cap
  := by
  cases objType <;> rfl

@[simp]
theorem Kernel.createObject_slotMeta :
  (k.createObject obj objType sizeBits isDevice addr).slotMeta = k.slotMeta
  := by
  cases objType <;> rfl

@[simp]
theorem Kernel.createObject_bitmap :
  (k.createObject obj objType sizeBits isDevice addr).bitmap = k.bitmap
  := by
  cases objType <;> rfl

@[simp]
theorem Kernel.createObject_nextSlot :
  (k.createObject obj objType sizeBits isDevice addr).nextSlot = k.nextSlot
  := by
  cases objType <;> rfl

@[simp]
theorem Kernel.createObject_numSlots :
  (k.createObject obj objType sizeBits isDevice addr).numSlots = k.numSlots
  := by
  cases objType <;> rfl

theorem Kernel.createObject_header :
  (k.createObject obj objType sizeBits isDevice addr).header =
    update k.header obj (objectHeader objType sizeBits)
  := by
  cases objType <;> rfl

theorem Kernel.createObject_live :
  (k.createObject obj objType sizeBits isDevice addr).live = update k.live obj true
  := by
  cases objType <;> rfl

/-- A new capability node is empty. -/
theorem Kernel.createObject_cnode :
  (k.createObject obj objType sizeBits isDevice addr).cnode =
    if objType = .cnode then update k.cnode obj CNode.empty else k.cnode
  := by
  cases objType <;> rfl

/-- The links of the memory objects are those before, or are null. -/
theorem Kernel.createObject_mo (m : ObjPtr) :
  (k.createObject obj objType sizeBits isDevice addr).mo m = k.mo m ∨ ∃ phys pageCount,
      (k.createObject obj objType sizeBits isDevice addr).mo m = MemoryObject.new phys pageCount
  := by
  by_cases htype : objType = .memoryObject
  · subst htype
    by_cases hm : m = obj
    · subst hm
      right
      exact ⟨_, _, update_self ..⟩
    · left
      exact update_of_ne hm _ _
  · left
    cases objType <;> first | rfl | exact absurd rfl htype

variable {k obj objType sizeBits isDevice addr}

/-- A new object is outside of the table. -/
theorem SlotTable.createObject (h : SlotTable k) :
  SlotTable (k.createObject obj objType sizeBits isDevice addr)
  := by
  constructor
  · rw [createObject_numSlots]
    apply h.numSlots
  · rw [createObject_nextSlot, createObject_numSlots]
    apply h.nextSlot
  · simp only [createObject_slotMeta, createObject_numSlots, createObject_bitmap]
    apply h.occupied

/-- A new memory object has no parent and no children. -/
theorem CowTree.createObject {r : ObjPtr → ℕ} (hk : CowTree r k) (h : SlotTable k) :
  CowTree r (k.createObject obj objType sizeBits isDevice addr)
  := by
  have hmo := createObject_mo k obj objType sizeBits isDevice addr
  apply hk.transfer
  · intro m hm
    obtain heq | ⟨phys, pageCount, heq⟩ := hmo m
    · rw [heq]
    · rw [heq] at hm
      exact absurd rfl hm
  · intro s _ _
    rw [createObject_slotMeta]
  · rintro s p i ⟨m, rfl, hm⟩ href
    rw [createObject_cnode] at href
    split at href
    · rw [update_apply] at href
      split at href
      · have hne := h.ne_invalidSlot (hk.occupied m hm)
        exact absurd href.symm hne
      · exact ⟨p, i, href⟩
    · exact ⟨p, i, href⟩
  · intro s _
    rw [createObject_cap]
  · intro p x
    apply Follows.of_shortcut
    · intro hne
      obtain heq | ⟨phys, pageCount, heq⟩ := hmo p
      · rw [heq] at hne ⊢
        apply Follows.start hne
      · rw [heq] at hne
        exact absurd rfl hne
    · intro m hm hne
      obtain heq | ⟨phys, pageCount, heq⟩ := hmo m
      · rw [heq] at hne ⊢
        apply Follows.step m (Follows.start hm) hne
      · rw [heq] at hne
        exact absurd rfl hne

end CreateObject

/-! ## Invariants of slots and references -/

/-- The specification does not look at anything that quiet programs change, and it uses the tree of
memory objects for their destruction. -/
structure DeletionSpec.OfSlots (S : DeletionSpec) (r : ObjPtr → ℕ) : Prop where
  preorder : IsPreorder Kernel S.rel
  halts : ∀ h, S.halts h
  sameSlots : ∀ {k k'}, S.inv k → SameSlots k k' → S.inv k' ∧ S.rel k k'
  tree : ∀ {k}, S.inv k → CowTree r k
  moFrame : ∀ {k k'}, S.inv k → CowTree r k' → MoFrame k k' → S.inv k' ∧ S.rel k k'
  moInv_eq : S.moInv = CowTree r
  moRel_eq : S.moRel = fun m => MoStep r (r m)
  siblingRel_eq : S.siblingRel = SameRefs

namespace DeletionSpec.OfSlots

variable {S : DeletionSpec} {r : ObjPtr → ℕ} (h : S.OfSlots r)
variable {call : Call → KProc Unit}

include h

/-- A program that leaves slots and references alone keeps an invariant of them. -/
theorem quiet {α : Type} {m : KProc α} (hm : Quiet m) :
  S.Keeps m
  := by
  intro k hk
  apply (hm k trivial).imp_state _ fun r _ => h.halts r
  intro k' hk'
  apply h.sameSlots hk hk'.2

theorem freeFrames (frames : List PhysAddr) (owner : FrameOwner) {k : Kernel} {obj : ObjPtr}
    (hk : S.inv k) :
  S.KeepsAt (k.kill obj) (forEach frames fun addr => pmmFree addr owner)
  := by
  have hdead := (h.sameSlots hk (SameSlots.kill k obj)).1
  apply h.quiet _ _ hdead
  apply keeps_forEach
  intro addr _
  apply Quiet.pmmFree

/-- The frames of the stacks of a thread go back to the allocator. -/
theorem kernelStacks (tcb : ObjPtr) :
  S.Keeps (freeStacks tcb)
  := by
  apply h.quiet
  apply keeps_bind keeps_get
  intro k
  have clear : ∀ f : Tcb → Tcb, Quiet (Prog.modify fun k => k.setTcb tcb f : KProc Unit) := by
    intro f
    apply Quiet.modify
    intro k
    apply SameSlots.setTcb
  apply keeps_bind
  · apply keeps_when
    intro _
    apply keeps_bind
    · apply keeps_forEach
      intro addr _
      apply Quiet.pmmFree
    · intro _
      apply clear
  · intro _
    apply keeps_when
    intro _
    apply keeps_bind (Quiet.pmmFree _ _)
    intro _
    apply clear

theorem cowCalls (hcall : S.Meets call) :
  CowCalls r call
  := by
  constructor
  · intro m hm
    have hkeeps : Prog.Keeps S.moInv (S.moRel m) S.halts (call (.moDestroy m)) :=
      fun k hk => hcall _ k ⟨hk, hm⟩
    rw [h.moInv_eq, h.moRel_eq] at hkeeps
    intro k hk
    apply (hkeeps k hk).mono (fun _ _ => id) (fun _ _ => id) fun _ _ => trivial
  · intro child prev hchild
    have hkeeps : Prog.Keeps S.moInv S.siblingRel S.halts (call (.removeSibling child prev)) :=
      fun k hk => hcall _ k ⟨hk, hchild⟩
    rw [h.moInv_eq, h.siblingRel_eq] at hkeeps
    intro k hk
    apply (hkeeps k hk).mono (fun _ _ => id) (fun _ _ => id) fun _ _ => trivial

/-- A memory object is destroyed with the links of the tree repaired. -/
theorem moDestroy_keeps {mo : ObjPtr} (hcall : S.Meets call) (hmo : mo ≠ .null) :
  Prog.Keeps S.moInv (S.moRel mo) S.halts (moDestroy call mo)
  := by
  rw [h.moInv_eq, h.moRel_eq]
  intro k hk
  apply (SaltyOS.moDestroy_keeps (h.cowCalls hcall) hmo k hk).mono (fun _ _ => id) (fun _ _ => id)
  intro r _
  exact h.halts r

/-- A memory object is looked for among its siblings. -/
theorem removeSibling_keeps {child prev : ObjPtr} (hcall : S.Meets call) (hchild : child ≠ .null) :
  Prog.Keeps S.moInv S.siblingRel S.halts (removeSibling call child prev)
  := by
  rw [h.moInv_eq, h.siblingRel_eq]
  intro k hk
  apply (SaltyOS.removeSibling_keeps (h.cowCalls hcall) hchild k hk).mono (fun _ _ => id) (fun _ _ => id)
  intro r _
  exact h.halts r

/-- Nothing is left to show about memory and bookkeeping. -/
theorem sound {allow : Call → Kernel → Bool} (hslots : S.SlotSound allow) :
  S.Sound allow
  := by
  refine ⟨hslots, ?_, h.preorder⟩
  constructor
  · apply h.halts
  · apply h.halts
  · intro k k' hk hkk'
    apply h.sameSlots hk hkk'.sameSlots
  · intro k obj hk _
    apply h.freeFrames _ _ hk
  · intro k obj hk _
    apply h.freeFrames _ _ hk
  · apply h.kernelStacks
  · intro k hk
    rw [h.moInv_eq]
    apply h.tree hk
  · intro k k' mo hk hk' hstep
    rw [h.moInv_eq] at hk'
    rw [h.moRel_eq] at hstep
    apply h.moFrame hk hk' hstep.toMoFrame
  · intro call k mo hcall hk hmo _
    apply h.moDestroy_keeps hcall hmo k hk
  · intro call child prev
    apply h.removeSibling_keeps

end DeletionSpec.OfSlots

/-! ## Programs that look something up -/

section Lookup

variable {Q : CapSlot → Kernel → Prop} {E : CapError → Kernel → Prop} {H : Halt → Prop}
variable {k : Kernel}
variable {cnode : ObjPtr}

/-- Looking up a source changes nothing. -/
theorem sourceSlot_sat {srcCnode : ObjPtr} {dest src : ℕ}
    (hok : ∀ s, k.getRef srcCnode src = some s → Q s k) (herr : ∀ err, E err k) :
  (sourceSlot cnode dest srcCnode src k).Sat Q E H
  := by
  simp only [sourceSlot, sat_bind, sat_get]
  split
  · apply herr
  split
  · apply herr
  cases hget : k.getRef srcCnode src with
  | none => apply herr
  | some s => apply hok s hget

/-- The slot at a reference. -/
theorem untypedSlotOf_sat {index : ℕ} (hok : ∀ s, k.getRef cnode index = some s → Q s k)
    (herr : ∀ err, E err k) :
  (untypedSlotOf cnode index k).Sat Q E H
  := by
  simp only [untypedSlotOf, sat_bind, sat_get]
  cases hget : k.getRef cnode index with
  | none => apply herr
  | some s => apply hok s hget

/-- A reference is inserted, or nothing is changed. -/
theorem insertRef_sat {Q : Unit → Kernel → Prop} {index : ℕ} {s : CapSlot}
    (hok : Q () (k.setRef cnode index s)) (herr : ∀ err, E err k) :
  (insertRef cnode index s k).Sat Q E H
  := by
  simp only [insertRef, sat_bind, sat_get]
  split
  · apply herr
  split
  · apply herr
  · apply hok

/-- An untyped region is carved from only with the right to do so. -/
theorem untypedForRetype_sat {Q : ObjPtr → Kernel → Prop} {s : CapSlot}
    (hok : (k.cap s).objType = .untyped → (k.cap s).hasRight CapRights.retype = true →
      Q (k.cap s).object k) (herr : ∀ err, E err k) :
  (untypedForRetype s k).Sat Q E H
  := by
  simp only [untypedForRetype, sat_bind, sat_get]
  split
  · apply herr
  rename_i htype
  split_ifs with hright
  · apply herr
  rw [Bool.not_eq_false] at hright
  apply hok _ hright
  by_contra hne
  apply htype (.inl hne)

variable {I : Kernel → Prop} {index : ℕ}

/-- The rule for `UNTYPED_RETYPE`, given that of carving from the region at hand. -/
theorem untypedRetype_sat {newType : ObjectType} {sizeBits destIndex : ℕ} {destCnode : ObjPtr}
    (hk : I k) (h : ∀ s, k.getRef cnode index = some s → (k.cap s).objType = .untyped →
      newType ≠ .null →
      (retype (k.cap s).object s newType (sizeBits % 2 ^ 8) 1 destCnode destIndex k).Sat
      (fun _ => I) (fun _ => I) H) :
  (untypedRetype cnode index newType sizeBits destCnode destIndex k).Sat (fun _ => I) (fun _ => I) H
  := by
  rw [untypedRetype, sat_bind]
  apply untypedSlotOf_sat _ fun _ => hk
  intro s hs
  rw [sat_bind]
  apply untypedForRetype_sat _ fun _ => hk
  intro htype _
  split_ifs with hnull
  · apply hk
  · apply h s hs htype hnull

/-- The rule for `UNTYPED_RESET`. -/
theorem untypedReset_sat (hk : I k) (h : ∀ s, k.getRef cnode index = some s →
      I (k.setUntyped (k.cap s).object fun ut => { ut with watermark := 0 })) :
  (untypedReset cnode index k).Sat (fun _ => I) (fun _ => I) H
  := by
  rw [untypedReset, sat_bind]
  apply untypedSlotOf_sat _ fun _ => hk
  intro s hs
  rw [sat_bind]
  apply untypedForRetype_sat _ fun _ => hk
  intro _ _
  rw [sat_bind, sat_get]
  split
  · apply hk
  · apply h s hs

end Lookup

/-! ## The loop of retype -/

section Retype

variable {I : Kernel → Prop} {R : Kernel → Kernel → Prop} {H : Halt → Prop}
variable [IsPreorder Kernel R]
variable {region : ObjPtr} {newType : ObjectType}

section

variable (hset : ∀ f, Prog.Keeps I R H (Prog.modify fun k => k.setUntyped region f : KProg Unit))
include hset

/-- The watermark of the region is all that changes. -/
theorem alignWatermark_keeps {objSize total : ℕ} :
  Prog.Keeps I R H (alignWatermark region newType objSize total)
  := by
  apply keeps_bind keeps_get
  intro k
  apply keeps_ite fun _ => keeps_pure
  intro _
  split
  · apply keeps_throw
  apply keeps_bind (hset _)
  intro _
  apply keeps_bind keeps_get
  intro k
  apply keeps_ite fun _ => keeps_throw
  intro _
  apply keeps_pure

/-- Carving objects keeps an invariant if carving one object does, and if the invariant does not
depend on watermarks. -/
theorem retype_keeps {destCnode : ObjPtr} {untypedSlot : CapSlot}
    {sizeBits numObjects destOffset : ℕ} (hone : ∀ offset destIndex, Prog.Keeps I R H
      (retypeOne region untypedSlot newType sizeBits offset destCnode destIndex)) :
  Prog.Keeps I R H (retype region untypedSlot newType sizeBits numObjects destCnode destOffset)
  := by
  apply keeps_bind keeps_get
  intro k
  apply keeps_ite fun _ => keeps_throw
  intro _
  split
  · apply keeps_throw
  apply keeps_ite fun _ => keeps_throw
  intro _
  apply keeps_ite fun _ => keeps_throw
  intro _
  apply keeps_ite fun _ => keeps_throw
  intro _
  apply keeps_bind (alignWatermark_keeps hset)
  intro _
  apply keeps_bind keeps_get
  intro k
  apply keeps_bind
  · apply keeps_forEach
    intro i _
    apply hone
  · intro _
    apply hset

end

end Retype

end SaltyOS
