import SaltyOS.Cap.Cdt
import SaltyOS.Cap.NoStaleRef

/-!
# Runs keep the derivation tree a forest

Each operation of the capability system keeps the invariant of the derivation tree, and acts on the
capability space by the steps of `CapSpace.Step`.
-/

namespace SaltyOS

open Function Relation Kernel

/-- The capability space of the second state is reached from that of the first one. -/
def SpaceRun (ok : CapRights → CapRights → Prop) (k k' : Kernel) : Prop :=
  ReflTransGen (CapSpace.Step ok) k.capSpace k'.capSpace

instance (ok : CapRights → CapRights → Prop) : IsPreorder Kernel (SpaceRun ok) where
  refl _ := ReflTransGen.refl
  trans _ _ _ h h' := ReflTransGen.trans h h'

/-- Nothing happens to the capabilities. -/
theorem SpaceRun.of_eq {ok : CapRights → CapRights → Prop} {k k' : Kernel}
    (h : k'.capSpace = k.capSpace) :
  SpaceRun ok k k'
  := by
  rw [SpaceRun, h]

theorem SameSlots.capSpace {k k' : Kernel} (h : SameSlots k k') :
  k'.capSpace = k.capSpace
  := by
  simp only [Kernel.capSpace, h.cap, h.slotMeta]

/-! ## A slot that has just been allocated -/

/-- The slot has been allocated and has no links yet. -/
structure HeldLeaf (r : ObjPtr → ℕ) (s : CapSlot) (k : Kernel) : Prop where
  inv : CdtInv r k
  isolated : k.Isolated s
  occupied : (k.slotMeta s).state = .occupied
  notCow : ¬ k.CowSlot s
  spare : (k.cap s).Spare

/-- The state `k'` is reached from `k`. -/
structure Reached (ok : CapRights → CapRights → Prop) (r : ObjPtr → ℕ) (k k' : Kernel) : Prop where
  inv : CdtInv r k'
  run : SpaceRun ok k k'

/-- The state `k'` is reached from `k`, with a slot that has been allocated. -/
structure HeldFrom (ok : CapRights → CapRights → Prop) (r : ObjPtr → ℕ) (s : CapSlot)
    (k k' : Kernel) : Prop where
  held : HeldLeaf r s k'
  run : SpaceRun ok k k'

section HeldLeaf

variable {ok : CapRights → CapRights → Prop} {r : ObjPtr → ℕ} {k k' : Kernel} {s : CapSlot}

/-- A slot that was taken is a leaf of its own. -/
theorem CdtInv.takeSlot (hk : CdtInv r k) (hs : s < k.numSlots) (hfree : (k.slotMeta s).state = .free) :
  HeldFrom ok r s k (k.takeSlot s)
  := by
  obtain ⟨children, rank, hforest⟩ := hk.forest
  have hisolated := hforest.free s hfree
  have hmeta : ∀ t, (k.takeSlot s).slotMeta t =
      if t = s then CapSlotMeta.occupied else k.slotMeta t := by
    intro t
    simp only [Kernel.takeSlot, update_apply]
  have hlinks : ∀ t, ((k.takeSlot s).slotMeta t).links = (k.slotMeta t).links := by
    intro t
    rw [hmeta]
    split_ifs with hts
    · rw [hts, isolated_iff.mp hisolated]
      rfl
    · rfl
  have hstate : ∀ t, ((k.takeSlot s).slotMeta t).state = .free → (k.slotMeta t).state = .free := by
    intro t
    rw [hmeta]
    split
    · intro h
      cases h
    · apply id
  have hinv : CdtInv r (k.takeSlot s) := by
    refine ⟨hk.tree.takeSlot hfree, hk.table.takeSlot hs, ⟨children, rank, ?_⟩, ?_, ?_⟩
    · apply hforest.of_links hlinks
      intro t ht
      left
      apply hstate t ht
    · intro t ht
      apply (hk.isolated t ht).of_links (hlinks t)
    · intro t ht
      apply hk.spare t
      obtain ht | ht := ht
      · left
        apply ht
      · right
        apply hstate t ht
  constructor
  · refine ⟨hinv, hisolated.of_links (hlinks s), ?_, hk.tree.not_cowSlot hfree, hk.spare s (.inr hfree)⟩
    rw [hmeta, if_pos rfl]
    rfl
  · apply ReflTransGen.single
    have heq : (k.takeSlot s).capSpace =
        { k.capSpace with occupied := update k.capSpace.occupied s True } := by
      simp only [Kernel.capSpace, CapSpace.mk.injEq]
      refine ⟨rfl, ?_, ?_⟩
      · funext t
        exact congrArg Prod.fst (hlinks t)
      funext t
      rw [hmeta, update_apply]
      split
      · apply eq_true
        rfl
      · rfl
    rw [heq]
    apply CapSpace.Step.alloc

namespace HeldLeaf

variable (h : HeldLeaf r s k)

include h

theorem ne_invalidSlot :
  s ≠ invalidSlot
  := h.inv.table.ne_invalidSlot h.occupied

/-- The capability in the slot may be written. -/
theorem setCap (cap : Capability) :
  CdtInv r (k.setCap s cap)
  := by
  apply h.inv.setCap
  · intro hcow
    exact absurd hcow h.notCow
  rintro (hcow | hfree)
  · exact absurd hcow h.notCow
  · rw [h.occupied] at hfree
    cases hfree

theorem of_sameSlots (hkk' : SameSlots k k') :
  HeldLeaf r s k'
  := by
  refine ⟨(h.inv.of_sameSlots hkk').1, ?_, ?_, ?_, ?_⟩
  · apply h.isolated.of_links
    rw [hkk'.slotMeta]
  · rw [hkk'.slotMeta]
    apply h.occupied
  · rintro ⟨m, hm, hne⟩
    rw [hkk'.cowParent] at hm
    apply h.notCow ⟨m, hm, hne⟩
  · rw [hkk'.cap]
    apply h.spare

/-- A new object does not touch the slot. -/
theorem createObject {obj : ObjPtr} {objType : ObjectType} {sizeBits : ℕ} {isDevice : Bool}
    {addr : PhysAddr} :
  HeldLeaf r s (k.createObject obj objType sizeBits isDevice addr)
  := by
  have hcow : ∀ t, (k.createObject obj objType sizeBits isDevice addr).CowSlot t → k.CowSlot t := by
    rintro t ⟨m, hm, ht⟩
    obtain heq | ⟨_, _, heq⟩ := createObject_mo k obj objType sizeBits isDevice addr m
    · rw [heq] at hm
      exact ⟨m, hm, ht⟩
    · rw [heq] at hm
      exact absurd hm.symm ht
  have hmeta := createObject_slotMeta k obj objType sizeBits isDevice addr
  obtain ⟨children, rank, hforest⟩ := h.inv.forest
  constructor
  · refine ⟨h.inv.tree.createObject h.inv.table, h.inv.table.createObject,
      ⟨children, rank, hforest.of_slotMeta hmeta⟩, ?_, ?_⟩
    · intro t ht
      apply (h.inv.isolated t (hcow t ht)).of_links
      rw [hmeta]
    · intro t ht
      rw [createObject_cap]
      rw [hmeta] at ht
      apply h.inv.spare t
      apply ht.imp_left (hcow t)
  · apply h.isolated.of_links
    rw [hmeta]
  · rw [hmeta]
    apply h.occupied
  · intro hs
    apply h.notCow (hcow s hs)
  · rw [createObject_cap]
    apply h.spare

/-- A capability that is linked below another one. -/
theorem link {src : CapSlot} (hsrc : ¬ (k.cap src).Spare) (cap : Capability) :
  CdtInv r ((k.setCap s cap).insertChild src s) ∧ ((k.setCap s cap).insertChild src s).capSpace =
      { k.capSpace with
        cap := update k.capSpace.cap s cap
        parent := update k.capSpace.parent s src }
  := by
  obtain ⟨hoccupied, hcow⟩ := occupied_of_not_spare h.inv hsrc
  have hne : src ≠ s := by
    rintro rfl
    apply hsrc h.spare
  have hk := h.setCap cap
  have hisolated : (k.setCap s cap).Isolated s := by
    apply h.isolated.of_links
    rfl
  obtain ⟨children, rank, hforest⟩ := hk.forest
  have hedit := LinkEdit.insertChild (k.setCap s cap) src s
  have hfields : ((k.setCap s cap).insertChild src s).cap = (k.setCap s cap).cap ∧
      ((k.setCap s cap).insertChild src s).mo = k.mo := by
    obtain ⟨slotMeta, heq, _⟩ := hedit
    rw [heq]
    exact ⟨rfl, rfl⟩
  have hcows : ∀ t, ((k.setCap s cap).insertChild src s).CowSlot t → k.CowSlot t := by
    intro t
    simp only [Kernel.CowSlot, hfields.2]
    apply id
  constructor
  · refine ⟨hk.tree.of_linkEdit hedit, hk.table.of_linkEdit hedit, ?_, ?_, ?_⟩
    · exact ⟨_, _, hforest.insertChild hisolated h.occupied hoccupied hne h.ne_invalidSlot
        (h.inv.table.ne_invalidSlot hoccupied)⟩
    · intro t ht
      have hts : t ≠ s := by
        rintro rfl
        apply h.notCow (hcows t ht)
      have htsrc : t ≠ src := by
        rintro rfl
        apply hcow (hcows t ht)
      apply hforest.isolated_insertChild hisolated h.ne_invalidSlot (hk.isolated t _) hts htsrc
      apply hcows t ht
    · intro t ht
      rw [hfields.1]
      apply hk.spare t
      rw [insertChild_state] at ht
      obtain ht | ht := ht
      · left
        apply hcows t ht
      · right
        apply ht
  · simp only [Kernel.capSpace, CapSpace.mk.injEq]
    refine ⟨hfields.1, ?_, ?_⟩
    · funext t
      rw [insertChild_cdtParent, update_apply]
      rfl
    · funext t
      rw [insertChild_state]
      rfl

end HeldLeaf

end HeldLeaf

/-! ## Reaching states -/

section Reached

variable {ok : CapRights → CapRights → Prop} {r : ObjPtr → ℕ} {k k₁ k₂ : Kernel} {s : CapSlot}
variable {src : CapSlot}

theorem Reached.refl (hk : CdtInv r k) :
  Reached ok r k k
  := ⟨hk, ReflTransGen.refl⟩

section

variable (h : Reached ok r k k₁)
include h

theorem Reached.trans (h' : Reached ok r k₁ k₂) :
  Reached ok r k k₂
  := ⟨h'.inv, h.run.trans h'.run⟩

theorem Reached.of_sameSlots (hsame : SameSlots k₁ k₂) :
  Reached ok r k k₂
  := ⟨(h.inv.of_sameSlots hsame).1, h.run.trans (SpaceRun.of_eq hsame.capSpace)⟩

/-- Deleting capabilities is a step of the space. -/
theorem Reached.of_pruned (hk₂ : CdtInv r k₂) (hpruned : Pruned k₁ k₂) :
  Reached ok r k k₂
  := ⟨hk₂, h.run.tail (hpruned.step hk₂)⟩

/-- Writing a reference does not touch the derivation tree. -/
theorem Reached.setRef (cnode : ObjPtr) (index : ℕ) (hs : ¬ k₁.CowSlot s) :
  Reached ok r k (k₁.setRef cnode index s)
  := by
  obtain ⟨children, rank, hforest⟩ := h.inv.forest
  refine ⟨⟨h.inv.tree.setRef hs, ?_, ⟨children, rank, hforest.of_slotMeta rfl⟩, ?_, h.inv.spare⟩, h.run⟩
  · exact ⟨h.inv.table.numSlots, h.inv.table.nextSlot, h.inv.table.occupied⟩
  intro t ht
  apply (h.inv.isolated t ht).of_links
  rfl

/-- Clearing a reference. -/
theorem Reached.clearRef (cnode : ObjPtr) (index : ℕ) :
  Reached ok r k (k₁.setRef cnode index invalidSlot)
  := by
  apply h.setRef
  rintro ⟨m, hm, hne⟩
  rw [← hm] at hne
  apply h.inv.table.ne_invalidSlot (h.inv.tree.occupied m hne) hm

/-- Changing a badge. -/
theorem Reached.setBadge (badge : ℕ) :
  Reached ok r k (k₁.setCap s { k₁.cap s with badge })
  := by
  constructor
  · apply h.inv.setCap
    · intro _
      rfl
    intro hs
    obtain ⟨hgrant, hretype, htype⟩ := h.inv.spare s hs
    exact ⟨hgrant, hretype, htype⟩
  · apply h.run.tail
    apply CapSpace.Step.badge s badge

end

section

variable (h : HeldFrom ok r s k k₁)
include h

theorem HeldFrom.of_sameSlots (hsame : SameSlots k₁ k₂) :
  HeldFrom ok r s k k₂
  := ⟨h.held.of_sameSlots hsame, h.run.trans (SpaceRun.of_eq hsame.capSpace)⟩

theorem HeldFrom.createObject (obj : ObjPtr) (objType : ObjectType) (sizeBits : ℕ)
    (isDevice : Bool) (addr : PhysAddr) :
  HeldFrom ok r s k (k₁.createObject obj objType sizeBits isDevice addr)
  := by
  refine ⟨h.held.createObject, h.run.trans (SpaceRun.of_eq ?_)⟩
  simp only [Kernel.capSpace, createObject_cap, createObject_slotMeta]

/-- The slot is given back. -/
theorem HeldFrom.freeSlot :
  Reached ok r k (k₁.freeSlot s)
  := by
  obtain ⟨hinv, hpruned⟩ := h.held.inv.freeSlot h.held.isolated h.held.notCow h.held.spare
  exact ⟨hinv, h.run.tail (hpruned.step hinv)⟩

/-- A capability that is not derived from another one. -/
theorem HeldFrom.write (cap : Capability)
    (hroot : cap.objType = .untyped → ∃ n, cap.object = .static n) :
  Reached ok r k (k₁.setCap s cap)
  := by
  refine ⟨h.held.setCap cap, h.run.tail ?_⟩
  apply CapSpace.Step.write s cap (h.held.inv.isolated_capSpace h.held.isolated) hroot
  left
  apply h.held.occupied

/-- A derived capability. -/
theorem HeldFrom.derive {rights : CapRights} {badge : ℕ} (hsrc : ¬ (k₁.cap src).Spare)
    (hok : ok (k₁.cap src).rights rights) :
  Reached ok r k ((k₁.setCap s
    { k₁.cap src with rights, badge, depth := (k₁.cap src).depth + 1 }).insertChild src s)
  := by
  obtain ⟨hinv, heq⟩ := h.held.link hsrc
    { k₁.cap src with rights, badge, depth := (k₁.cap src).depth + 1 }
  obtain ⟨hoccupied, _⟩ := occupied_of_not_spare h.held.inv hsrc
  refine ⟨hinv, h.run.tail ?_⟩
  rw [heq]
  apply CapSpace.Step.derive src s rights badge (h.held.inv.isolated_capSpace h.held.isolated) _
    (h.held.inv.table.ne_invalidSlot hoccupied) hoccupied h.held.occupied hok
  rintro rfl
  apply hsrc h.held.spare

/-- A capability to a carved object. -/
theorem HeldFrom.carve (hsrc : ¬ (k₁.cap src).Spare) (huntyped : (k₁.cap src).objType = .untyped)
    (newType : ObjectType) (addr : PhysAddr) :
  Reached ok r k ((k₁.setCap s
    { object := objectPtr newType s addr, objType := newType, rights := CapRights.all, depth := 0,
      badge := 0 }).insertChild src s)
  := by
  obtain ⟨hinv, heq⟩ := h.held.link hsrc
    { object := objectPtr newType s addr, objType := newType, rights := CapRights.all, depth := 0,
      badge := 0 }
  obtain ⟨hoccupied, _⟩ := occupied_of_not_spare h.held.inv hsrc
  refine ⟨hinv, h.run.tail ?_⟩
  rw [heq]
  apply CapSpace.Step.carve src s newType addr (h.held.inv.isolated_capSpace h.held.isolated) _
    (h.held.inv.table.ne_invalidSlot hoccupied) hoccupied h.held.occupied huntyped
  rintro rfl
  apply hsrc h.held.spare

end

end Reached

/-! ## Operations -/

section Operations

variable {ok : CapRights → CapRights → Prop} {r : ObjPtr → ℕ} {k k₁ : Kernel} {s : CapSlot}

/-- Whatever a program does, it reaches a state from `k`. -/
abbrev Reaches (ok : CapRights → CapRights → Prop) (r : ObjPtr → ℕ) (k : Kernel) {ε α : Type}
    (o : Outcome Kernel ε α) : Prop :=
  o.Sat (fun _ => Reached ok r k) (fun _ => Reached ok r k) fun _ => True

theorem CdtInv.held (hk : CdtInv r k) (hs : k.findSlot = some s) :
  HeldFrom ok r s k (k.takeSlot s)
  := by
  obtain ⟨hlt, hbitmap⟩ := findSlot_eq_some hk.table.nextSlot hs
  apply hk.takeSlot hlt (hk.table.free hbitmap)

theorem mo_derived {src : CapSlot} {rights : CapRights} {badge : ℕ} :
  (k.derived src s rights badge).mo = k.mo
  := by
  have hcount : ∀ (k : Kernel) obj, (k.incrementRefcount obj).mo = k.mo := by
    intro k obj
    simp only [incrementRefcount]
    split <;> rfl
  obtain ⟨slotMeta, heq, _⟩ := LinkEdit.insertChild ((k.takeSlot s).setCap s
    { k.cap src with rights, badge, depth := (k.cap src).depth + 1 }) src s
  rw [derived, hcount, heq]
  rfl

/-- A derived capability with a reference to it. -/
theorem CdtInv.derived (hk : CdtInv r k) (hs : k.findSlot = some s) {src : CapSlot}
    {rights : CapRights} {badge : ℕ} (hgrant : (k.cap src).hasRight CapRights.grant = true)
    (hok : ok (k.cap src).rights rights) (cnode : ObjPtr) (dest : ℕ) :
  Reached ok r k ((k.derived src s rights badge).setRef cnode dest s)
  := by
  have held : HeldFrom ok r s k (k.takeSlot s) := hk.held hs
  have hsrc : ¬ (k.cap src).Spare := by
    intro hspare
    rw [hspare.grant] at hgrant
    cases hgrant
  have hderive : Reached ok r k (k.derived src s rights badge) :=
    (held.derive hsrc hok).of_sameSlots (SameSlots.incrementRefcount _ (k.cap src).object)
  apply hderive.setRef
  rw [Kernel.CowSlot, mo_derived]
  apply held.held.notCow

/-- A slot with a reference is not the private slot of a memory object. -/
theorem not_cowSlot_of_getRef {cnode : ObjPtr} {index : ℕ} (hk : CdtInv r k)
    (h : k.getRef cnode index = some s) :
  ¬ k.CowSlot s
  := by
  simp only [getRef] at h
  split at h
  · cases h
    apply hk.tree.not_cowSlot_ref
  · cases h

/-- What is known after a call, for a state that is reached from the one it leaves behind. -/
theorem Reached.after {m : KProc Unit} {f : Kernel → Kernel} (h : Reached ok r k k₁)
    (hm : (cdtSpec r).KeepsAt k₁ m) (hf : ∀ k', Reached ok r k k' → Reached ok r k (f k')) :
  (m k₁).Sat (fun _ k' => Reached ok r k (f k')) (fun _ _ => True) fun _ => True
  := by
  apply hm.mono _ (fun _ _ _ => trivial) fun _ _ => trivial
  intro _ k' hk'
  apply hf k' (h.of_pruned hk'.1 hk'.2)

/-- The recursive procedures meet the specification. -/
theorem meets_invoke (fuel : ℕ) :
  (cdtSpec r).Meets (invoke deletesLeaves fuel)
  := DeletionSpec.invoke_sat cdtSpec_sound fuel

/-- A reply capability is isolated. -/
theorem CdtInv.saved (hk : CdtInv r k) (hs : k.findSlot = some s) (cnode : ObjPtr) (index : ℕ)
    (tcb : ObjPtr) :
  Reached ok r k (k.saved s cnode index tcb)
  := by
  have held : HeldFrom ok r s k _ :=
    (hk.held hs).of_sameSlots (SameSlots.incrementRefcount _ (k.tcb tcb).replyTcb)
  have hwrite := held.write
    { object := (k.tcb tcb).replyTcb, objType := .tcb, rights := CapRights.reply, badge := 0,
      depth := 0 } nofun
  apply (hwrite.setRef cnode index held.held.notCow).of_sameSlots
  apply SameSlots.setTcb _ tcb fun t => { t with replyTcb := .null }

end Operations

/-! ## Carving -/

/-- Objects may be carved with the capability in the slot. -/
structure Carvable (r : ObjPtr → ℕ) (ut : CapSlot) (k : Kernel) : Prop where
  inv : CdtInv r k
  notSpare : ¬ (k.cap ut).Spare
  untyped : (k.cap ut).objType = .untyped

section Carving

variable {ok : CapRights → CapRights → Prop} {r : ObjPtr → ℕ} {k k' : Kernel} {ut : CapSlot}
variable {region destCnode cnode : ObjPtr} {newType : ObjectType} {sizeBits destIndex : ℕ}

/-- The untyped capability is still there. -/
theorem Carvable.of_cap (h : Carvable r ut k) (hk' : CdtInv r k') (hcap : k'.cap ut = k.cap ut) :
  Carvable r ut k'
  := by
  refine ⟨hk', ?_, ?_⟩
  · rw [hcap]
    apply h.notSpare
  · rw [hcap]
    apply h.untyped

/-- A capability to a carved object is linked below the untyped capability. -/
theorem Carvable.carve {s : CapSlot} (h : Carvable r ut k') (held : HeldFrom ok r s k k')
    (newType : ObjectType) (addr : PhysAddr) :
  let k₁ := ((k'.setCap s
    { object := objectPtr newType s addr, objType := newType, rights := CapRights.all, depth := 0,
      badge := 0 }).insertChild ut s).addUtChild ut s
  Reached ok r k k₁ ∧ Carvable r ut k₁ ∧ ¬ k₁.CowSlot s
  := by
  intro k₁
  have hlinked := held.carve h.notSpare h.untyped newType addr
  obtain ⟨hinv, hpruned⟩ := hlinked.inv.addUtChild ut s
  have hne : ut ≠ s := by
    rintro rfl
    apply h.notSpare held.held.spare
  have hedit : LinkEdit (k'.setCap s _) k₁ :=
    IsTrans.trans _ _ _ (LinkEdit.insertChild _ ut s) (LinkEdit.addUtChild _ ut s)
  obtain ⟨slotMeta, heq, _⟩ := hedit
  refine ⟨hlinked.of_pruned hinv hpruned, h.of_cap hinv ?_, ?_⟩
  · rw [heq]
    apply update_of_ne hne
  · rw [heq]
    apply held.held.notCow

/-- One object is carved and its capability linked below the untyped one. -/
theorem retypeOne_keeps {offset : ℕ} :
  Prog.Keeps (Carvable r ut) (SpaceRun ok) (fun _ => True)
    (retypeOne region ut newType sizeBits offset destCnode destIndex)
  := by
  intro k hk
  rw [retypeOne, Prog.sat_bind]
  apply allocSlot_sat hk.inv.table _ ⟨hk, refl _⟩
  intro s hs hfree
  have held : HeldFrom ok r s k (k.takeSlot s) := hk.inv.takeSlot hs hfree
  split
  · have hfreed := held.freeSlot
    refine ⟨hk.of_cap hfreed.inv ?_, hfreed.run⟩
    rw [freeSlot_cap]
    rfl
  set addr := wrap64 (((k.takeSlot s).untyped region).physAddr + offset)
  have hcreated := held.createObject (objectPtr newType s addr) newType sizeBits
    ((k.takeSlot s).untyped region).isDevice addr
  have hut : Carvable r ut _ := hk.of_cap hcreated.held.inv (congrFun (createObject_cap ..) ut)
  obtain ⟨hreached, hcarvable, hcow⟩ := hut.carve hcreated newType addr
  apply insertRef_sat
  · have hset := hreached.setRef destCnode destIndex hcow
    exact ⟨hcarvable.of_cap hset.inv rfl, hset.run⟩
  · intro _
    exact ⟨hcarvable, hreached.run⟩

theorem setUntyped_keeps {f : UntypedMemory → UntypedMemory} :
  Prog.Keeps (Carvable r ut) (SpaceRun ok) (fun _ => True)
    (Prog.modify fun k => k.setUntyped region f : KProg Unit)
  := by
  apply Prog.keeps_modify
  intro k hk
  have hset : Reached ok r k _ := (Reached.refl hk.inv).of_sameSlots (SameSlots.setUntyped k region f)
  exact ⟨hk.of_cap hset.inv rfl, hset.run⟩

/-- The system call carves one object. -/
theorem untypedRetype_reaches {index : ℕ} (hk : CdtInv r k) :
  Reaches ok r k (untypedRetype cnode index newType sizeBits destCnode destIndex k)
  := by
  apply untypedRetype_sat (Reached.refl hk)
  intro s _ htype _
  have hs : Carvable r s k := by
    refine ⟨hk, ?_, htype⟩
    intro hspare
    exact absurd htype hspare.objType
  have hretype : Prog.Keeps (Carvable r s) (SpaceRun ok) (fun _ => True)
      (retype (k.cap s).object s newType (sizeBits % 2 ^ 8) 1 destCnode destIndex) := by
    apply retype_keeps
    · intro f
      apply setUntyped_keeps
    · intro objSize offset destIndex
      apply retypeOne_keeps
  apply (hretype k hs).imp_state _ fun _ _ => trivial
  rintro k' ⟨hk', hrun⟩
  exact ⟨hk'.inv, hrun⟩

end Carving

/-! ## Runs -/

/-- Allocate a slot and make it a root of the derivation tree. -/
def allocRoot : KProg CapSlot := do
  let slot ← allocSlot
  Prog.modify fun k => k.insertRoot slot
  pure slot

section Runs

variable {ok : CapRights → CapRights → Prop} {r : ObjPtr → ℕ} {k k' : Kernel}

/-- The rights of a minted capability may be derived from those of its source. -/
def MintsWithin (ok : CapRights → CapRights → Prop) (op : CapOp) (k : Kernel) : Prop :=
  ∀ cnode dest srcCnode src badge rights s, op = .mintSlot cnode dest srcCnode src badge rights →
      k.getRef srcCnode src = some s → ok (k.cap s).rights rights

/-- What one operation does to the derivation tree. -/
theorem CapOp.exec_reaches {op : CapOp} {fuel : ℕ} (hk : CdtInv r k)
    (hcopy : ∀ a b : CapRights, a.contains b = true → ok a b) (hmint : MintsWithin ok op k) :
  Reaches ok r k (op.exec (invoke deletesLeaves fuel) k)
  := by
  apply OpRule.exec_sat
  constructor
  · apply Reached.refl hk
  · intro s hs
    apply (hk.held hs).freeSlot
  · intro s src rights badge hs hgrant hrights
    apply hk.derived hs hgrant
    obtain hsubset | ⟨cnode, dest, srcCnode, i, hop, hsrc⟩ := hrights
    · apply hcopy _ _ hsubset
    · apply hmint cnode dest srcCnode i badge rights src hop hsrc
  · intro srcCnode i s _ hs cnode dest
    apply Reached.clearRef
    apply (Reached.refl hk).setRef _ _ (not_cowSlot_of_getRef hk hs)
  · intro k' s badge hk'
    apply hk'.setBadge
  · intro s hs cnode index tcb
    have hsaved : Reached ok r k _ := hk.saved hs cnode index tcb
    apply hsaved.after (meets_invoke fuel (.releaseObject _ _) _ hsaved.inv) fun _ => id
  · intro cnode index s _ hs hleaf
    rw [hasChildren_eq_false] at hleaf
    apply (Reached.refl hk).after (DeletionSpec.dropCapability_sat cdtSpec_sound (meets_invoke fuel) hk
      ⟨not_cowSlot_of_getRef hk hs, hleaf⟩)
    intro k' hk'
    apply hk'.clearRef
  · intro cnode index s _ hs
    apply (Reached.refl hk).after (meets_invoke fuel (.revoke s) k ⟨hk, not_cowSlot_of_getRef hk hs⟩)
    intro k' hk'
    apply hk'.clearRef
  · intro obj objType
    apply (Reached.refl hk).after (meets_invoke fuel (.releaseObject obj objType) k hk) fun _ => id
  · intros
    apply untypedRetype_reaches hk
  · intros
    apply untypedReset_sat (Reached.refl hk)
    intro s _
    apply (Reached.refl hk).of_sameSlots (SameSlots.setUntyped ..)

/-- An isolated slot is a root already. -/
theorem insertRoot_eq {s : CapSlot} (h : k.Isolated s) :
  k.insertRoot s = k
  := by
  have hmeta : { k.slotMeta s with
      cdtParent := invalidSlot, cdtFirstChild := invalidSlot, cdtNext := invalidSlot,
      cdtPrev := invalidSlot } = k.slotMeta s := by
    obtain ⟨hparent, hfirst, hnext, hprev⟩ := h
    cases hm : k.slotMeta s
    rw [hm] at hparent hfirst hnext hprev
    simp only [CapSlotMeta.mk.injEq, and_true]
    exact ⟨hparent.symm, hfirst.symm, hnext.symm, hprev.symm⟩
  simp only [insertRoot, clearLinks, setMeta, hmeta, update_eq_self]

/-- A new root has no links. -/
theorem allocRoot_reaches (hk : CdtInv r k) :
  Reaches ok r k (allocRoot k)
  := by
  rw [Reaches, allocRoot, Prog.sat_bind]
  apply allocSlot_sat hk.table _ (Reached.refl hk)
  intro s hs hfree
  have held : HeldFrom ok r s k (k.takeSlot s) := hk.takeSlot hs hfree
  rw [Prog.sat_bind, Prog.sat_modify, insertRoot_eq held.held.isolated]
  exact ⟨held.held.inv, held.run⟩

end Runs

/-! ## Boot -/

section Boot

variable {ok : CapRights → CapRights → Prop} {r : ObjPtr → ℕ} {k k' : Kernel}

/-- There are no links at boot. -/
theorem AtBoot.isolated (h : AtBoot k) (s : CapSlot) :
  k.Isolated s
  := by
  constructor <;> rw [h.slotMeta] <;> rfl

theorem AtBoot.cdtInv (h : AtBoot k) :
  CdtInv r k
  := by
  refine ⟨h.cowTree, h.slotTable, ⟨fun _ => [], fun _ => 0, ?_⟩, ?_, ?_⟩
  · refine ⟨?_, ?_, ?_, ?_, h.isolated _, ?_⟩
    · intro p
      apply (h.isolated p).firstChild
    · intro p c
      rw [(h.isolated c).parent]
      simp [eq_comm]
    · intro c _
      exact ⟨(h.isolated c).next, (h.isolated c).prev⟩
    · intro s _
      apply h.isolated
    · intro c hc
      exact absurd (h.isolated c).parent hc
  · intro s _
    apply h.isolated
  · intro s _
    rw [h.cap]
    apply Capability.spare_null

/-- The capabilities of the first task are installed one by one. -/
theorem InstallStep.reached (hk : CdtInv r k) (h : InstallStep k k') :
  Reached ok r k k'
  := by
  obtain ⟨cnode, cnodeIndex, index, objType, rights, hstep⟩ := h
  have hsat : Reaches ok r k (insertStaticCapWithRights cnode cnodeIndex (.static index) objType
      rights k) := by
    rw [Reaches, insertStaticCapWithRights, Prog.sat_bind]
    apply allocSlot_sat hk.table _ (Reached.refl hk)
    intro s hs hfree
    have held : HeldFrom ok r s k (k.takeSlot s) := hk.takeSlot hs hfree
    have hwrite := held.write
      { object := .static index, objType, rights, depth := 0, badge := 0 } fun _ => ⟨index, rfl⟩
    apply insertRef_sat
    · apply hwrite.setRef _ _ held.held.notCow
    · intro _
      apply hwrite
  apply hsat.state hstep

/-- A state after boot is reached from one without capabilities. -/
theorem Booted.reached (h : Booted k) :
  ∃ k₀, AtBoot k₀ ∧ Reached ok r k₀ k
  := by
  obtain ⟨k₀, hk₀, hrun⟩ := h
  use k₀, hk₀
  induction hrun with
  | refl => apply Reached.refl hk₀.cdtInv
  | tail _ hstep ih => apply ih.trans (hstep.reached ih.inv)

end Boot

end SaltyOS
