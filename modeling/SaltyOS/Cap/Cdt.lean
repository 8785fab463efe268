import SaltyOS.Cap.CapSpace
import SaltyOS.Cap.Forest
import SaltyOS.Cap.SlotTable

/-!
# The invariant of the derivation tree

The derivation tree is a forest, and the slots that are free or private to a memory object take no
part in it. We show that deletion and destruction keep the invariant if a slot is deleted only after
its children, and that what they do to the capability space is to free slots, children before their
parents.
-/

open Function

namespace SaltyOS

/-- The capability space of a state. -/
def Kernel.capSpace (k : Kernel) : CapSpace where
  cap := k.cap
  parent s := (k.slotMeta s).cdtParent
  occupied s := (k.slotMeta s).state = .occupied

/-- The derivation tree is a forest, private slots are not part of it, and nothing can be derived from
the capability in a free or private slot. -/
structure CdtInv (r : ObjPtr → ℕ) (k : Kernel) : Prop where
  tree : CowTree r k
  table : SlotTable k
  forest : ∃ children rank, Forest children rank k
  isolated : ∀ s, k.CowSlot s → k.Isolated s
  spare : ∀ s, k.CowSlot s ∨ (k.slotMeta s).state = .free → (k.cap s).Spare

/-- Slots have been freed. -/
structure Pruned (k k' : Kernel) : Prop where
  slots : ∀ s, k.capSpace.Same k'.capSpace s ∨ k'.capSpace.Gone s
  cowSlot : ∀ s, k'.CowSlot s → k.CowSlot s

instance : IsPreorder Kernel Pruned where
  refl k := by
    constructor
    · intro s
      left
      exact ⟨rfl, rfl, Iff.rfl⟩
    · intro s
      apply id
  trans k₁ k₂ k₃ h h' := by
    constructor
    · intro s
      obtain hsame' | hgone' := h'.slots s
      · exact (h.slots s).imp (fun hsame => hsame.trans hsame') fun hgone => hgone.of_same hsame'
      · right
        apply hgone'
    · intro s hs
      apply h.cowSlot s (h'.cowSlot s hs)

section Lemmas

variable {r : ObjPtr → ℕ} {k k' : Kernel} {s : CapSlot}

/-- A slot without links has no parent and no child in the capability space. -/
theorem CdtInv.isolated_capSpace (hk : CdtInv r k) (hs : k.Isolated s) :
  k.capSpace.Isolated s
  := by
  obtain ⟨children, rank, hforest⟩ := hk.forest
  use hs.parent
  rintro c ⟨hne, hparent⟩
  have hmem := (hforest.mem_iff s c).mpr ⟨hparent, hne⟩
  rw [hforest.children_eq_nil hs.firstChild] at hmem
  cases hmem

/-- Parents are occupied. -/
theorem CdtInv.occupied_parent (hk : CdtInv r k) {c p : CapSlot} (hcp : k.capSpace.Child c p) :
  k.capSpace.occupied p
  := by
  obtain ⟨children, rank, hforest⟩ := hk.forest
  apply hforest.occupied_parent ((hforest.mem_iff p c).mpr ⟨hcp.2, hcp.1⟩)

/-- Freeing slots is a step of the capability space. -/
theorem Pruned.step {ok : CapRights → CapRights → Prop} (h : Pruned k k') (hk' : CdtInv r k') :
  CapSpace.Step ok k.capSpace k'.capSpace
  := by
  apply CapSpace.Step.prune _ h.slots
  intro c p
  apply hk'.occupied_parent

theorem occupied_of_not_spare (hk : CdtInv r k) (hs : ¬ (k.cap s).Spare) :
  (k.slotMeta s).state = .occupied ∧ ¬ k.CowSlot s
  := by
  constructor
  · cases hstate : (k.slotMeta s).state with
    | free => exact absurd (hk.spare s (.inr hstate)) hs
    | occupied => rfl
  · intro hcow
    apply hs (hk.spare s (.inl hcow))

/-! ## Steps -/

section

variable (hk : CdtInv r k)
include hk

/-- Changes outside of the derivation tree. -/
theorem CdtInv.of_same (htree : CowTree r k') (htable : SlotTable k') (hcap : k'.cap = k.cap)
    (hcow : ∀ t, k'.CowSlot t → k.CowSlot t)
    (hlinks : ∀ t, (k'.slotMeta t).links = (k.slotMeta t).links)
    (hstate : ∀ t, (k'.slotMeta t).state = (k.slotMeta t).state ∨
      ((k'.slotMeta t).state = .free ∧ k.Isolated t ∧ (k.cap t).Spare)) :
  CdtInv r k' ∧ Pruned k k'
  := by
  have hparent : ∀ t, (k'.slotMeta t).cdtParent = (k.slotMeta t).cdtParent :=
    fun t => congrArg Prod.fst (hlinks t)
  constructor
  · refine ⟨htree, htable, ?_, ?_, ?_⟩
    · obtain ⟨children, rank, hforest⟩ := hk.forest
      refine ⟨children, rank, hforest.of_links hlinks ?_⟩
      intro t ht
      obtain heq | ⟨_, hisolated, _⟩ := hstate t
      · left
        rw [← heq, ht]
      · right
        apply hisolated
    · intro t ht
      apply (hk.isolated t (hcow t ht)).of_links (hlinks t)
    · intro t ht
      rw [hcap]
      obtain hcow' | hfree := ht
      · apply hk.spare t (.inl (hcow t hcow'))
      obtain heq | ⟨_, _, hspare⟩ := hstate t
      · rw [heq] at hfree
        apply hk.spare t (.inr hfree)
      · apply hspare
  · refine ⟨?_, hcow⟩
    intro t
    obtain heq | ⟨hfree, hisolated, hspare⟩ := hstate t
    · left
      use congrFun hcap t, hparent t
      simp only [Kernel.capSpace, heq]
    right
    refine ⟨?_, ?_, ?_⟩
    · simp only [Kernel.capSpace, hcap]
      apply hspare
    · simp only [Kernel.capSpace, hparent]
      apply hisolated.parent
    · simp only [Kernel.capSpace, hfree]
      intro h
      cases h

/-- Slots outside of the derivation tree are freed. -/
theorem CdtInv.of_freed (htree : CowTree r k') (htable : SlotTable k') (hcap : k'.cap = k.cap)
    (hcow : ∀ t, k'.CowSlot t → k.CowSlot t) (hslot : ∀ t, k'.slotMeta t = k.slotMeta t ∨
      (k.Isolated t ∧ (k.cap t).Spare ∧ k'.slotMeta t = CapSlotMeta.free)) :
  CdtInv r k' ∧ Pruned k k'
  := by
  apply hk.of_same htree htable hcap hcow
  · intro t
    obtain heq | ⟨hisolated, _, heq⟩ := hslot t
    · rw [heq]
    · rw [heq, Kernel.isolated_iff.mp hisolated]
  · intro t
    obtain heq | ⟨hisolated, hspare, heq⟩ := hslot t
    · left
      rw [heq]
    right
    rw [heq]
    exact ⟨rfl, hisolated, hspare⟩

theorem CdtInv.of_sameSlots (h : SameSlots k k') :
  CdtInv r k' ∧ Pruned k k'
  := by
  apply hk.of_freed (hk.tree.of_sameSlots h) (hk.table.of_sameRefs h.toSameRefs) h.cap
  · rintro t ⟨m, hm, ht⟩
    rw [h.cowParent] at hm
    exact ⟨m, hm, ht⟩
  · intro t
    left
    rw [h.slotMeta]

theorem CdtInv.of_moFrame (htree : CowTree r k') (h : MoFrame k k') :
  CdtInv r k' ∧ Pruned k k'
  := by
  apply hk.of_freed htree (hk.table.of_moFrame h) h.cap h.cowSlot
  intro t
  obtain ⟨hmeta, _⟩ | ⟨hcow, hmeta, _⟩ := h.slot t
  · left
    apply hmeta
  · right
    exact ⟨hk.isolated t hcow, hk.spare t (.inl hcow), hmeta⟩

/-- Editing the child lists of untyped regions. -/
theorem CdtInv.of_linkEdit (h : LinkEdit k k')
    (hlinks : ∀ t, (k'.slotMeta t).links = (k.slotMeta t).links) :
  CdtInv r k' ∧ Pruned k k'
  := by
  have htree := hk.tree.of_linkEdit h
  have htable := hk.table.of_linkEdit h
  obtain ⟨slotMeta, rfl, hstate⟩ := h
  apply hk.of_same htree htable rfl (fun _ => id) hlinks
  intro t
  left
  apply hstate t

theorem CdtInv.unlinkUtChild (ut child prev : CapSlot) :
  CdtInv r (k.unlinkUtChild ut child prev) ∧ Pruned k (k.unlinkUtChild ut child prev)
  := by
  apply hk.of_linkEdit (LinkEdit.unlinkUtChild k ut child prev)
  intro t
  simp only [CapSlotMeta.links, Kernel.unlinkUtChild, slotMeta_setMeta, slotMeta_ite]
  grind

theorem CdtInv.addUtChild (ut child : CapSlot) :
  CdtInv r (k.addUtChild ut child) ∧ Pruned k (k.addUtChild ut child)
  := by
  apply hk.of_linkEdit (LinkEdit.addUtChild k ut child)
  intro t
  simp only [CapSlotMeta.links, Kernel.addUtChild, slotMeta_setMeta]
  grind

omit hk in
theorem remove_frame (k : Kernel) (s : CapSlot) :
  (k.remove s).cap = k.cap ∧ (k.remove s).mo = k.mo
  := by
  obtain ⟨slotMeta, heq, _⟩ := LinkEdit.remove k s
  rw [heq]
  exact ⟨rfl, rfl⟩

/-- Taking a leaf out of the tree. -/
theorem CdtInv.remove (hleaf : (k.slotMeta s).cdtFirstChild = invalidSlot) :
  CdtInv r (k.remove s)
  := by
  have hedit := LinkEdit.remove k s
  have hfields := remove_frame k s
  have hcow : ∀ t, (k.remove s).CowSlot t → k.CowSlot t := by
    intro t
    simp only [Kernel.CowSlot, hfields.2]
    apply id
  obtain ⟨children, rank, hforest⟩ := hk.forest
  refine ⟨hk.tree.of_linkEdit hedit, hk.table.of_linkEdit hedit, ?_, ?_, ?_⟩
  · obtain ⟨children', hforest'⟩ := hforest.remove hleaf
    exact ⟨children', rank, hforest'⟩
  · intro t ht
    apply hforest.isolated_remove hleaf (hk.isolated t (hcow t ht))
  intro t ht
  rw [hfields.1]
  apply hk.spare t
  obtain ht | ht := ht
  · left
    apply hcow t ht
  right
  rw [remove_state] at ht
  apply ht

/-- Freeing a slot without links. -/
theorem CdtInv.freeSlot (hs : k.Isolated s) (hcow : ¬ k.CowSlot s) (hspare : (k.cap s).Spare) :
  CdtInv r (k.freeSlot s) ∧ Pruned k (k.freeSlot s)
  := by
  apply hk.of_freed (hk.tree.freeSlot hcow) (hk.table.freeSlot s) (Kernel.freeSlot_cap k s)
  · intro t
    simp only [Kernel.CowSlot, Kernel.freeSlot_mo]
    apply id
  · intro t
    by_cases hts : t = s
    · subst hts
      obtain ⟨hmeta, _⟩ | ⟨hmeta, _⟩ := Kernel.freeSlot_self k t
      · right
        exact ⟨hs, hspare, hmeta⟩
      · left
        apply hmeta
    · left
      apply (Kernel.freeSlot_of_ne k s hts).1

/-- Writing a capability. -/
theorem CdtInv.setCap {cap : Capability} (hcow : k.CowSlot s → cap.object = (k.cap s).object)
    (hspare : k.CowSlot s ∨ (k.slotMeta s).state = .free → cap.Spare) :
  CdtInv r (k.setCap s cap)
  := by
  refine ⟨hk.tree.setCap hcow, ?_, ?_, ?_, ?_⟩
  · exact ⟨hk.table.numSlots, hk.table.nextSlot, hk.table.occupied⟩
  · obtain ⟨children, rank, hforest⟩ := hk.forest
    exact ⟨children, rank, hforest.of_slotMeta rfl⟩
  · intro t ht
    apply (hk.isolated t ht).of_links
    rfl
  · intro t ht
    simp only [Kernel.setCap, update_apply]
    split_ifs with hts
    · subst hts
      apply hspare ht
    · apply hk.spare t ht

/-- Emptying a slot without links and freeing it. -/
theorem CdtInv.dropSlot (hs : k.Isolated s) (hcow : ¬ k.CowSlot s) :
  CdtInv r (k.dropSlot s)
  := by
  have hnull : CdtInv r (k.nullifyCapability s) :=
    hk.setCap (fun h => absurd h hcow) fun _ => Capability.spare_null
  have hut : CdtInv r ((k.nullifyCapability s).setMeta s fun m => { m with utParent := invalidSlot }) := by
    refine (hnull.of_linkEdit (LinkEdit.setMeta _ ?_) fun t => ?_).1
    · exact fun _ => rfl
    · simp only [CapSlotMeta.links, slotMeta_setMeta]
      grind
  refine (hut.freeSlot ?_ hcow ?_).1
  · apply hs.of_links
    rw [slotMeta_setMeta, if_pos rfl]
    rfl
  · simp only [Kernel.setMeta, Kernel.nullifyCapability, Kernel.setCap, update_self]
    apply Capability.spare_null

end

/-- Slots other than the one that is dropped stay as they are. -/
theorem slotMeta_dropSlot_of_ne {t : CapSlot} (hts : t ≠ s) :
  (k.dropSlot s).cap t = k.cap t ∧ (k.dropSlot s).slotMeta t = k.slotMeta t
  := by
  simp only [Kernel.dropSlot]
  constructor
  · rw [Kernel.freeSlot_cap]
    simp only [Kernel.setMeta, Kernel.nullifyCapability, Kernel.setCap, update_of_ne hts]
  · rw [(Kernel.freeSlot_of_ne _ s hts).1, slotMeta_setMeta, if_neg hts]
    rfl

/-- A dropped slot is free. -/
theorem CdtInv.gone_dropSlot (hk : CdtInv r k) (hs : k.Isolated s) :
  (k.dropSlot s).capSpace.Gone s
  := by
  have hmeta : ((k.dropSlot s).slotMeta s) = CapSlotMeta.free ∨
      ((k.dropSlot s).slotMeta s = { k.slotMeta s with utParent := invalidSlot } ∧
        ¬ s < k.numSlots) := by
    simp only [Kernel.dropSlot, Kernel.freeSlot]
    split_ifs with hlt
    · left
      simp only [update_self]
    right
    rw [slotMeta_setMeta, if_pos rfl]
    exact ⟨rfl, hlt⟩
  constructor
  · simp only [Kernel.capSpace, Kernel.dropSlot, Kernel.freeSlot_cap, Kernel.setMeta,
      Kernel.nullifyCapability, Kernel.setCap, update_self]
    apply Capability.spare_null
  · simp only [Kernel.capSpace]
    obtain heq | ⟨heq, _⟩ := hmeta
    · rw [heq]
      rfl
    · rw [heq]
      apply hs.parent
  · simp only [Kernel.capSpace]
    obtain heq | ⟨heq, hlt⟩ := hmeta
    · rw [heq]
      intro h
      cases h
    · rw [heq]
      intro h
      apply hlt (hk.table.occupied s h).1

end Lemmas

/-! ## Deletion and destruction -/

/-- What deletion and destruction do to the derivation tree. -/
def cdtSpec (r : ObjPtr → ℕ) : DeletionSpec where
  inv := CdtInv r
  rel := Pruned
  halts _ := True
  deletable s k := ¬ k.CowSlot s
  droppable s k := ¬ k.CowSlot s ∧ (k.slotMeta s).cdtFirstChild = invalidSlot
  dropped s k := ¬ k.CowSlot s ∧ k.Isolated s
  revocable s k := ¬ k.CowSlot s
  moInv := CowTree r
  moRel m := MoStep r (r m)
  siblingRel := SameRefs

/-- A slot is deleted only when it has no children. -/
def deletesLeaves : Call → Kernel → Bool
  | .deleteCapability s, k => !k.hasChildren s
  | _, _ => true

section Deletion

variable {r : ObjPtr → ℕ} {k k' : Kernel} {s : CapSlot}

theorem hasChildren_eq_false :
  k.hasChildren s = false ↔ (k.slotMeta s).cdtFirstChild = invalidSlot
  := by
  simp only [Kernel.hasChildren, bne_eq_false_iff_eq]

theorem cdtSpec_ofSlots :
  (cdtSpec r).OfSlots r
  := by
  constructor
  · show IsPreorder Kernel Pruned
    infer_instance
  · intro _
    trivial
  · intro k k'
    apply CdtInv.of_sameSlots
  · intro k hk
    apply hk.tree
  · intro k k'
    apply CdtInv.of_moFrame
  · rfl
  · rfl
  · rfl

/-- A slot without links does not get any when slots are freed. -/
theorem Pruned.isolated (h : Pruned k k') (hk : CdtInv r k) (hk' : CdtInv r k') (hs : k.Isolated s) :
  k'.Isolated s
  := by
  obtain ⟨children, rank, hforest⟩ := hk'.forest
  have hparent : ∀ t, (k'.slotMeta t).cdtParent = (k.slotMeta t).cdtParent ∨
      (k'.slotMeta t).cdtParent = invalidSlot := by
    intro t
    obtain hsame | hgone := h.slots t
    · left
      apply hsame.parent
    · right
      apply hgone.parent
  apply hforest.isolated
  · obtain heq | heq := hparent s
    · rw [heq, hs.parent]
    · apply heq
  by_contra hne
  obtain ⟨hchild, hsne⟩ := (hforest.mem_iff s _).mp (hforest.firstChild_mem hne)
  obtain heq | heq := hparent (k'.slotMeta s).cdtFirstChild
  · rw [hchild] at heq
    apply (hk.isolated_capSpace hs).2 _ ⟨hsne, heq.symm⟩
  · rw [hchild] at heq
    apply hsne heq

/-- The slots that are left when a leaf has been taken out and dropped. -/
theorem Pruned.dropSlot (h : Pruned (k.remove s) k') (hk' : CdtInv r k') (hs : k'.Isolated s) :
  Pruned k (k'.dropSlot s)
  := by
  constructor
  · intro t
    by_cases hts : t = s
    · right
      rw [hts]
      apply hk'.gone_dropSlot hs
    obtain ⟨hcap, hmeta⟩ := slotMeta_dropSlot_of_ne (k := k') hts
    have hremoved : k.capSpace.Same (k.remove s).capSpace t := by
      constructor <;> simp only [Kernel.capSpace]
      · rw [(remove_frame k s).1]
      · rw [remove_cdtParent, if_neg hts]
      · rw [remove_state]
    have hdropped : k'.capSpace.Same (k'.dropSlot s).capSpace t := by
      constructor <;> simp only [Kernel.capSpace]
      · rw [hcap]
      · rw [hmeta]
      · rw [hmeta]
    apply (h.slots t).imp
    · intro hsame
      apply hremoved.trans (hsame.trans hdropped)
    · intro hgone
      apply hgone.of_same hdropped
  · intro t ht
    have hmo : (k'.dropSlot s).mo = k'.mo := by
      simp only [Kernel.dropSlot, Kernel.freeSlot_mo]
      rfl
    simp only [Kernel.CowSlot, hmo] at ht
    have ht' := h.cowSlot t ht
    simp only [Kernel.CowSlot, (remove_frame k s).2] at ht'
    apply ht'

theorem cdtSpec_sound :
  (cdtSpec r).Sound deletesLeaves
  := by
  apply cdtSpec_ofSlots.sound
  constructor
  · intro k ut child prev hk
    apply CdtInv.unlinkUtChild hk
  · intro k s hk hs hallow _
    use hs
    simp only [deletesLeaves, Bool.not_eq_true'] at hallow
    apply hasChildren_eq_false.mp hallow
  · rintro k s hk ⟨hcow, hleaf⟩
    refine ⟨CdtInv.remove hk hleaf, ?_, Forest.isolated_remove_self k s⟩
    simp only [Kernel.CowSlot, (remove_frame k s).2]
    apply hcow
  · rintro k k' s hk ⟨hcow, hs⟩ hk' hrel
    refine ⟨?_, Pruned.isolated hrel hk hk' hs⟩
    intro hcow'
    apply hcow (Pruned.cowSlot hrel s hcow')
  · rintro k k' s _ _ hk' hrel ⟨hcow, hs⟩
    exact ⟨CdtInv.dropSlot hk' hs hcow, Pruned.dropSlot hrel hk' hs⟩
  · intro k s hk hs hchildren hcow
    obtain ⟨children, rank, hforest⟩ := CdtInv.forest hk
    have hne : (k.slotMeta s).cdtFirstChild ≠ invalidSlot := by
      intro heq
      rw [hasChildren_eq_false.mpr heq] at hchildren
      cases hchildren
    obtain ⟨hparent, hsne⟩ := (hforest.mem_iff s _).mp (hforest.firstChild_mem hne)
    apply hsne
    rw [← hparent, (CdtInv.isolated hk _ hcow).parent]
  · intro k k' s _ hs _ _ hrel hcow
    apply hs (Pruned.cowSlot hrel s hcow)
  · intro k s _ hs _
    apply hs
  · intro k k' obj i _ _ _ hk' _ _
    apply (CdtInv.tree hk').not_cowSlot_ref

end Deletion

end SaltyOS
