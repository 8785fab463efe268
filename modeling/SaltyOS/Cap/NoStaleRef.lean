import SaltyOS.Cap.OpRule
import SaltyOS.Cap.References

/-!
# Runs without stale references

Each operation on capability nodes preserves the invariant of references, and so does every run in
which capabilities are revoked only when nothing has been derived from them.
-/

namespace SaltyOS

open Relation Kernel

/-! ## Operations -/

section Operations

variable {r : ObjPtr → ℕ} {k : Kernel}
variable {cnode region destCnode : ObjPtr} {index fuel sizeBits destIndex : ℕ} {newType : ObjectType}

/-- A reference that is read is there. -/
theorem refersTo_of_getRef {p : ObjPtr} {i : ℕ} {s : CapSlot} (hp : k.IsCNode p)
    (h : k.getRef p i = some s) :
  k.RefersTo p i s
  := by
  simp only [getRef] at h
  split at h
  · rename_i hi
    cases h
    exact ⟨hp, hi.1, rfl, hi.2⟩
  · cases h

theorem invoke_meets {e : Set (ObjPtr × ℕ)} (fuel : ℕ) :
  (refSpec e r).Meets (invoke destroysLiveCNodes fuel)
  := DeletionSpec.invoke_sat refSpec_sound fuel

/-- A slot that was taken has no reference yet. -/
theorem RefInv.held (hk : RefInv ∅ r k) {s : CapSlot} (hs : k.findSlot = some s) :
  HeldSlot r s (k.takeSlot s)
  := by
  obtain ⟨hlt, hbitmap⟩ := findSlot_eq_some hk.table.nextSlot hs
  apply hk.takeSlot hlt (hk.table.free hbitmap)

/-- Releasing an object. -/
theorem RefInv.release (hk : RefInv ∅ r k) (obj : ObjPtr) (objType : ObjectType) :
  (invoke destroysLiveCNodes fuel (.releaseObject obj objType) k).Sat (fun _ => RefInv ∅ r)
    (fun _ _ => True) fun _ => True
  := by
  apply (invoke_meets fuel (.releaseObject obj objType) k hk).mono _ (fun _ _ _ => trivial) fun _ _ => trivial
  intro _ _ hk'
  apply hk'.1

/-- Emptying a slot clears the reference to it. -/
theorem clearRef_sat {m : KProc Unit} {cnode : ObjPtr} {index : ℕ}
    (hm : (refSpec {(cnode, index)} r).KeepsAt k m) :
  (m k).Sat (fun _ k' => RefInv ∅ r (k'.setRef cnode index invalidSlot)) (fun _ _ => True) fun _ => True
  := by
  apply hm.mono _ (fun _ _ _ => trivial) fun _ _ => trivial
  intro _ _ hk'
  apply hk'.1.clearRef

/-- The slot gets its reference, or stays without. -/
theorem HeldSlot.insertRef_sat {s : CapSlot} (hk : HeldSlot r s k) :
  (insertRef cnode index s k).Sat (fun _ => RefInv ∅ r) (fun _ => RefInv ∅ r) fun _ => True
  := by
  apply SaltyOS.insertRef_sat hk.setRef
  intro _
  apply hk.inv

/-- One object is carved and its capability gets a reference. -/
theorem retypeOne_preserves {untypedSlot : CapSlot} {offset : ℕ} :
  Prog.Preserves (RefInv ∅ r)
    (retypeOne region untypedSlot newType sizeBits offset destCnode destIndex)
  := by
  intro k hk
  apply Prog.sat_maintains
  rw [retypeOne, Prog.sat_bind]
  apply allocSlot_sat hk.table _ hk
  intro s hs hfree
  have held := hk.takeSlot hs hfree
  split
  · apply held.freeSlot
  apply HeldSlot.insertRef_sat
  apply HeldSlot.of_linkEdit _ (LinkEdit.addUtChild _ untypedSlot s)
  apply HeldSlot.of_linkEdit _ (LinkEdit.insertChild _ untypedSlot s)
  apply HeldSlot.setCap
  apply held.createObject

theorem RefInv.setUntyped (hk : RefInv ∅ r k) (f : UntypedMemory → UntypedMemory) :
  RefInv ∅ r (k.setUntyped region f)
  := (hk.of_sameSlots (SameSlots.setUntyped k region f)).1

end Operations

/-! ## Boot -/

section Boot

variable {r : ObjPtr → ℕ} {k : Kernel}

theorem AtBoot.slotTable (h : AtBoot k) :
  SlotTable k
  := by
  refine ⟨h.numSlots, ?_, ?_⟩
  · rw [h.nextSlot]
    apply Nat.zero_le
  intro s hs
  rw [h.slotMeta] at hs
  cases hs

theorem AtBoot.cowTree (h : AtBoot k) :
  CowTree r k
  := by
  have hlist : ∀ p x, ¬ k.OnList p x := by
    intro p x hx
    rw [Kernel.OnList, h.firstChild] at hx
    induction hx with
    | start hne => exact absurd rfl hne
    | step _ _ _ ih => apply ih
  constructor
  · intro m hm
    exact absurd (h.cowParent m) hm
  · intro m _ hm
    exact absurd (h.cowParent m) hm
  · intro m _ _ hm
    exact absurd (h.cowParent m) hm
  · intro m hm
    exact absurd (h.cowParent m) hm
  · intro p x hx
    exact absurd hx (hlist p x)
  · intro p _ x hx
    exact absurd hx (hlist p x)

/-- There are no references at boot. -/
theorem AtBoot.refInv (h : AtBoot k) :
  RefInv ∅ r k
  := by
  have hnone : ∀ p i s, ¬ k.RefersTo p i s := by
    rintro p i s ⟨_, _, hs, hne⟩
    rw [h.cnode] at hs
    exact absurd hs.symm hne
  refine ⟨h.cowTree, h.slotTable, ?_, ?_⟩
  · intro p i s hp
    exact absurd hp (hnone p i s)
  · intro p i q j s hp
    exact absurd hp (hnone p i s)

theorem insertStaticCapWithRights_preserves {cnode object : ObjPtr} {index : ℕ}
    {objType : ObjectType} {rights : CapRights} :
  Prog.Preserves (RefInv ∅ r) (insertStaticCapWithRights cnode index object objType rights)
  := by
  intro k hk
  apply Prog.sat_maintains
  rw [insertStaticCapWithRights, Prog.sat_bind]
  apply allocSlot_sat hk.table _ hk
  intro s hs hfree
  apply HeldSlot.insertRef_sat ((hk.takeSlot hs hfree).setCap _)

/-- The invariant of references holds after boot. -/
theorem Booted.refInv (h : Booted k) :
  RefInv ∅ r k
  := by
  obtain ⟨k₀, hk₀, hrun⟩ := h
  apply invariant_of_run _ hk₀.refInv hrun
  rintro k₁ k₂ hk₁ ⟨_, _, _, _, _, hstep⟩
  apply (insertStaticCapWithRights_preserves.sat hk₁).state hstep

/-- References lead to slots in use. -/
theorem RefInv.noStaleRef (h : RefInv ∅ r k) :
  NoStaleRef k
  := by
  refine ⟨?_, h.unique⟩
  intro p i s hp
  apply h.occupied p i s hp (Set.notMem_empty _)

end Boot

/-! ## Runs -/

/-- The operation is run on capability nodes that are alive. -/
def OnLiveCNodes (op : CapOp) (k : Kernel) : Prop := ∀ p ∈ op.cnodes, k.IsCNode p

instance (op : CapOp) (k : Kernel) : Decidable (OnLiveCNodes op k) :=
  inferInstanceAs (Decidable (∀ p ∈ op.cnodes, k.IsCNode p))

/-- The operation is run on capability nodes that are alive, and if it revokes a capability, then
nothing has been derived from it. -/
def RevokesLeaves (op : CapOp) (k : Kernel) : Prop :=
  OnLiveCNodes op k ∧ ∀ cnode index s, op = .revoke cnode index → k.getRef cnode index = some s →
      k.hasChildren s = false

/-- One operation preserves the invariant of references. -/
theorem exec_sat {r : ObjPtr → ℕ} {k : Kernel} {op : CapOp} {fuel : ℕ} (hk : RefInv ∅ r k)
    (h : RevokesLeaves op k) :
  (op.exec (invoke destroysLiveCNodes fuel) k).Sat (fun _ => RefInv ∅ r) (fun _ => RefInv ∅ r)
    fun _ => True
  := by
  obtain ⟨hlive, hrevoke⟩ := h
  have hexcept : ∀ e, RefInv e r k := fun e => hk.mono (Set.empty_subset e)
  apply OpRule.exec_sat
  constructor
  · apply hk
  · intro s hs
    apply (hk.held hs).freeSlot
  · intro s src rights badge hs _ _ cnode dest
    apply HeldSlot.setRef
    apply HeldSlot.of_sameSlots _ (SameSlots.incrementRefcount _ _)
    apply ((hk.held hs).setCap _).of_linkEdit (LinkEdit.insertChild _ src s)
  · intro srcCnode i s hsrc hs cnode dest
    apply hk.moveRef (refersTo_of_getRef (hlive srcCnode hsrc) hs)
  · intro k' s badge hk'
    refine (hk'.setCap (s := s) ?_).1
    intro _
    rfl
  · intro s hs cnode index tcb
    apply RefInv.release
    unfold saved
    apply (RefInv.of_sameSlots _ (SameSlots.setTcb ..)).1
    apply HeldSlot.setRef
    apply ((hk.held hs).of_sameSlots (SameSlots.incrementRefcount _ _)).setCap
  · intro cnode index s hcnode hs _
    have hdrop := hk.droppable (refersTo_of_getRef (hlive cnode hcnode) hs)
    apply clearRef_sat
    apply DeletionSpec.dropCapability_sat refSpec_sound (invoke_meets fuel) (hexcept _) hdrop
  · intro cnode index s hop hs
    have hcnode : cnode ∈ op.cnodes := by simp [hop, CapOp.cnodes]
    have hdrop := hk.droppable (refersTo_of_getRef (hlive cnode hcnode) hs)
    apply clearRef_sat
    apply invoke_meets fuel (.revoke s) k ⟨hexcept _, hdrop, hrevoke cnode index s hop hs⟩
  · apply hk.release
  · intros
    apply untypedRetype_sat hk
    intro s _ _ _
    refine Prog.Maintains.sat (I := RefInv ∅ r) (retype_keeps ?_ ?_) hk
    · intro f
      apply Prog.maintains_modify
      intro k hk
      apply hk.setUntyped
    · intro objSize offset destIndex
      apply retypeOne_preserves
  · intros
    apply untypedReset_sat hk
    intro s _
    apply hk.setUntyped

/-- Runs in which only capabilities without descendants are revoked have no stale references. -/
theorem noStaleRef_of_run {k k' : Kernel} (hrefs : NoStaleRef k) (htable : SlotTable k)
    (htree : ∃ r, CowTree r k)
    (hrun : ReflTransGen (CapStep RevokesLeaves destroysLiveCNodes) k k') :
  NoStaleRef k'
  := by
  obtain ⟨r, htree⟩ := htree
  have hk : RefInv ∅ r k := by
    refine ⟨htree, htable, ?_, hrefs.unique⟩
    intro p i s hp _
    apply hrefs.occupied p i s hp
  have hk' : RefInv ∅ r k' := by
    apply invariant_of_run _ hk hrun
    rintro k₁ k₂ hk₁ ⟨op, fuel, hop, hstep⟩
    apply (exec_sat hk₁ hop).state hstep
  apply hk'.noStaleRef

/-- Copying a capability of the sample system and deleting the copy meets the assumptions. -/
theorem noStaleRef_copy_delete :
  NoStaleRef (CapOp.apply (.delete (.static 0) 2) destroysLiveCNodes
    (CapOp.apply (.copySlot (.static 0) 2 (.static 0) 0 CapRights.read) destroysLiveCNodes sample))
  := by
  have hk : RefInv ∅ (fun _ => 0) sample := booted_sample.refInv
  apply noStaleRef_of_run hk.noStaleRef hk.table ⟨_, hk.tree⟩
  apply ReflTransGen.tail (ReflTransGen.single (capStep_apply
    (.copySlot (.static 0) 2 (.static 0) 0 CapRights.read) _ (by decide)))
  · apply capStep_apply (.delete (.static 0) 2) _ (by decide)
    use by decide
    intro _ _ _ heq
    cases heq
  · use by decide
    intro _ _ _ heq
    cases heq

/-- After an endpoint capability of the sample system has been copied within its capability node and
then revoked, the reference to the copy is stale. -/
theorem staleRef_of_revoke :
  let copied := CapOp.apply (.copySlot (.static 0) 2 (.static 0) 0 CapRights.read)
    destroysLiveCNodes sample
  let revoked := CapOp.apply (.revoke (.static 0) 0) destroysLiveCNodes copied
  NoStaleRef sample ∧ SlotTable sample ∧ (∃ r, CowTree r sample) ∧
    ReflTransGen (CapStep OnLiveCNodes destroysLiveCNodes) sample revoked ∧
    revoked.RefersTo (.static 0) 2 2 ∧ (revoked.slotMeta 2).state = .free ∧ ¬ NoStaleRef revoked
  := by
  have hk : RefInv ∅ (fun _ => 0) sample := booted_sample.refInv
  refine ⟨hk.noStaleRef, hk.table, ⟨_, hk.tree⟩, ?_, by decide, by decide, ?_⟩
  · apply ReflTransGen.tail (ReflTransGen.single (capStep_apply
      (.copySlot (.static 0) 2 (.static 0) 0 CapRights.read) (by decide) (by decide)))
    apply capStep_apply (.revoke (.static 0) 0) (by decide) (by decide)
  · intro h
    have hstate := h.occupied (.static 0) 2 2 (by decide)
    revert hstate
    decide

end SaltyOS
