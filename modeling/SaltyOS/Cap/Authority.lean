import SaltyOS.Cap.CdtRuns

/-!
# Authority along runs

Two results about runs from boot. The derivation tree stays a forest when capabilities are deleted
only after those derived from them. If moreover the rights of minted capabilities are among those of
their sources, no capability has a right that a capability above it to the same object lacks.
-/

namespace SaltyOS

open Relation CapRights Kernel

/-! ## The derivation tree -/

/-- One operation, or the creation of a root of the derivation tree. -/
def TreeStep (cond : CapOp → Kernel → Prop) (allow : Call → Kernel → Bool) (k k' : Kernel) : Prop :=
  CapStep cond allow k k' ∨ (allocRoot k).state? = some k'

theorem treeStep_apply {cond : CapOp → Kernel → Prop} {allow : Call → Kernel → Bool} {k : Kernel}
    (op : CapOp) (hcond : cond op k) (h : (op.exec (invoke allow 32) k).state?.isSome = true) :
  TreeStep cond allow k (op.apply allow k)
  := by
  left
  apply capStep_apply op hcond h

/-- What a run does to the derivation tree. -/
theorem reached_of_run {ok : CapRights → CapRights → Prop} {r : ObjPtr → ℕ}
    {cond : CapOp → Kernel → Prop} {k k' : Kernel}
    (hcopy : ∀ a b : CapRights, a.contains b = true → ok a b)
    (hmint : ∀ op k, cond op k → MintsWithin ok op k) (hk : CdtInv r k)
    (hrun : ReflTransGen (TreeStep cond deletesLeaves) k k') :
  Reached ok r k k'
  := by
  induction hrun with
  | refl => apply Reached.refl hk
  | tail _ hstep ih =>
    apply ih.trans
    obtain ⟨op, fuel, hop, hstep⟩ | hstep := hstep
    · apply (CapOp.exec_reaches ih.inv hcopy (hmint _ _ hop)).state hstep
    · apply (allocRoot_reaches ih.inv).state hstep

/-- Runs in which a slot with children is never deleted keep the derivation tree a forest. -/
theorem cdtWellFormed_of_run {k k' : Kernel} (hboot : Booted k)
    (hrun : ReflTransGen (TreeStep (fun _ _ => True) deletesLeaves) k k') :
  CdtWellFormed k'
  := by
  obtain ⟨_, _, hk⟩ : ∃ k₀, AtBoot k₀ ∧ Reached (fun _ _ => True) (fun _ => 0) k₀ k := hboot.reached
  have hreached : Reached (fun _ _ => True) (fun _ => 0) k k' := by
    apply reached_of_run _ _ hk.inv hrun
    · intro _ _ _
      trivial
    · intro _ _ _ _ _ _ _ _ _ _ _ _
      trivial
  obtain ⟨children, rank, hforest⟩ := hreached.inv.forest
  apply hforest.wellFormed

/-- Copying a capability of the sample system twice and revoking the first copy meets the
assumptions. -/
theorem cdtWellFormed_copy_revoke :
  CdtWellFormed (CapOp.apply (.revoke (.static 0) 2) deletesLeaves
    (CapOp.apply (.copySlot (.static 0) 3 (.static 0) 2 read) deletesLeaves
      (CapOp.apply (.copySlot (.static 0) 2 (.static 0) 0 all) deletesLeaves sample)))
  := by
  apply cdtWellFormed_of_run booted_sample
  refine .tail ?_ (treeStep_apply _ trivial (by decide))
  refine .tail ?_ (treeStep_apply _ trivial (by decide))
  exact .single (treeStep_apply _ trivial (by decide))

/-- The calls of the kernel are all made. -/
def callsAll : Call → Kernel → Bool := fun _ _ => true

/-- After an endpoint capability of the sample system has been copied into the second capability
node and from there back into the first one, deleting the capability to the second capability node
leaves the second copy with a parent that is free. -/
theorem danglingParent_of_delete :
  let copied := CapOp.apply (.copySlot (.static 2) 0 (.static 0) 0 all) callsAll sample
  let back := CapOp.apply (.copySlot (.static 0) 2 (.static 2) 0 all) callsAll copied
  let deleted := CapOp.apply (.delete (.static 0) 1) callsAll back
  Booted sample ∧ ReflTransGen (TreeStep (fun _ _ => True) callsAll) sample deleted ∧
    (deleted.slotMeta 3).state = .occupied ∧ (deleted.slotMeta 3).cdtParent = 2 ∧
    (deleted.slotMeta 2).state = .free ∧ ¬ CdtWellFormed deleted
  := by
  refine ⟨booted_sample, ?_, by decide, by decide, by decide, ?_⟩
  · refine .tail ?_ (treeStep_apply _ trivial (by decide))
    refine .tail ?_ (treeStep_apply _ trivial (by decide))
    exact .single (treeStep_apply _ trivial (by decide))
  · intro h
    have hstate := h.parent 3 (by decide)
    revert hstate
    decide

/-! ## Rights -/

/-- The slot `d` is a descendant of the slot `s`. -/
def Kernel.Descends (k : Kernel) (d s : CapSlot) : Prop :=
  TransGen (fun a b => b ≠ invalidSlot ∧ (k.slotMeta a).cdtParent = b) d s

/-- The rights of a minted capability are among those of its source. -/
def MintsSubset (op : CapOp) (k : Kernel) : Prop :=
  MintsWithin (fun a b => a.contains b = true) op k

theorem AtBoot.confined {k : Kernel} (h : AtBoot k) :
  CapSpace.Confined (fun _ => 0) k.capSpace
  := by
  have hchild : ∀ c p, ¬ k.capSpace.Child c p := by
    rintro c p ⟨hp, hcp⟩
    apply hp
    rw [← hcp]
    apply (h.isolated c).parent
  have hcap : ∀ s, (k.capSpace.cap s).objType ≠ .untyped := by
    intro s
    simp only [capSpace, h.cap]
    decide
  constructor
  · intro c p hcp
    exact absurd hcp (hchild c p)
  · intro s _
    simp only [capSpace, h.cap]
    apply Capability.spare_null
  · intro c p hcp
    exact absurd hcp (hchild c p)
  · intro s hs
    exact absurd hs (hcap s)
  · intro s _ hs
    exact absurd hs (hcap s)
  · intro c p hcp
    exact absurd hcp (hchild c p)

/-- In runs in which capabilities are minted with a part of the rights of their source, and in which
a slot with children is never deleted, a descendant has no more rights to an object than the
capability it descends from. -/
theorem rights_subset_of_run {k k' : Kernel} (hboot : Booted k)
    (hrun : ReflTransGen (CapStep MintsSubset deletesLeaves) k k') {d s : CapSlot}
    (hds : k'.Descends d s) (hobject : (k'.cap d).object = (k'.cap s).object) :
  (k'.cap s).rights.contains (k'.cap d).rights = true ∧
    ∀ right, (k'.cap d).hasRight right = true → (k'.cap s).hasRight right = true
  := by
  let ok : CapRights → CapRights → Prop := fun a b => a.contains b = true
  obtain ⟨k₀, hk₀, hk⟩ : ∃ k₀, AtBoot k₀ ∧ Reached ok (fun _ => 0) k₀ k := hboot.reached
  have hreached : Reached ok (fun _ => 0) k k' := by
    apply reached_of_run _ _ hk.inv (ReflTransGen.mono (fun _ _ => .inl) _ _ hrun)
    · intro _ _
      apply id
    · intro _ _
      apply id
  obtain ⟨rank, hconfined⟩ := CapSpace.Confined.run (fun _ _ => id) hk₀.confined (hk.trans hreached).run
  have hsubset := hconfined.rights_subset hds hobject
  use hsubset
  intro right hright
  apply contains_trans hsubset hright

/-- Minting with the rights of the source but for the right to grant meets the assumptions. -/
theorem rights_subset_mint :
  let minted := CapOp.apply (.mintSlot (.static 0) 2 (.static 0) 0 7 (read ||| write)) deletesLeaves
    sample
  minted.Descends 2 0 ∧ (minted.cap 0).rights.contains (minted.cap 2).rights = true
  := by
  intro minted
  have hdescends : minted.Descends 2 0 := .single (by decide)
  refine ⟨hdescends, (rights_subset_of_run booted_sample ?_ hdescends (by decide)).1⟩
  refine .single (capStep_apply _ ?_ (by decide))
  rintro cnode dest srcCnode src badge rights s heq hs
  cases heq
  cases hs
  decide

/-- From a capability with the rights to read and to grant, the system call `CNode_Mint` derives one
with the right to write. -/
theorem rights_amplified_by_mint :
  let copied := CapOp.apply (.copySlot (.static 0) 2 (.static 0) 0 (read ||| grant)) callsAll sample
  let minted := CapOp.apply (.mintSlot (.static 0) 3 (.static 0) 2 7 cnodeMintRights) callsAll copied
  Booted sample ∧ ReflTransGen (CapStep (fun _ _ => True) callsAll) sample minted ∧
    minted.Descends 3 2 ∧ (minted.cap 3).object = (minted.cap 2).object ∧
    (minted.cap 2).hasRight write = false ∧
    (minted.cap 3).hasRight write = true ∧
    (minted.cap 2).rights.contains (minted.cap 3).rights = false
  := by
  refine ⟨booted_sample, ?_, .single (by decide), by decide, by decide, by decide, by decide⟩
  refine .tail ?_ (capStep_apply _ trivial (by decide))
  exact .single (capStep_apply _ trivial (by decide))

end SaltyOS
