import SaltyOS.Cap.CowTree

/-!
# Destroying a memory object keeps the tree of memory objects

The procedures for the destruction of memory objects only call each other. Given that the calls they
make keep the tree, so do they.
-/

namespace SaltyOS

open Prog

/-- The calls to the procedures for the destruction of memory objects keep the tree. -/
structure CowCalls (r : ObjPtr → ℕ) (call : Call → KProc Unit) : Prop where
  moDestroy : ∀ m, m ≠ .null →
    Prog.Keeps (CowTree r) (MoStep r (r m)) (fun _ => True) (call (.moDestroy m))
  removeSibling : ∀ child prev, child ≠ .null →
    Prog.Keeps (CowTree r) SameRefs (fun _ => True) (call (.removeSibling child prev))

section Programs

variable {r : ObjPtr → ℕ} {call : Call → KProc Unit}

section

variable (h : CowCalls r call)
include h

theorem removeSibling_keeps {child prev : ObjPtr} (hchild : child ≠ .null) :
  Prog.Keeps (CowTree r) SameRefs (fun _ => True) (removeSibling call child prev)
  := by
  apply keeps_get_bind
  intro k hk
  split
  · exact ⟨hk, refl k⟩
  split_ifs with hnext
  · use (hk.skipNext hchild hnext).endAt
    refine IsTrans.trans _ _ _ (SameRefs.setMo ?_) (SameRefs.setMo ?_) <;> intro m <;> rfl
  · apply h.removeSibling child _ hchild k hk

theorem removeFromChildList_keeps {parent child : ObjPtr} (hchild : child ≠ .null) :
  Prog.Keeps (CowTree r) SameRefs (fun _ => True) (removeFromChildList call parent child)
  := by
  apply keeps_get_bind
  intro k hk
  split_ifs with hfirst
  · use (hk.dropFirst hchild hfirst).endAt
    refine IsTrans.trans _ _ _ (SameRefs.setMo ?_) (SameRefs.setMo ?_) <;> intro m <;> rfl
  · apply h.removeSibling child _ hchild k hk

theorem detachFromParent_keeps {mo parent : ObjPtr} (hmo : mo ≠ .null) (hparent : parent ≠ .null) :
  Prog.Keeps (CowTree r) (MoStep r (r parent)) (fun _ => True) (detachFromParent call mo parent)
  := by
  apply keeps_bind
  · intro k hk
    apply (removeFromChildList_keeps h hmo k hk).imp_state _ fun _ _ => trivial
    intro k' hk'
    exact ⟨hk'.1, MoStep.of_sameRefs hk'.2⟩
  intro _
  apply keeps_bind keeps_get
  intro k
  apply keeps_bind
  · apply Quiet.keeps_cowTree
    apply Quiet.modify
    intro k'
    apply SameSlots.setRefCount
  intro _
  apply keeps_bind
  · apply keeps_when
    intro _
    apply h.moDestroy parent hparent
  intro _
  apply keeps_get_bind
  intro k hk
  rw [sat_when]
  constructor
  · rintro ⟨_, _, hcow, _, hfirst⟩
    have hc : Collapsible r k parent (k.mo parent).firstChild (k.cowParentOf parent) :=
      ⟨hk, hcow, rfl, hfirst, rfl⟩
    apply sat_bind_keeps
    use hc.moStep le_rfl
    apply h.moDestroy parent hparent _ hc.cowTree
  · intro _
    exact ⟨hk, refl k⟩

theorem moDestroy_keeps {m : ObjPtr} (hm : m ≠ .null) :
  Prog.Keeps (CowTree r) (MoStep r (r m)) (fun _ => True) (moDestroy call m)
  := by
  apply keeps_bind
  · apply Quiet.keeps_cowTree
    apply Quiet.modify
    intro k
    apply SameSlots.kill
  intro _
  apply keeps_bind (Quiet.reclaim m).keeps_cowTree
  intro _
  apply keeps_get_bind
  intro k hk
  rw [sat_when]
  constructor
  · intro hcow
    obtain ⟨hparent, hrank⟩ := hk.parent m hcow
    rw [sat_bind, sat_when]
    constructor
    · intro _
      apply (detachFromParent_keeps h hm hparent k hk).mono
      · rintro _ k' ⟨hk', hstep⟩
        have hs : k.CowSlot (k.mo m).cowParent := ⟨m, rfl, hcow⟩
        exact ⟨hk'.giveUp (hstep.kept m hrank), (hstep.mono hrank.le).giveUp le_rfl hs⟩
      · rintro _ k' ⟨hk', hstep⟩
        exact ⟨hk', hstep.mono hrank.le⟩
      · intro _ _
        trivial
    · intro hnull
      exact absurd hparent hnull
  · intro _
    exact ⟨hk, refl k⟩

end

end Programs

end SaltyOS
