import SaltyOS.Cap.SlotTable

/-!
# A rule for the operations on capability nodes

The states that an operation can leave behind are listed once, as the assumptions of `OpRule`. An
invariant that holds in all of them survives the operation, whatever path it takes.
-/

namespace SaltyOS

open Prog

/-- The capability nodes that an operation is run on. -/
def CapOp.cnodes : CapOp → List ObjPtr
  | .copySlot cnode _ srcCnode _ _ => [cnode, srcCnode]
  | .mintSlot cnode _ srcCnode _ _ _ => [cnode, srcCnode]
  | .moveSlot cnode _ srcCnode _ => [cnode, srcCnode]
  | .mutateSlot cnode _ srcCnode _ _ => [cnode, srcCnode]
  | .saveCaller cnode _ _ => [cnode]
  | .delete cnode _ => [cnode]
  | .revoke cnode _ => [cnode]
  | .retype cnode _ _ _ destCnode _ => [cnode, destCnode]
  | .reset cnode _ => [cnode]
  | .release _ _ => []

namespace Kernel

/-- A capability derived from the one in `src` is written to the slot `s`, which has been allocated. -/
def derived (k : Kernel) (src s : CapSlot) (rights : CapRights) (badge : ℕ) : Kernel :=
  (((k.takeSlot s).setCap s
    { k.cap src with rights, badge, depth := (k.cap src).depth + 1 }).insertChild src s).incrementRefcount
      (k.cap src).object

/-- The caller of a thread is saved in the slot `s`, which has been allocated. -/
def saved (k : Kernel) (s : CapSlot) (cnode : ObjPtr) (index : ℕ) (tcb : ObjPtr) : Kernel :=
  let caller := (k.tcb tcb).replyTcb
  ((((k.takeSlot s).incrementRefcount caller).setCap s
    { object := caller, objType := .tcb, rights := CapRights.reply, badge := 0, depth := 0 }).setRef
      cnode index s).setTcb tcb fun t => { t with replyTcb := .null }

end Kernel

/-- Everything that an operation started in `k` can do leads to `Q`, and it halts only for a reason
in `H`. -/
structure OpRule (call : Call → KProc Unit) (op : CapOp) (k : Kernel) (Q : Kernel → Prop)
    (H : Halt → Prop) : Prop where
  same : Q k
  undo : ∀ {s}, k.findSlot = some s → Q ((k.takeSlot s).freeSlot s)
  derive : ∀ {s src rights badge}, k.findSlot = some s → (k.cap src).hasRight CapRights.grant = true →
    ((k.cap src).rights.contains rights = true ∨ ∃ cnode dest srcCnode i,
      op = .mintSlot cnode dest srcCnode i badge rights ∧ k.getRef srcCnode i = some src) →
    ∀ cnode dest, Q ((k.derived src s rights badge).setRef cnode dest s)
  move : ∀ {srcCnode i s}, srcCnode ∈ op.cnodes → k.getRef srcCnode i = some s →
    ∀ cnode dest, Q ((k.setRef cnode dest s).setRef srcCnode i invalidSlot)
  setBadge : ∀ {k'} s badge, Q k' → Q (k'.setCap s { k'.cap s with badge })
  save : ∀ {s}, k.findSlot = some s → ∀ cnode index tcb,
    (call (.releaseObject (k.tcb tcb).replyTcb .tcb) (k.saved s cnode index tcb)).Sat (fun _ => Q)
      (fun _ _ => True) H
  delete : ∀ {cnode index s}, cnode ∈ op.cnodes → k.getRef cnode index = some s →
    k.hasChildren s = false → (dropCapability call s k).Sat
      (fun _ k' => Q (k'.setRef cnode index invalidSlot)) (fun _ _ => True) H
  revoke : ∀ {cnode index s}, op = .revoke cnode index → k.getRef cnode index = some s →
    (call (.revoke s) k).Sat (fun _ k' => Q (k'.setRef cnode index invalidSlot)) (fun _ _ => True) H
  release : ∀ obj objType, (call (.releaseObject obj objType) k).Sat (fun _ => Q) (fun _ _ => True) H
  retype : ∀ {cnode index newType sizeBits destCnode destIndex},
    op = .retype cnode index newType sizeBits destCnode destIndex →
    (untypedRetype cnode index newType sizeBits destCnode destIndex k).Sat (fun _ => Q) (fun _ => Q) H
  reset : ∀ {cnode index}, op = .reset cnode index →
    (untypedReset cnode index k).Sat (fun _ => Q) (fun _ => Q) H

namespace OpRule

variable {call : Call → KProc Unit} {op : CapOp} {k : Kernel} {Q : Kernel → Prop} {H : Halt → Prop}
variable (h : OpRule call op k Q H)

include h

/-- A slot is found and taken, or the table is full and nothing happens. -/
theorem allocSlot_sat {Q' : CapSlot → Kernel → Prop}
    (hok : ∀ s, k.findSlot = some s → Q' s (k.takeSlot s)) :
  (allocSlot k).Sat Q' (fun _ => Q) H
  := by
  simp only [allocSlot, sat_bind, sat_get]
  cases hfind : k.findSlot with
  | none => apply h.same
  | some s => apply hok s hfind

/-- A capability is derived into a new slot, which is freed again if the derivation fails. -/
theorem deriveInto_sat {cnode : ObjPtr} {dest : ℕ} {derivation : CapSlot → KProg Unit}
    (hderive : ∀ s, k.findSlot = some s → (derivation s (k.takeSlot s)).Sat
      (fun _ k' => Q (k'.setRef cnode dest s)) (fun _ k' => k' = k.takeSlot s) H) :
  (deriveInto cnode dest derivation k).Sat (fun _ => Q) (fun _ => Q) H
  := by
  rw [deriveInto, sat_bind]
  apply h.allocSlot_sat
  intro s hs
  rw [sat_bind, sat_attempt]
  apply (hderive s hs).mono
  · intro _ _ hk'
    apply hk'
  · rintro _ _ rfl
    apply h.undo hs
  · intro _ hr
    apply hr

/-- A copy of the capability with at most the given rights. -/
theorem copySlot_sat (cnode : ObjPtr) (dest : ℕ) (srcCnode : ObjPtr) (src : ℕ) (rights : CapRights) :
  (copySlot cnode dest srcCnode src rights k).Sat (fun _ => Q) (fun _ => Q) H
  := by
  rw [copySlot, sat_bind]
  apply sourceSlot_sat _ fun _ => h.same
  intro s _
  rw [sat_bind, sat_get]
  split
  · apply h.same
  apply h.deriveInto_sat
  intro t ht
  simp only [copyCapability, sat_bind, sat_get]
  split
  · rfl
  rename_i hgrant
  split
  · rfl
  rename_i hsubset
  split
  · rfl
  · rw [Bool.not_eq_false] at hgrant hsubset
    apply h.derive ht hgrant (.inl hsubset)

/-- A copy with a badge. -/
theorem mintSlot_sat {cnode srcCnode : ObjPtr} {dest src badge : ℕ} {rights : CapRights}
    (hop : op = .mintSlot cnode dest srcCnode src badge rights) :
  (mintSlot cnode dest srcCnode src badge rights k).Sat (fun _ => Q) (fun _ => Q) H
  := by
  rw [mintSlot, sat_bind]
  apply sourceSlot_sat _ fun _ => h.same
  intro s hs
  apply h.deriveInto_sat
  intro t ht
  simp only [mintCapability, sat_bind, sat_get]
  split
  · rfl
  split
  · rfl
  rename_i hgrant
  split
  · rfl
  split
  · rfl
  · rw [Bool.not_eq_false] at hgrant
    apply h.derive ht hgrant (.inr ⟨cnode, dest, srcCnode, src, hop, hs⟩)

/-- The reference moves to another place, and the slot stays. -/
theorem moveSlot_sat {srcCnode : ObjPtr} (hsrc : srcCnode ∈ op.cnodes) (cnode : ObjPtr) (dest src : ℕ) :
  (moveSlot cnode dest srcCnode src k).Sat (fun _ => Q) (fun _ => Q) H
  := by
  rw [moveSlot, sat_bind]
  apply sourceSlot_sat _ fun _ => h.same
  intro s hs
  apply h.move hsrc hs

/-- A move that also sets the badge. -/
theorem mutateSlot_sat {srcCnode : ObjPtr} (hsrc : srcCnode ∈ op.cnodes) (cnode : ObjPtr)
    (dest src badge : ℕ) :
  (mutateSlot cnode dest srcCnode src badge k).Sat (fun _ => Q) (fun _ => Q) H
  := by
  simp only [mutateSlot, sat_bind, sat_get]
  obtain _ | s := k.getRef srcCnode src
  · apply h.same
  dsimp only
  split
  · apply h.same
  rw [sat_bind]
  apply (h.moveSlot_sat hsrc cnode dest src).imp
  intro _ k' hk'
  rw [sat_bind, sat_get]
  cases k'.getRef cnode dest with
  | none => apply hk'
  | some t => apply h.setBadge t badge hk'

/-- The caller that a thread has to reply to is put into a reply capability. -/
theorem saveCaller_sat (cnode : ObjPtr) (index : ℕ) (tcb : ObjPtr) :
  (saveCaller call cnode index tcb k).Sat (fun _ => Q) (fun _ => Q) H
  := by
  simp only [saveCaller, sat_bind, sat_get]
  split
  · apply h.same
  split
  · apply h.same
  split
  · apply h.same
  rw [sat_bind]
  apply h.allocSlot_sat
  intro s hs
  simp only [sat_bind, sat_modify]
  rw [sat_lift (F := fun _ _ => True)]
  apply h.save hs

/-- The capability is deleted and its reference is cleared. -/
theorem cnodeDelete_sat {cnode : ObjPtr} (hcnode : cnode ∈ op.cnodes) (index : ℕ) :
  (cnodeDelete call cnode index k).Sat (fun _ => Q) (fun _ => Q) H
  := by
  simp only [cnodeDelete, sat_bind, sat_get]
  split
  · apply h.same
  rcases hget : k.getRef cnode index with _ | s
  · apply h.same
  dsimp only
  split_ifs with hleaf
  · apply h.same
  rw [Bool.not_eq_true] at hleaf
  rw [sat_bind, sat_lift (F := fun _ _ => True)]
  apply h.delete hcnode hget hleaf

/-- The capability at the reference and all that are derived from it are deleted. -/
theorem cnodeRevoke_sat {cnode : ObjPtr} {index : ℕ} (hop : op = .revoke cnode index) :
  (cnodeRevoke call cnode index k).Sat (fun _ => Q) (fun _ => Q) H
  := by
  simp only [cnodeRevoke, sat_bind, sat_get]
  split
  · apply h.same
  cases hget : k.getRef cnode index with
  | none => apply h.same
  | some s =>
    rw [sat_bind, sat_lift (F := fun _ _ => True)]
    apply h.revoke hop hget

/-- The rule for an operation. -/
theorem exec_sat :
  (op.exec call k).Sat (fun _ => Q) (fun _ => Q) H
  := by
  cases hop : op with
  | copySlot cnode dest srcCnode src rights => apply h.copySlot_sat
  | mintSlot cnode dest srcCnode src badge rights => apply h.mintSlot_sat hop
  | moveSlot cnode dest srcCnode src => apply h.moveSlot_sat (by simp [hop, CapOp.cnodes])
  | mutateSlot cnode dest srcCnode src badge => apply h.mutateSlot_sat (by simp [hop, CapOp.cnodes])
  | saveCaller cnode index tcb => apply h.saveCaller_sat
  | delete cnode index => apply h.cnodeDelete_sat (by simp [hop, CapOp.cnodes])
  | revoke cnode index => apply h.cnodeRevoke_sat hop
  | retype cnode index newType sizeBits destCnode dest => apply h.retype hop
  | reset cnode index => apply h.reset hop
  | release obj objType =>
    rw [CapOp.exec, sat_lift (F := fun _ _ => True)]
    apply h.release

end OpRule

end SaltyOS
