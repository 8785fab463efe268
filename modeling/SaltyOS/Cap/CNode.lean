import SaltyOS.Cap.Untyped

/-!
# Operations on capability nodes

Copying, minting, moving and mutating capabilities, saving a reply capability, deleting and
revoking. The operations of the capability system form one type `CapOp`, so that a run is a sequence
of operations.
-/

namespace SaltyOS

/-! ## Derivation -/

/-- `Capability::copy`: derive a capability with fewer rights. -/
def copyCapability (sourceSlot : CapSlot) (newRights : CapRights) (destSlot : CapSlot) :
    KProg Unit := do
  let k ← Prog.get
  let cap := k.cap sourceSlot
  if cap.hasRight CapRights.grant = false then Prog.throw .insufficientRights
  else if cap.rights.contains newRights = false then Prog.throw .rightsNotSubset
  else if maxDerivationDepth ≤ cap.depth then Prog.throw .depthExceeded
  else do
    Prog.modify fun k => k.setCap destSlot { cap with rights := newRights, depth := cap.depth + 1 }
    Prog.modify fun k => k.insertChild sourceSlot destSlot
    Prog.modify fun k => k.incrementRefcount cap.object

/-- `Capability::mint`: derive a badged capability. The new rights are not compared with those of
the source. -/
def mintCapability (sourceSlot : CapSlot) (badge : ℕ) (newRights : CapRights) (destSlot : CapSlot) :
    KProg Unit := do
  let k ← Prog.get
  let cap := k.cap sourceSlot
  if cap.objType ≠ .endpoint ∧ cap.objType ≠ .notification then Prog.throw .invalidOperation
  else if cap.hasRight CapRights.grant = false then Prog.throw .insufficientRights
  else if newRights.contains CapRights.grant then Prog.throw .invalidBadge
  else if maxDerivationDepth ≤ cap.depth then Prog.throw .depthExceeded
  else do
    Prog.modify fun k => k.setCap destSlot
      { cap with rights := newRights, badge, depth := cap.depth + 1 }
    Prog.modify fun k => k.insertChild sourceSlot destSlot
    Prog.modify fun k => k.incrementRefcount cap.object

variable (cnode : ObjPtr) (dest : ℕ)

/-- Allocate a slot, derive a capability into it and refer to it from a capability node. The slot is
freed again if the derivation fails. -/
def deriveInto (derivation : CapSlot → KProg Unit) : KProg Unit := do
  let destSlot ← allocSlot
  match ← Prog.attempt (derivation destSlot) with
  | .error e => do
    Prog.modify fun k => k.freeSlot destSlot
    Prog.throw e
  | .ok _ => Prog.modify fun k => k.setRef cnode dest destSlot

/-- The reference at the source of an operation that needs an empty reference at its destination. -/
def sourceSlot (srcCnode : ObjPtr) (src : ℕ) : KProg CapSlot := do
  let k ← Prog.get
  if k.numRefs cnode ≤ dest ∨ k.numRefs srcCnode ≤ src then Prog.throw .invalidSlot
  else if k.isSlotEmpty cnode dest = false then Prog.throw .slotOccupied
  else
    match k.getRef srcCnode src with
    | none => Prog.throw .slotEmpty
    | some slot => pure slot

/-- `CNode::copy_slot` -/
def copySlot (srcCnode : ObjPtr) (src : ℕ) (newRights : CapRights) : KProg Unit := do
  let srcSlot ← sourceSlot cnode dest srcCnode src
  let k ← Prog.get
  if (k.cap srcSlot).hasRight CapRights.grant = false then Prog.throw .insufficientRights
  else deriveInto cnode dest (copyCapability srcSlot newRights)

/-- `CNode::mint_slot` -/
def mintSlot (srcCnode : ObjPtr) (src : ℕ) (badge : ℕ) (newRights : CapRights) : KProg Unit := do
  let srcSlot ← sourceSlot cnode dest srcCnode src
  deriveInto cnode dest (mintCapability srcSlot badge newRights)

/-- The rights that the system call `CNode_Mint` asks for: all but the right to grant. -/
def cnodeMintRights : CapRights := 0xFFFFFFFF#32 &&& ~~~(1#32 <<< 3)

/-! ## Moving -/

/-- `CNode::move_slot` -/
def moveSlot (srcCnode : ObjPtr) (src : ℕ) : KProg Unit := do
  let srcSlot ← sourceSlot cnode dest srcCnode src
  Prog.modify fun k => k.setRef cnode dest srcSlot
  Prog.modify fun k => k.setRef srcCnode src invalidSlot

/-- `CNode::mutate_slot` -/
def mutateSlot (srcCnode : ObjPtr) (src : ℕ) (newBadge : ℕ) : KProg Unit := do
  let k ← Prog.get
  match k.getRef srcCnode src with
  | none => Prog.throw .slotEmpty
  | some srcSlot =>
    if (k.cap srcSlot).objType ≠ .endpoint then Prog.throw .invalidOperation
    else do
      moveSlot cnode dest srcCnode src
      let k ← Prog.get
      match k.getRef cnode dest with
      | none => Prog.throw .slotEmpty
      | some slot => Prog.modify fun k => k.setCap slot { k.cap slot with badge := newBadge }

section Calls

variable (call : Call → KProc Unit)

/-- `CNode::save_caller`: turn the caller that the current thread can reply to into a reply
capability. -/
def saveCaller (cnode : ObjPtr) (index : ℕ) (currentTcb : ObjPtr) : KProg Unit := do
  let k ← Prog.get
  if k.numRefs cnode ≤ index then Prog.throw .invalidSlot
  else if k.isSlotEmpty cnode index = false then Prog.throw .slotOccupied
  else
    let caller := (k.tcb currentTcb).replyTcb
    if caller = .null then Prog.throw .slotEmpty
    else do
      let slot ← allocSlot
      Prog.modify fun k => k.incrementRefcount caller
      Prog.modify fun k => k.setCap slot
        { object := caller, objType := .tcb, rights := CapRights.reply, badge := 0, depth := 0 }
      Prog.modify fun k => k.setRef cnode index slot
      Prog.modify fun k => k.setTcb currentTcb fun t => { t with replyTcb := .null }
      Prog.lift (call (.releaseObject caller .tcb))

/-- `CNode::revoke`. Only the reference at the index is cleared. -/
def cnodeRevoke (cnode : ObjPtr) (index : ℕ) : KProg Unit := do
  let k ← Prog.get
  if k.numRefs cnode ≤ index then Prog.throw .invalidSlot
  else
    match k.getRef cnode index with
    | none => Prog.throw .slotEmpty
    | some slot => do
      Prog.lift (call (.revoke slot))
      Prog.modify fun k => k.setRef cnode index invalidSlot

/-- `CNode::delete` -/
def cnodeDelete (cnode : ObjPtr) (index : ℕ) : KProg Unit := do
  let k ← Prog.get
  if k.numRefs cnode ≤ index then Prog.throw .invalidSlot
  else
    match k.getRef cnode index with
    | none => Prog.throw .slotEmpty
    | some slot =>
      if k.hasChildren slot then Prog.throw .hasChildren
      else do
        Prog.lift (dropCapability call slot)
        Prog.modify fun k => k.setRef cnode index invalidSlot

end Calls

/-! ## Runs -/

/-- The operations of the capability system. -/
inductive CapOp where
  | copySlot (cnode : ObjPtr) (dest : ℕ) (srcCnode : ObjPtr) (src : ℕ) (newRights : CapRights)
  | mintSlot (cnode : ObjPtr) (dest : ℕ) (srcCnode : ObjPtr) (src : ℕ) (badge : ℕ)
    (newRights : CapRights)
  | moveSlot (cnode : ObjPtr) (dest : ℕ) (srcCnode : ObjPtr) (src : ℕ)
  | mutateSlot (cnode : ObjPtr) (dest : ℕ) (srcCnode : ObjPtr) (src : ℕ) (newBadge : ℕ)
  | saveCaller (cnode : ObjPtr) (index : ℕ) (currentTcb : ObjPtr)
  | delete (cnode : ObjPtr) (index : ℕ)
  | revoke (cnode : ObjPtr) (index : ℕ)
  | retype (cnode : ObjPtr) (index : ℕ) (newType : ObjectType) (sizeBits : ℕ)
    (destCnode : ObjPtr) (destIndex : ℕ)
  | reset (cnode : ObjPtr) (index : ℕ)
  | release (obj : ObjPtr) (objType : ObjectType)
  deriving DecidableEq

/-- Run an operation with the given procedures for deletion and destruction. -/
def CapOp.exec (call : Call → KProc Unit) : CapOp → KProg Unit
  | .copySlot cnode dest srcCnode src newRights => SaltyOS.copySlot cnode dest srcCnode src newRights
  | .mintSlot cnode dest srcCnode src badge newRights =>
    SaltyOS.mintSlot cnode dest srcCnode src badge newRights
  | .moveSlot cnode dest srcCnode src => SaltyOS.moveSlot cnode dest srcCnode src
  | .mutateSlot cnode dest srcCnode src newBadge =>
    SaltyOS.mutateSlot cnode dest srcCnode src newBadge
  | .saveCaller cnode index currentTcb => SaltyOS.saveCaller call cnode index currentTcb
  | .delete cnode index => cnodeDelete call cnode index
  | .revoke cnode index => cnodeRevoke call cnode index
  | .retype cnode index newType sizeBits destCnode destIndex =>
    untypedRetype cnode index newType sizeBits destCnode destIndex
  | .reset cnode index => untypedReset cnode index
  | .release obj objType => Prog.lift (call (.releaseObject obj objType))

/-- One operation leads from a state to another, where `cond` says which operations are run in which
states and `allow` which calls they make. -/
def CapStep (cond : CapOp → Kernel → Prop) (allow : Call → Kernel → Bool) (k k' : Kernel) : Prop :=
  ∃ op fuel, cond op k ∧ (op.exec (invoke allow fuel) k).state? = some k'

/-- The state after an operation. An operation that halts leaves the state alone. -/
def CapOp.apply (op : CapOp) (allow : Call → Kernel → Bool) (k : Kernel) : Kernel :=
  ((op.exec (invoke allow 32) k).state?).getD k

theorem capStep_apply {cond : CapOp → Kernel → Prop} {allow : Call → Kernel → Bool} {k : Kernel}
    (op : CapOp) (hcond : cond op k) (h : (op.exec (invoke allow 32) k).state?.isSome = true) :
  CapStep cond allow k (op.apply allow k)
  := by
  obtain ⟨k', hk'⟩ := Option.isSome_iff_exists.mp h
  use op, 32, hcond
  rw [CapOp.apply, hk']
  rfl

end SaltyOS
