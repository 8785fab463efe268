import SaltyOS.Cap.State

/-!
# The slot allocator, the derivation tree and the child lists of untyped regions

The operations of the global slot array: allocating and freeing slots, linking slots into the
capability derivation tree (CDT), and linking them into the child list of an untyped region. All of
them act on the metadata of a few slots.
-/

open Function

namespace SaltyOS

namespace Kernel

variable (k : Kernel)

/-! ## Allocation -/

/-- The slot that the next allocation takes. -/
def findSlot : Option CapSlot :=
  match (List.range' k.nextSlot (k.numSlots - k.nextSlot)).find? fun i => !k.bitmap i with
  | some i => some i
  | none => (List.range k.nextSlot).find? fun i => !k.bitmap i

variable (slot : CapSlot)

/-- Mark a slot as allocated. -/
def takeSlot : Kernel :=
  { k with
    bitmap := update k.bitmap slot true
    slotMeta := update k.slotMeta slot CapSlotMeta.occupied
    nextSlot := slot + 1 }

/-- Free a slot. The capability in the slot is left alone. -/
def freeSlot : Kernel :=
  if slot < k.numSlots then
    { k with
      bitmap := update k.bitmap slot false
      slotMeta := update k.slotMeta slot CapSlotMeta.free
      nextSlot := min slot k.nextSlot }
  else k

/-! ## The derivation tree -/

/-- Clear the links of a slot in the derivation tree. -/
def clearLinks : Kernel :=
  k.setMeta slot fun m =>
    { m with
      cdtParent := invalidSlot, cdtFirstChild := invalidSlot, cdtNext := invalidSlot,
      cdtPrev := invalidSlot }

/-- Make a slot a root of the derivation tree. -/
def insertRoot : Kernel := k.clearLinks slot

/-- Insert a slot as the first child of another slot. -/
def insertChild (parent child : CapSlot) : Kernel :=
  let k := k.setMeta child fun m => { m with cdtParent := parent }
  let oldFirst := (k.slotMeta parent).cdtFirstChild
  let k := k.setMeta child fun m => { m with cdtNext := oldFirst, cdtPrev := invalidSlot }
  let k :=
    if oldFirst ≠ invalidSlot then k.setMeta oldFirst fun m => { m with cdtPrev := child } else k
  k.setMeta parent fun m => { m with cdtFirstChild := child }

/-- Take a slot out of the derivation tree. -/
def remove : Kernel :=
  let parent := (k.slotMeta slot).cdtParent
  let prev := (k.slotMeta slot).cdtPrev
  let next := (k.slotMeta slot).cdtNext
  let k :=
    if prev ≠ invalidSlot then k.setMeta prev fun m => { m with cdtNext := next }
    else if parent ≠ invalidSlot then k.setMeta parent fun m => { m with cdtFirstChild := next }
    else k
  let k := if next ≠ invalidSlot then k.setMeta next fun m => { m with cdtPrev := prev } else k
  k.clearLinks slot

/-- The slot has a child in the derivation tree. -/
def hasChildren : Bool := (k.slotMeta slot).cdtFirstChild != invalidSlot

/-! ## The child list of an untyped region -/

/-- Add a slot to the child list of the slot of an untyped region. -/
def addUtChild (untypedSlot child : CapSlot) : Kernel :=
  let oldFirst := (k.slotMeta untypedSlot).utFirstChild
  let k := k.setMeta child fun m => { m with utNext := oldFirst, utParent := untypedSlot }
  k.setMeta untypedSlot fun m => { m with utFirstChild := child }

/-- Unlink a slot from the child list of the slot of an untyped region, where `prev` is the element
before it in the list. -/
def unlinkUtChild (untypedSlot child prev : CapSlot) : Kernel :=
  let next := (k.slotMeta child).utNext
  let k :=
    if prev = invalidSlot then k.setMeta untypedSlot fun m => { m with utFirstChild := next }
    else k.setMeta prev fun m => { m with utNext := next }
  k.setMeta child fun m => { m with utNext := invalidSlot, utParent := invalidSlot }

/-- The slot of an untyped region has a child in its list. -/
def hasUtChildren (untypedSlot : CapSlot) : Bool :=
  (k.slotMeta untypedSlot).utFirstChild != invalidSlot

/-! ## Capabilities and references -/

/-- Put the null capability into a slot. -/
def nullifyCapability : Kernel := k.setCap slot Capability.null

/-- Empty a slot and free it. -/
def dropSlot : Kernel :=
  let k := k.nullifyCapability slot
  let k := k.setMeta slot fun m => { m with utParent := invalidSlot }
  k.freeSlot slot

/-- Count one more reference to an object. -/
def incrementRefcount (obj : ObjPtr) : Kernel :=
  if obj = .null then k else k.setRefCount obj (((k.header obj).refCount + 1) % 2 ^ 32)

/-- The reference of a capability node is empty. Indices out of range are not empty. -/
def isSlotEmpty (cnode : ObjPtr) (index : ℕ) : Bool :=
  index < k.numRefs cnode && (k.cnode cnode).slots index == invalidSlot

/-- The reference of a capability node at an index. -/
def getRef (cnode : ObjPtr) (index : ℕ) : Option CapSlot :=
  if index < k.numRefs cnode ∧ (k.cnode cnode).slots index ≠ invalidSlot then
    some ((k.cnode cnode).slots index)
  else none

end Kernel

/-- Allocate a slot. -/
def allocSlot : KProg CapSlot := do
  let k ← Prog.get
  match k.findSlot with
  | some slot =>
    Prog.modify fun k => k.takeSlot slot
    pure slot
  | none => Prog.throw .outOfSlots

/-- Free a frame of the physical memory manager. A wrong owner is a kernel panic. -/
def pmmFree {ε : Type} (addr : PhysAddr) (owner : FrameOwner) : Prog Kernel ε Unit := do
  let k ← Prog.get
  match k.pmm.freeOwned addr owner with
  | some pmm => Prog.modify fun k => k.setPmm pmm
  | none => Prog.stop .panic

end SaltyOS
