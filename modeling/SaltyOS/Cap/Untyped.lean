import SaltyOS.Cap.Release

/-!
# Untyped regions

Objects are carved from an untyped region at its watermark. The sizes of the fixed-size objects are
those of the compiled kernel and are part of the state as `sizeOf`.
-/

open Function

namespace SaltyOS

/-- The size of a capability node without its references. -/
def sizeOfCNode : ℕ := 24

/-- The alignment of a capability node. -/
def alignOfCNode : ℕ := 8

/-- The size of a reference to a slot. -/
def sizeOfCapRef : ℕ := 4

/-- The number of bits of the size of a capability node, given the requested number. -/
def effectiveCnodeBits (sizeBits : ℕ) : Option ℕ :=
  if sizeBits = 0 then some 10
  else if sizeBits < 4 then none
  else if 16 < sizeBits then none
  else some sizeBits

/-- The size of an object in bytes. There is none for a capability node with a bad size. -/
def Kernel.objectSize (k : Kernel) (objType : ObjectType) (sizeBits : ℕ) : Option ℕ :=
  match objType with
  | .cnode => (effectiveCnodeBits sizeBits).map fun bits => sizeOfCNode + shl64 bits * sizeOfCapRef
  | .frame => some (shl64 (if sizeBits < 12 then 12 else sizeBits))
  | .untyped => some (shl64 sizeBits)
  | .memoryObject =>
    some (((k.sizeOf .memoryObject + 63) / 64 * 64 + 4095) / 4096 * 4096)
  | .null => some 0
  | .endpoint | .notification | .tcb | .vspace | .irqHandler | .ioPort | .schedContext =>
    some (k.sizeOf objType)

/-- The alignment of an object of the given size. -/
def objectAlign (objType : ObjectType) (objSize : ℕ) : ℕ :=
  match objType with
  | .cnode => alignOfCNode
  | .vspace => pageSize
  | _ => objSize

/-- The pointer of an object carved at an address with a capability in the given slot. -/
def objectPtr (objType : ObjectType) (capSlot : CapSlot) (addr : PhysAddr) : ObjPtr :=
  match objType with
  | .frame => .frameMeta capSlot
  | .vspace => .vspaceMeta capSlot
  | .untyped => .untypedMeta capSlot
  | _ => .mem addr

/-- The header of a new object. -/
def objectHeader (objType : ObjectType) (sizeBits : ℕ) : KernelObject :=
  match objType with
  | .cnode => KernelObject.new .cnode ((effectiveCnodeBits sizeBits).getD 0)
  | .frame => KernelObject.new .frame (if sizeBits < 12 then 12 else sizeBits)
  | .untyped => KernelObject.new .untyped sizeBits
  | _ => KernelObject.new objType 0

namespace Kernel

/-- Write the body of a new object. -/
def initBody (k : Kernel) (obj : ObjPtr) (objType : ObjectType) (addr : PhysAddr) (sizeBits : ℕ)
    (isDevice : Bool) : Kernel :=
  match objType with
  | .cnode => { k with cnode := update k.cnode obj CNode.empty }
  | .frame =>
    { k with
      frame := update k.frame obj
        { physAddr := addr, sizeBits := if sizeBits < 12 then 12 else sizeBits } }
  | .untyped =>
    { k with
      untyped := update k.untyped obj (UntypedMemory.new addr sizeBits isDevice) }
  | .vspace => { k with vspace := update k.vspace obj (VSpace.new addr) }
  | .memoryObject =>
    { k with
      mo := update k.mo obj (MemoryObject.new addr (if sizeBits = 0 then 1 else shl32 sizeBits)) }
  | .tcb => { k with tcb := update k.tcb obj Tcb.empty }
  | .notification => { k with notificationTcb := update k.notificationTcb obj .null }
  | .irqHandler => { k with irqNotification := update k.irqNotification obj .null }
  | .schedContext => { k with schedContextTcb := update k.schedContextTcb obj .null }
  | .endpoint | .ioPort | .null => k

/-- Create an object at an address. -/
def createObject (k : Kernel) (obj : ObjPtr) (objType : ObjectType) (sizeBits : ℕ)
    (isDevice : Bool) (addr : PhysAddr) : Kernel :=
  let k := k.initBody obj objType addr sizeBits isDevice
  { k with
    header := update k.header obj (objectHeader objType sizeBits)
    live := update k.live obj true }

end Kernel

/-- `CNode::insert_ref` -/
def insertRef (cnode : ObjPtr) (index : ℕ) (slot : CapSlot) : KProg Unit := do
  let k ← Prog.get
  if k.numRefs cnode ≤ index then Prog.throw .invalidSlot
  else if k.isSlotEmpty cnode index = false then Prog.throw .slotOccupied
  else Prog.modify fun k => k.setRef cnode index slot

/-- Carve one object at an offset of an untyped region and put a capability to it into a capability
node. -/
def retypeOne (region : ObjPtr) (untypedSlot : CapSlot) (newType : ObjectType) (sizeBits : ℕ)
    (offset : ℕ) (destCnode : ObjPtr) (destIndex : ℕ) : KProg Unit := do
  let capSlot ← allocSlot
  if newType = .null then do
    Prog.modify fun k => k.freeSlot capSlot
    Prog.throw .invalidOperation
  else do
    let k ← Prog.get
    let addr := wrap64 ((k.untyped region).physAddr + offset)
    let object := objectPtr newType capSlot addr
    Prog.modify fun k => k.createObject object newType sizeBits (k.untyped region).isDevice addr
    Prog.modify fun k => k.setCap capSlot
      { k.cap capSlot with
        object, objType := newType, rights := CapRights.all, depth := 0, badge := 0 }
    Prog.modify fun k => k.insertChild untypedSlot capSlot
    Prog.modify fun k => k.addUtChild untypedSlot capSlot
    insertRef destCnode destIndex capSlot

/-- The watermark of a region rounded up to an alignment, if it stays inside the region. -/
def UntypedMemory.alignedWatermark (self : UntypedMemory) (align : ℕ) : Option ℕ :=
  let rounded := self.watermark + (align - 1)
  if 2 ^ 64 ≤ rounded then none
  else if self.sizeBytes < rounded / align * align then none
  else some (rounded / align * align)

/-- Round the watermark of a region up for an object. -/
def alignWatermark (region : ObjPtr) (newType : ObjectType) (objSize totalSize : ℕ) :
    KProg Unit := do
  let k ← Prog.get
  if objSize = 0 then pure ()
  else
    match (k.untyped region).alignedWatermark (objectAlign newType objSize) with
    | none => Prog.throw .insufficientMemory
    | some aligned => do
      Prog.modify fun k => k.setUntyped region fun ut => { ut with watermark := aligned }
      let k ← Prog.get
      if (k.untyped region).available < totalSize then Prog.throw .insufficientMemory else pure ()

/-- `UntypedMemory::retype` -/
def retype (region : ObjPtr) (untypedSlot : CapSlot) (newType : ObjectType) (sizeBits : ℕ)
    (numObjects : ℕ) (destCnode : ObjPtr) (destOffset : ℕ) : KProg Unit := do
  let k ← Prog.get
  if (k.untyped region).isDevice ∧ newType ≠ .frame ∧ newType ≠ .untyped then
    Prog.throw .invalidOperation
  else
    match k.objectSize newType sizeBits with
    | none => Prog.throw .invalidArgument
    | some objSize => do
      let totalSize := wrap64 (objSize * numObjects)
      if 2 ^ 64 ≤ destOffset + numObjects ∨ k.numRefs destCnode < destOffset + numObjects then
        Prog.throw .invalidSlot
      else if (k.untyped region).available < totalSize then Prog.throw .insufficientMemory
      else if (List.range numObjects).any fun i => !k.isSlotEmpty destCnode (destOffset + i) then
        Prog.throw .slotOccupied
      else do
        alignWatermark region newType objSize totalSize
        let k ← Prog.get
        let start := (k.untyped region).watermark
        Prog.forEach (List.range numObjects) fun i =>
          retypeOne region untypedSlot newType sizeBits (start + i * objSize) destCnode
            (destOffset + i)
        Prog.modify fun k => k.setUntyped region fun ut =>
          { ut with watermark := ut.watermark + totalSize }

/-- The untyped region that the capability in a slot lets its holder carve from. -/
def untypedForRetype (untypedSlot : CapSlot) : KProg ObjPtr := do
  let k ← Prog.get
  let cap := k.cap untypedSlot
  if cap.objType ≠ .untyped ∨ cap.isNull then Prog.throw .invalidOperation
  else if cap.hasRight CapRights.retype = false then Prog.throw .insufficientRights
  else pure cap.object

/-- The untyped capability named by a reference. -/
def untypedSlotOf (cnode : ObjPtr) (index : ℕ) : KProg CapSlot := do
  let k ← Prog.get
  match k.getRef cnode index with
  | none => Prog.throw .slotEmpty
  | some slot => pure slot

/-- `UNTYPED_RETYPE`, after the addresses of the untyped capability and of the destination have been
resolved. The system call carves one object at a time, and of the number of size bits it takes the
lowest byte. -/
def untypedRetype (cnode : ObjPtr) (index : ℕ) (newType : ObjectType) (sizeBits : ℕ)
    (destCnode : ObjPtr) (destIndex : ℕ) : KProg Unit := do
  let untypedSlot ← untypedSlotOf cnode index
  let region ← untypedForRetype untypedSlot
  if newType = .null then Prog.throw .invalidArgument
  else retype region untypedSlot newType (sizeBits % 2 ^ 8) 1 destCnode destIndex

/-- `UNTYPED_RESET`, after the address of the untyped capability has been resolved. Only the child
list of the slot at hand is consulted. -/
def untypedReset (cnode : ObjPtr) (index : ℕ) : KProg Unit := do
  let untypedSlot ← untypedSlotOf cnode index
  let region ← untypedForRetype untypedSlot
  let k ← Prog.get
  if k.hasUtChildren untypedSlot then Prog.throw .hasChildren
  else Prog.modify fun k => k.setUntyped region fun ut => { ut with watermark := 0 }

end SaltyOS
