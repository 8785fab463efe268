import SaltyOS.Lib.Prog
import SaltyOS.Mm.MemoryObject
import SaltyOS.Mm.VSpace

/-!
# The state of the kernel

The state consists of the global slot array, the kernel objects, and the frame allocator. An object
is read through its pointer at the type the code casts the pointer to, so there is one map per type
of object. Next to what the kernel stores there is a ghost map that no function of the kernel reads:
`live` says that an object has been created and not destroyed yet.
-/

open Function

namespace SaltyOS

/-- A capability node: its guard and its references to global slots. -/
structure CNode where
  guardBits : ℕ
  guard : ℕ
  slots : ℕ → CapSlot

/-- A capability node with no references. -/
def CNode.empty : CNode := { guardBits := 0, guard := 0, slots := fun _ => invalidSlot }

/-- An untyped region. The free list holds the pages given back to the region, most recent first. -/
structure UntypedMemory where
  physAddr : PhysAddr
  sizeBits : ℕ
  watermark : ℕ
  isDevice : Bool
  freeList : List PhysAddr
  deriving DecidableEq, Repr

namespace UntypedMemory

/-- A region from which nothing has been carved. -/
def new (physAddr : PhysAddr) (sizeBits : ℕ) (isDevice : Bool) : UntypedMemory :=
  { physAddr, sizeBits, watermark := 0, isDevice, freeList := [] }

/-- The size of the region in bytes. -/
def sizeBytes (self : UntypedMemory) : ℕ := shl64 self.sizeBits

/-- The number of bytes above the watermark. -/
def available (self : UntypedMemory) : ℕ := self.sizeBytes - self.watermark

end UntypedMemory

/-- A frame object. -/
structure FrameObject where
  physAddr : PhysAddr
  sizeBits : ℕ
  deriving DecidableEq, Repr

/-- A thread control block: the references it holds to other objects and its kernel stacks. The
addresses of the stacks are those of their first page, with `0` for none. -/
structure Tcb where
  replyTcb : ObjPtr
  faultHandler : ObjPtr
  boundNotification : ObjPtr
  pipDonatingTo : ObjPtr
  schedContext : ObjPtr
  vspaceRoot : ObjPtr
  cspaceRoot : ObjPtr
  kernelStack : PhysAddr
  trampolineStack : PhysAddr
  schedRef : ℕ
  pendingDestroy : Bool
  deriving DecidableEq, Repr

/-- A thread control block that refers to nothing. -/
def Tcb.empty : Tcb :=
  { replyTcb := .null, faultHandler := .null, boundNotification := .null, pipDonatingTo := .null,
    schedContext := .null, vspaceRoot := .null, cspaceRoot := .null, kernelStack := 0,
    trampolineStack := 0, schedRef := 0, pendingDestroy := false }

/-- The state of the kernel. -/
structure Kernel where
  cap : CapSlot → Capability
  slotMeta : CapSlot → CapSlotMeta
  bitmap : CapSlot → Bool
  nextSlot : CapSlot
  numSlots : ℕ
  header : ObjPtr → KernelObject
  cnode : ObjPtr → CNode
  untyped : ObjPtr → UntypedMemory
  frame : ObjPtr → FrameObject
  tcb : ObjPtr → Tcb
  notificationTcb : ObjPtr → ObjPtr
  irqNotification : ObjPtr → ObjPtr
  schedContextTcb : ObjPtr → ObjPtr
  vspace : ObjPtr → VSpace
  mo : ObjPtr → MemoryObject
  pmm : FrameAllocator
  initUntypeds : List ObjPtr
  kernelRoot : PhysAddr
  sizeOf : ObjectType → ℕ
  live : ObjPtr → Bool

/-- A kernel computation. -/
abbrev KProg := Prog Kernel CapError

/-- A kernel procedure, which does not report errors. -/
abbrev KProc := Prog Kernel Empty

namespace Kernel

variable (k : Kernel)

/-- Change the metadata of a slot. -/
def setMeta (slot : CapSlot) (f : CapSlotMeta → CapSlotMeta) : Kernel :=
  { k with slotMeta := update k.slotMeta slot (f (k.slotMeta slot)) }

/-- Change the capability in a slot. -/
def setCap (slot : CapSlot) (cap : Capability) : Kernel :=
  { k with cap := update k.cap slot cap }

variable (obj : ObjPtr)

/-- Change the reference count of an object. -/
def setRefCount (count : ℕ) : Kernel :=
  { k with header := update k.header obj { k.header obj with refCount := count } }

/-- Write a reference of a capability node. -/
def setRef (cnode : ObjPtr) (index : ℕ) (slot : CapSlot) : Kernel :=
  let node := k.cnode cnode
  { k with
    cnode :=
      update k.cnode cnode { node with slots := update node.slots index slot } }

/-- Change an untyped region. -/
def setUntyped (f : UntypedMemory → UntypedMemory) : Kernel :=
  { k with untyped := update k.untyped obj (f (k.untyped obj)) }

/-- Change a thread control block. -/
def setTcb (f : Tcb → Tcb) : Kernel :=
  { k with tcb := update k.tcb obj (f (k.tcb obj)) }

/-- Change a memory object. -/
def setMo (f : MemoryObject → MemoryObject) : Kernel :=
  { k with mo := update k.mo obj (f (k.mo obj)) }

/-- Change an address space. -/
def setVSpace (f : VSpace → VSpace) : Kernel :=
  { k with vspace := update k.vspace obj (f (k.vspace obj)) }

/-- An object is no longer alive. -/
def kill : Kernel := { k with live := update k.live obj false }

/-- Change the frame allocator. -/
def setPmm (pmm : FrameAllocator) : Kernel := { k with pmm }

/-- The number of references of a capability node. -/
def numRefs (cnode : ObjPtr) : ℕ := shl64 (k.header cnode).sizeBits

end Kernel

end SaltyOS
