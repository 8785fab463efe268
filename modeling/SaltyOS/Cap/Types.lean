import Mathlib.Algebra.Group.Nat.Defs
import Mathlib.Logic.Function.Basic

/-!
# Capabilities, slots and kernel objects

The data of the capability system: slot indices and slot metadata, rights, capabilities, the types
and headers of kernel objects, and the errors of the capability operations.

The kernel is built without overflow checks, so machine arithmetic wraps and shift amounts are
reduced modulo the width of the shifted word.
-/

namespace SaltyOS

/-- Reduction of a machine word modulo `2 ^ 64`. -/
def wrap64 (n : ℕ) : ℕ := n % 2 ^ 64

/-- `1usize << n`. -/
def shl64 (n : ℕ) : ℕ := 2 ^ (n % 64)

/-- `1u32 << n`. -/
def shl32 (n : ℕ) : ℕ := 2 ^ (n % 32)

/-- A physical address. -/
abbrev PhysAddr := ℕ

/-- A virtual address. -/
abbrev VirtAddr := ℕ

/-- An index into the global slot array. -/
abbrev CapSlot := ℕ

/-- The index that stands for no slot. -/
def invalidSlot : CapSlot := 0xFFFFFFFF

/-- The maximal derivation depth of a capability. -/
def maxDerivationDepth : ℕ := 64

/-- The size of a page in bytes. -/
def pageSize : ℕ := 4096

/-- A pointer to a kernel object. Objects live in static storage of the kernel, in the metadata
arrays for frames, address spaces and untyped regions (indexed by the slot of the capability they
were created with), or in untyped memory at the address they were carved at. -/
inductive ObjPtr where
  | null
  | static (index : ℕ)
  | frameMeta (slot : CapSlot)
  | vspaceMeta (slot : CapSlot)
  | untypedMeta (slot : CapSlot)
  | mem (addr : PhysAddr)
  deriving DecidableEq, Repr

/-- The types of kernel objects. -/
inductive ObjectType where
  | null
  | untyped
  | endpoint
  | notification
  | tcb
  | cnode
  | vspace
  | frame
  | irqHandler
  | ioPort
  | schedContext
  | memoryObject
  deriving DecidableEq, Repr

/-- The header of a kernel object. -/
structure KernelObject where
  objType : ObjectType
  sizeBits : ℕ
  refCount : ℕ
  deriving DecidableEq, Repr

/-- The header of a new object, with one reference. -/
def KernelObject.new (objType : ObjectType) (sizeBits : ℕ) : KernelObject :=
  { objType, sizeBits, refCount := 1 }

/-! ## Rights -/

/-- A set of access rights. -/
abbrev CapRights := BitVec 32

namespace CapRights

def read : CapRights := 1#32 <<< 0
def write : CapRights := 1#32 <<< 1
def grant : CapRights := 1#32 <<< 3
def reply : CapRights := 1#32 <<< 8
def retype : CapRights := 1#32 <<< 14
def all : CapRights := 0xFFFFFFFF#32
def empty : CapRights := 0#32

/-- The rights contain all the other rights. -/
def contains (self other : CapRights) : Bool := self &&& other == other

theorem contains_iff {r s : CapRights} :
  r.contains s = true ↔ r &&& s = s
  := by
  simp only [contains, beq_iff_eq]

/-- Containment of rights is transitive. -/
theorem contains_trans {r s t : CapRights} (hrs : r.contains s = true) (hst : s.contains t = true) :
  r.contains t = true
  := by
  rw [contains_iff] at *
  rw [← hst, ← BitVec.and_assoc, hrs]

end CapRights

/-! ## Capabilities and slot metadata -/

/-- A capability. -/
structure Capability where
  object : ObjPtr
  badge : ℕ
  rights : CapRights
  objType : ObjectType
  depth : ℕ
  deriving DecidableEq

namespace Capability

/-- The null capability. -/
def null : Capability :=
  { object := .null, badge := 0, rights := CapRights.empty, objType := .null, depth := 0 }

/-- The capability names no object. -/
def isNull (self : Capability) : Bool := self.object == .null

/-- The capability carries the given right. -/
def hasRight (self : Capability) (right : CapRights) : Bool :=
  self.rights.contains right

end Capability

/-- The state of a slot. -/
inductive SlotState where
  | free
  | occupied
  deriving DecidableEq, Repr

/-- The metadata of a slot: its links in the derivation tree, its links in the child list of an
untyped region, and its state. -/
structure CapSlotMeta where
  cdtParent : CapSlot
  cdtFirstChild : CapSlot
  cdtNext : CapSlot
  cdtPrev : CapSlot
  utFirstChild : CapSlot
  utNext : CapSlot
  utParent : CapSlot
  state : SlotState
  deriving DecidableEq

namespace CapSlotMeta

/-- Metadata with no links. -/
def unlinked (state : SlotState) : CapSlotMeta :=
  { cdtParent := invalidSlot, cdtFirstChild := invalidSlot, cdtNext := invalidSlot,
    cdtPrev := invalidSlot, utFirstChild := invalidSlot, utNext := invalidSlot,
    utParent := invalidSlot, state }

/-- The metadata of a free slot. -/
def free : CapSlotMeta := unlinked .free

/-- The metadata of a slot that has just been allocated. -/
def occupied : CapSlotMeta := unlinked .occupied

end CapSlotMeta

/-- The errors of the capability operations. -/
inductive CapError where
  | invalidSlot
  | slotOccupied
  | slotEmpty
  | insufficientRights
  | rightsNotSubset
  | depthExceeded
  | invalidOperation
  | invalidBadge
  | insufficientMemory
  | outOfSlots
  | notAChild
  | hasChildren
  | hasDerivedCaps
  | objectInUse
  | invalidState
  | invalidArgument
  | guardMismatch
  deriving DecidableEq, Repr

end SaltyOS
