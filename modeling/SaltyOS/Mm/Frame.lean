import Mathlib.Data.List.Range
import SaltyOS.Cap.Types

/-!
# The physical frame allocator

The physical memory manager keeps one bit per frame (set when the frame is free), a search hint, the
owner of every frame, and a small reserve for fault handlers. The mapping counts of the frames are
left out: they are written but never consulted.
-/

open Function

namespace SaltyOS

/-- Sub-kinds of the metadata pages of a memory object. -/
inductive MoMetaKind where
  | radix
  | rmap
  deriving DecidableEq, Repr

/-- Sub-kinds of the pages private to the kernel. -/
inductive KernelMetaKind where
  | pageTable
  | kernelStack
  | mapleNode
  | general
  deriving DecidableEq, Repr

/-- The owner of a frame. -/
inductive FrameOwner where
  | free
  | moData (mo : ObjPtr) (pageIdx : ℕ)
  | moMeta (mo : ObjPtr) (subkind : MoMetaKind)
  | kernelPrivate (subkind : KernelMetaKind)
  | pageCache
  | emergencyReserve
  deriving DecidableEq, Repr

/-- The state of the frame allocator. -/
structure FrameAllocator where
  bitmap : ℕ → Bool
  nextFree : ℕ
  total : ℕ
  owner : ℕ → FrameOwner
  metaLen : ℕ
  reserve : List PhysAddr

namespace FrameAllocator

variable (self : FrameAllocator)

/-- Ownership of the frame is tracked. -/
def trackingReady (frame : ℕ) : Bool := frame < self.metaLen

/-- The first free frame in the interval from `start` to `stop`. -/
def findFreeFrameInRange (start stop : ℕ) : Option ℕ :=
  (List.range' start (stop - start)).find? self.bitmap

/-- Mark a frame as allocated. -/
def markFrameAllocated (frame : ℕ) : FrameAllocator :=
  { self with
    bitmap := update self.bitmap frame false
    owner := if self.trackingReady frame then update self.owner frame .free else self.owner
    nextFree := frame + 1 }

/-- The frame that the next allocation takes: the first free one from the hint on, or else the first
free one before the hint. -/
def nextFrame : Option ℕ :=
  let split := min self.nextFree self.total
  match self.findFreeFrameInRange split self.total with
  | some frame => some frame
  | none => self.findFreeFrameInRange 0 split

/-- Allocate a frame. -/
def alloc : Option (PhysAddr × FrameAllocator) :=
  match self.nextFrame with
  | some frame => some (frame * pageSize, self.markFrameAllocated frame)
  | none => none

/-- Set the owner of a frame. -/
def setOwner (addr : PhysAddr) (owner : FrameOwner) : FrameAllocator :=
  let frame := addr / pageSize
  if frame < self.total ∧ self.trackingReady frame then
    { self with owner := update self.owner frame owner }
  else self

/-- Put a frame back into the free pool. -/
def freeInternal (frame : ℕ) : FrameAllocator :=
  if self.bitmap frame then self
  else
    { self with
      bitmap := update self.bitmap frame true
      owner :=
        if self.trackingReady frame then update self.owner frame .free else self.owner
      nextFree := min frame self.nextFree }

/-- Free a frame after checking its owner. There is no result when the check fails, which is a
kernel panic. -/
def freeOwned (addr : PhysAddr) (expected : FrameOwner) : Option FrameAllocator :=
  let frame := addr / pageSize
  if frame < self.total then
    if self.trackingReady frame ∧ self.owner frame ≠ expected then none
    else some (self.freeInternal frame)
  else some self

/-- Take a frame from the emergency reserve. -/
def allocReserve : Option (PhysAddr × FrameAllocator) :=
  match self.reserve.getLast? with
  | some phys => some (phys, { self with reserve := self.reserve.dropLast })
  | none => none

/-- `EMERGENCY_RESERVE_SIZE`. -/
def emergencyReserveSize : ℕ := 32

/-- Fill the emergency reserve with up to `count` frames of the free pool. -/
def replenishReserve : ℕ → FrameAllocator → FrameAllocator
  | 0, self => self
  | count + 1, self =>
    if self.reserve.length < emergencyReserveSize then
      match self.alloc with
      | some (phys, self) => replenishReserve count { self with reserve := self.reserve ++ [phys] }
      | none => self
    else self

end FrameAllocator

end SaltyOS
