import Mathlib.Algebra.Group.Nat.Defs
import Mathlib.Logic.Function.Basic
import SaltyOS.Vfs.Types

/-!
# The blocks of a tmpfs

The contents of the files of a tmpfs are kept in blocks of 8192 bytes. A file has a chain of blocks:
for every block there is a link to the next one. The blocks of all files of a mount come from one
pool, which grows when it has no free block.

Whether the memory server has memory is not part of the model: the pool holds the answers to the
requests to come, and no answer is a refusal. Three arrays grow together: the blocks, the marks of the
blocks in use, and the links. If one of them cannot grow then the number of blocks stays, and the
arrays hold what they held. A pool of `2 ^ 32 - 1` blocks, which would be 32 TiB, does not grow.
-/

open Function

namespace SaltyOS.Tmpfs

export Vfs (Byte)

/-- `WRITABLE_SIZE`. -/
def writableSize : ℕ := 8192

/-- `INVALID_WRITABLE_SLOT`, which also ends a chain. -/
def invalidSlot : ℕ := 2 ^ 32 - 1

/-- The blocks of a mount: how many there are, which ones are in use, their links and their bytes,
and the answers of the memory server. -/
structure WritablePool where
  cap : ℕ
  used : ℕ → Bool
  next : ℕ → ℕ
  data : ℕ → ℕ → Byte
  memory : List Bool

namespace WritablePool

/-- `INITIAL_WRITABLE`. -/
def initialWritable : ℕ := 32

/-- The part of `init_pools` for the blocks. -/
def init : WritablePool where
  cap := initialWritable
  used := fun _ => false
  next := fun _ => invalidSlot
  data := fun _ _ => 0
  memory := []

/-! ## Allocation -/

/-- The number of cells that `vfs_grow_array` adds to an array. -/
def growth (cap : ℕ) : ℕ :=
  if cap < 128 then cap else if cap < 1024 then cap / 2 else 256

variable (P : WritablePool)

/-- The pool with more blocks. -/
def enlarge : WritablePool :=
  { P with
    cap := P.cap + growth P.cap
    used := fun i => if i < P.cap then P.used i else false
    next := fun i => if i < P.cap then P.next i else invalidSlot
    data := fun i => if i < P.cap then P.data i else fun _ => 0 }

/-- The first answer of the memory server is used up. -/
def answered : WritablePool := { P with memory := P.memory.tail }

/-- The memory server grants a request. -/
def granted : Bool := P.memory.headD false

/-- `grow_writable_pool`, with whether the pool has grown. -/
def growWritablePool : WritablePool × Bool :=
  if P.cap = 0 ∨ invalidSlot < P.cap + growth P.cap then (P, false)
  else if P.granted = false then (P.answered, false)
  else if P.answered.granted = false then (P.answered.answered, false)
  else if P.answered.answered.granted = false then (P.answered.answered.answered, false)
  else (P.answered.answered.answered.enlarge, true)

/-- The first block that is not in use. -/
def findFree : Option ℕ := (List.range P.cap).find? fun i => !P.used i

/-- A block is put into use, with zeros and without a next one. -/
def claim (i : ℕ) : WritablePool :=
  { P with
    used := update P.used i true
    next := update P.next i invalidSlot
    data := update P.data i fun _ => 0 }

/-- `alloc_writable`. A pool that has grown has a free block. -/
def allocWritable : WritablePool × Option ℕ :=
  match P.findFree with
  | some i => (P.claim i, some i)
  | none =>
    if P.growWritablePool.2 = true then
      match P.growWritablePool.1.findFree with
      | some i => (P.growWritablePool.1.claim i, some i)
      | none => (P.growWritablePool.1, none)
    else (P.growWritablePool.1, none)

/-- The link of a block. -/
def setNext (i j : ℕ) : WritablePool := { P with next := update P.next i j }

/-- Some bytes of a block are replaced. -/
def blit (i off : ℕ) (bytes : List Byte) : WritablePool :=
  { P with
    data := update P.data i fun k =>
      if off ≤ k ∧ k < off + bytes.length then bytes.getD (k - off) 0 else P.data i k }

/-! ## Giving back -/

/-- A block is given back. -/
def release (i : ℕ) : WritablePool :=
  { P with
    used := update P.used i false
    next := update P.next i invalidSlot }

/-- The loop of `free_chain`, which is also in `chain_truncate`. A block that is given back has no
next one, so the loop ends after at most `cap` blocks. -/
def releaseFrom (P : WritablePool) : ℕ → ℕ → WritablePool
  | 0, _ => P
  | fuel + 1, i =>
    if i = invalidSlot ∨ P.cap ≤ i then P else (P.release i).releaseFrom fuel (P.next i)

/-- `free_chain`. -/
def freeChain (head : ℕ) : WritablePool :=
  if head = invalidSlot then P else P.releaseFrom (P.cap + 1) head

/-! ## Reading -/

/-- Some bytes of a block. -/
def slice (i off count : ℕ) : List Byte :=
  (List.range count).map fun k => P.data i (off + k)

/-- The block after some blocks of a chain. -/
def skip (P : WritablePool) : ℕ → ℕ → ℕ
  | i, 0 => i
  | i, n + 1 => if i ≠ invalidSlot ∧ i < P.cap then P.skip (P.next i) n else i

/-- The loop of `chain_read`. Every round reads a byte. -/
def readLoop (P : WritablePool) : ℕ → ℕ → ℕ → ℕ → List Byte
  | 0, _, _, _ => []
  | fuel + 1, i, off, count =>
    if count = 0 ∨ i = invalidSlot ∨ P.cap ≤ i then []
    else
      P.slice i off (min count (writableSize - off)) ++
        P.readLoop fuel (P.next i) 0 (count - min count (writableSize - off))

/-- `chain_read`. -/
def chainRead (head offset count : ℕ) : List Byte :=
  if head = invalidSlot ∨ count = 0 then []
  else P.readLoop count (P.skip head (offset / writableSize)) (offset % writableSize) count

/-- `chain_slot_count`. The blocks of a chain are different ones. -/
def chainSlotCount (P : WritablePool) (head : ℕ) : ℕ → ℕ
  | 0 => 0
  | fuel + 1 =>
    if head = invalidSlot ∨ P.cap ≤ head then 0 else P.chainSlotCount (P.next head) fuel + 1

/-! ## Writing -/

/-- The block after a block of a chain. The chain gets one more block if there is none. -/
def advance (i : ℕ) : WritablePool × Option ℕ :=
  if P.next i = invalidSlot ∨ P.cap ≤ P.next i then
    match P.allocWritable.2 with
    | none => (P.allocWritable.1, none)
    | some j => (P.allocWritable.1.setNext i j, some j)
  else (P, some (P.next i))

/-- The block after some blocks of a chain, which may get more blocks. -/
def advanceBy (P : WritablePool) (i : ℕ) : ℕ → WritablePool × Option ℕ
  | 0 => (P, some i)
  | n + 1 =>
    match (P.advance i).2 with
    | none => ((P.advance i).1, none)
    | some j => (P.advance i).1.advanceBy j n

/-- The loop of `chain_write`, with the number of bytes that were written. Every round writes a
byte. -/
def writeLoop (P : WritablePool) : ℕ → ℕ → ℕ → List Byte → WritablePool × ℕ
  | 0, _, _, _ => (P, 0)
  | fuel + 1, i, off, src =>
    if src = [] ∨ P.cap ≤ i then (P, 0)
    else if src.length ≤ writableSize - off then (P.blit i off src, src.length)
    else
      match ((P.blit i off (src.take (writableSize - off))).advance i).2 with
      | none => (((P.blit i off (src.take (writableSize - off))).advance i).1, writableSize - off)
      | some j =>
        ((((P.blit i off (src.take (writableSize - off))).advance i).1.writeLoop fuel j 0
          (src.drop (writableSize - off))).1,
          writableSize - off +
            (((P.blit i off (src.take (writableSize - off))).advance i).1.writeLoop fuel j 0
              (src.drop (writableSize - off))).2)

/-- `chain_write`, with the number of bytes that were written. -/
def chainWrite (head offset : ℕ) (src : List Byte) : WritablePool × ℕ :=
  if head = invalidSlot ∨ src = [] then (P, 0)
  else
    match (P.advanceBy head (offset / writableSize)).2 with
    | none => ((P.advanceBy head (offset / writableSize)).1, 0)
    | some i =>
      (P.advanceBy head (offset / writableSize)).1.writeLoop src.length i (offset % writableSize) src

/-! ## Truncation -/

/-- The number of blocks that a file of a size keeps. -/
def keepSlots (size : ℕ) : ℕ :=
  if size = 0 then 1 else (size + writableSize - 1) % 2 ^ 64 / writableSize

/-- The last block that is kept, if the chain is long enough. -/
def lastKept (P : WritablePool) : ℕ → ℕ → Option ℕ
  | i, 0 => some i
  | i, n + 1 =>
    if i ≠ invalidSlot ∧ i < P.cap then
      if P.next i = invalidSlot then none else P.lastKept (P.next i) n
    else some i

/-- The bytes of a block from an offset on become zeros, unless the offset is zero. -/
def zeroTail (i off : ℕ) : WritablePool :=
  if 0 < off then P.blit i off (List.replicate (writableSize - off) 0) else P

/-- `chain_truncate`. -/
def chainTruncate (head size : ℕ) : WritablePool :=
  if head = invalidSlot then P
  else
    match P.lastKept head (keepSlots size - 1) with
    | none => P
    | some i =>
      ((P.setNext i invalidSlot).releaseFrom (P.cap + 1) (P.next i)).zeroTail i (size % writableSize)

end WritablePool

end SaltyOS.Tmpfs
