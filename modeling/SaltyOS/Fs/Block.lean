import Mathlib.Algebra.Group.Nat.Defs
import Mathlib.Data.Fintype.Card

/-!
# The blocks of a SaltyFS volume

The block device, the cache of blocks, and the allocator with its cache of bitmap blocks. The
contents of a block are left abstract: all that the allocator needs of them is that they can be read
as a bitmap.

A number that no block has stands for the lack of a block in the source. Here a slot of a cache has
the number of its block, or none.
-/

open Function

namespace SaltyOS.Fs

/-! ## Blocks as bitmaps -/

/-- The number of bits in a block. -/
def bitsPerBlock : ℕ := 32768

/-- The contents of blocks, which can be read as bitmaps. -/
class BlockBits (β : Type) where
  bit : β → Fin bitsPerBlock → Bool
  setBit : β → Fin bitsPerBlock → β
  clearBit : β → Fin bitsPerBlock → β
  bit_setBit : ∀ b i j, bit (setBit b i) j = (decide (j = i) || bit b j)
  bit_clearBit : ∀ b i j, bit (clearBit b i) j = (!decide (j = i) && bit b j)

/-- The four kilobytes of a block. -/
abbrev Bytes : Type := Fin 4096 → BitVec 8

namespace Bytes

/-- The index of the byte that contains a bit. -/
def byteIdx (i : Fin bitsPerBlock) : Fin 4096 :=
  ⟨i / 8, by
    have h : (i : ℕ) < 32768 := i.isLt
    omega⟩

/-- The index of a bit in its byte. -/
def bitIdx (i : Fin bitsPerBlock) : Fin 8 := ⟨i % 8, Nat.mod_lt _ (by decide)⟩

/-- The bit `k` of a byte. -/
def testBit (b : BitVec 8) (k : Fin 8) : Bool := b &&& 1#8 <<< k.val != 0#8

/-- A bit is found by its byte and its place there. -/
theorem byteIdx_bitIdx_inj {i j : Fin bitsPerBlock} (h : byteIdx i = byteIdx j)
    (h' : bitIdx i = bitIdx j) :
  i = j
  := by
  have h₁ : (i : ℕ) / 8 = j / 8 := congrArg Fin.val h
  have h₂ : (i : ℕ) % 8 = j % 8 := congrArg Fin.val h'
  apply Fin.ext
  omega

theorem testBit_eq : ∀ (b : BitVec 8) (k : Fin 8), testBit b k = b.getLsbD k := by
  decide +kernel

theorem getLsbD_one_shiftLeft : ∀ k l : Fin 8, (1#8 <<< k.val).getLsbD l = decide (l = k) := by
  decide +kernel

/-- Setting a bit of a byte. -/
theorem testBit_or (b : BitVec 8) (k l : Fin 8) :
  testBit (b ||| 1#8 <<< k.val) l = (decide (l = k) || testBit b l)
  := by
  rw [testBit_eq, testBit_eq, BitVec.getLsbD_or, getLsbD_one_shiftLeft, Bool.or_comm]

/-- Clearing a bit of a byte. -/
theorem testBit_and_not (b : BitVec 8) (k l : Fin 8) :
  testBit (b &&& ~~~(1#8 <<< k.val)) l = (!decide (l = k) && testBit b l)
  := by
  rw [testBit_eq, testBit_eq, BitVec.getLsbD_and, BitVec.getLsbD_not, getLsbD_one_shiftLeft,
    decide_eq_true l.isLt, Bool.true_and, Bool.and_comm]

/-- Replace the byte that contains the bit `i`. -/
def mapByte (b : Bytes) (i : Fin bitsPerBlock) (f : BitVec 8 → BitVec 8) : Bytes :=
  update b (byteIdx i) (f (b (byteIdx i)))

/-- An operation on the bits of a byte acts on the block as an operation on its bits. -/
theorem testBit_mapByte {f : BitVec 8 → Fin 8 → BitVec 8} {g : Bool → Bool → Bool}
    (hf : ∀ b k l, testBit (f b k) l = g (decide (l = k)) (testBit b l))
    (hg : ∀ v, g false v = v) (b : Bytes) (i j : Fin bitsPerBlock) :
  testBit (mapByte b i (fun c => f c (bitIdx i)) (byteIdx j)) (bitIdx j)
    = g (decide (j = i)) (testBit (b (byteIdx j)) (bitIdx j))
  := by
  by_cases h : byteIdx j = byteIdx i
  · have hiff : bitIdx j = bitIdx i ↔ j = i := ⟨byteIdx_bitIdx_inj h, fun h => by rw [h]⟩
    rw [mapByte, h, update_self, hf, decide_eq_decide.mpr hiff]
  · have hne : j ≠ i := fun hji => h (by rw [hji])
    rw [mapByte, update_of_ne h, decide_eq_false hne, hg]

instance : BlockBits Bytes where
  bit b i := testBit (b (byteIdx i)) (bitIdx i)
  setBit b i := mapByte b i fun c => c ||| 1#8 <<< (bitIdx i).val
  clearBit b i := mapByte b i fun c => c &&& ~~~(1#8 <<< (bitIdx i).val)
  bit_setBit b i j := testBit_mapByte (f := fun c k => c ||| 1#8 <<< k.val) (g := or) testBit_or
      Bool.false_or b i j
  bit_clearBit b i j :=
    testBit_mapByte (f := fun c k => c &&& ~~~(1#8 <<< k.val)) (g := fun d v => !d && v)
      testBit_and_not (fun v => by simp) b i j

end Bytes

/-! ## The state of a mounted volume -/

/-- A block device. The requests of each kind are numbered, and it is given which of them fail. -/
structure Device (β : Type) where
  disk : ℕ → β
  readFails : ℕ → Bool
  writeFails : ℕ → Bool
  reads : ℕ
  writes : ℕ

/-- A slot of the block cache. -/
structure CacheSlot (β : Type) where
  blockNr : Option ℕ
  age : ℕ
  dirty : Bool
  data : β

/-- A slot of the bitmap cache. -/
structure BitmapSlot (β : Type) where
  block : Option ℕ
  dirty : Bool
  data : β

/-- The fields of the superblock that change while the volume is mounted, and its size. -/
structure Superblock where
  totalBlocks : ℕ
  usedBlocks : ℕ
  rootTree : ℕ
  generation : ℕ
  deriving DecidableEq, Repr

/-- The state of a mounted volume. `written` and `marked` are not part of the implementation: the
first keeps for each block the contents that a user of the volume has written to it last, by `putBlock` or
`modifyBlock`, the second keeps for each block the bit that was set for it last. Writing back a copy of a
block from a cache does not change them. -/
structure Volume (β : Type) where
  dev : Device β
  readonly : Bool
  cache : Fin 256 → CacheSlot β
  tick : ℕ
  bitmap : Fin 4 → BitmapSlot β
  allocHint : ℕ
  sb : Superblock
  written : ℕ → β
  marked : ℕ → Bool

variable {β : Type}

namespace Device

/-- Read a block from the device. -/
def read (d : Device β) (n : ℕ) : Option β × Device β :=
  (if d.readFails d.reads then none else some (d.disk n), { d with reads := d.reads + 1 })

/-- Write a block to the device. A failed request leaves the block as it was. -/
def write (d : Device β) (n : ℕ) (data : β) : Bool × Device β :=
  if d.writeFails d.writes then (false, { d with writes := d.writes + 1 })
  else (true, { d with disk := update d.disk n data, writes := d.writes + 1 })

/-- No request fails. -/
def Reliable (d : Device β) : Prop :=
  (∀ k, d.readFails k = false) ∧ ∀ k, d.writeFails k = false

end Device

namespace Volume

/-- Replace a slot of the block cache. -/
def setCache (v : Volume β) (i : Fin 256) (slot : CacheSlot β) : Volume β :=
  { v with cache := update v.cache i slot }

/-- Replace a slot of the bitmap cache. -/
def setBitmap (v : Volume β) (j : Fin 4) (slot : BitmapSlot β) : Volume β :=
  { v with bitmap := update v.bitmap j slot }

@[simp]
theorem setCache_self (v : Volume β) (i : Fin 256) (slot : CacheSlot β) :
  (v.setCache i slot).cache i = slot
  := by
  simp only [setCache, update_self]

theorem setCache_of_ne {i j : Fin 256} (h : j ≠ i) (v : Volume β) (slot : CacheSlot β) :
  (v.setCache i slot).cache j = v.cache j
  := by
  simp only [setCache, update_of_ne h]

@[simp]
theorem setBitmap_self (v : Volume β) (j : Fin 4) (slot : BitmapSlot β) :
  (v.setBitmap j slot).bitmap j = slot
  := by
  simp only [setBitmap, update_self]

theorem setBitmap_of_ne {i j : Fin 4} (h : j ≠ i) (v : Volume β) (slot : BitmapSlot β) :
  (v.setBitmap i slot).bitmap j = v.bitmap j
  := by
  simp only [setBitmap, update_of_ne h]

/-! ## The block cache -/

/-- The slot of the block cache that has a block. -/
def lookup (v : Volume β) (n : ℕ) : Option (Fin 256) :=
  (List.finRange 256).find? (fun i => (v.cache i).blockNr == some n)

/-- The search for the slot to be reused: the first empty one, or else the first of the slots with
the least age. -/
def victimFrom (cache : Fin 256 → CacheSlot β) : List (Fin 256) → Fin 256 → ℕ → Fin 256
  | [], oldestIdx, _ => oldestIdx
  | i :: rest, oldestIdx, oldestAge =>
    if (cache i).blockNr = none then i
    else if (cache i).age < oldestAge then victimFrom cache rest i (cache i).age
    else victimFrom cache rest oldestIdx oldestAge

/-- The slot of the block cache to be reused. -/
def victim (v : Volume β) : Fin 256 :=
  victimFrom v.cache (List.finRange 256) 0 (2 ^ 32 - 1)

/-- Write a block to the device, going around the block cache. -/
def writeBlock (n : ℕ) (data : β) (v : Volume β) : Bool × Volume β :=
  if v.readonly then (false, v)
  else
    let (ok, dev) := v.dev.write n data
    (ok, { v with dev })

/-- A block is written with `writeBlock` by a user of the volume. -/
def putBlock (n : ℕ) (data : β) (v : Volume β) : Bool × Volume β :=
  match v.writeBlock n data with
  | (false, v) => (false, v)
  | (true, v) => (true, { v with written := update v.written n data })

/-- Write a slot of the block cache to the device if it is dirty. -/
def flushSlot (i : Fin 256) (v : Volume β) : Bool × Volume β :=
  if (v.cache i).dirty then
    match v.writeBlock ((v.cache i).blockNr.getD (2 ^ 64 - 1)) (v.cache i).data with
    | (false, v) => (false, v)
    | (true, v) => (true, v.setCache i { v.cache i with dirty := false })
  else (true, v)

/-- Bring a block into the block cache. Returns its slot. -/
def readBlock (n : ℕ) (v : Volume β) : Option (Fin 256) × Volume β :=
  match v.lookup n with
  | some i =>
    (some i, { v.setCache i { v.cache i with age := v.tick } with tick := (v.tick + 1) % 2 ^ 32 })
  | none =>
    match v.flushSlot v.victim with
    | (false, w) => (none, w)
    | (true, w) =>
      match w.dev.read n with
      | (none, dev) => (none, { w with dev })
      | (some data, dev) =>
        (some v.victim,
          { w.setCache v.victim
              { w.cache v.victim with blockNr := some n, age := w.tick, data } with
            dev, tick := (w.tick + 1) % 2 ^ 32 })

/-- Bring a block into the block cache and mark it dirty. -/
def readBlockMut (n : ℕ) (v : Volume β) : Option (Fin 256) × Volume β :=
  match v.readBlock n with
  | (none, v) => (none, v)
  | (some _, v) =>
    match v.lookup n with
    | none => (none, v)
    | some i => (some i, v.setCache i { v.cache i with dirty := true })

/-- Change a block through the buffer returned by `readBlockMut`. -/
def modifyBlock (n : ℕ) (f : β → β) (v : Volume β) : Bool × Volume β :=
  match v.readBlockMut n with
  | (none, v) => (false, v)
  | (some i, v) =>
    (true, { v.setCache i { v.cache i with data := f (v.cache i).data } with
      written := update v.written n (f (v.cache i).data) })

/-- Write a block to the device if it is dirty in the block cache. -/
def cacheFlushBlock (n : ℕ) (v : Volume β) : Bool × Volume β :=
  match (List.finRange 256).find? (fun i => (v.cache i).blockNr == some n && (v.cache i).dirty) with
  | none => (true, v)
  | some i =>
    match v.writeBlock n (v.cache i).data with
    | (false, v) => (false, v)
    | (true, v) => (true, v.setCache i { v.cache i with dirty := false })

/-! ## The allocator -/

/-- The slot of the bitmap cache that has a bitmap block. -/
def bitmapLookup (v : Volume β) (idx : ℕ) : Option (Fin 4) :=
  (List.finRange 4).find? (fun j => (v.bitmap j).block == some idx)

/-- The slot of the bitmap cache to be reused: the first empty one, or else the last one. -/
def bitmapVictim (v : Volume β) : Fin 4 :=
  ((List.finRange 4).find? (fun j => (v.bitmap j).block == none)).getD 3

/-- Write a slot of the bitmap cache to the device if it is dirty. The outcome of the write is
ignored. -/
def bitmapEvict (j : Fin 4) (v : Volume β) : Volume β :=
  if (v.bitmap j).dirty then
    let w := (v.writeBlock (2 + (v.bitmap j).block.getD (2 ^ 64 - 1)) (v.bitmap j).data).2
    w.setBitmap j { w.bitmap j with dirty := false }
  else v

/-- Bring a bitmap block into the bitmap cache. Returns its slot. -/
def bitmapLoad (idx : ℕ) (v : Volume β) : Option (Fin 4) × Volume β :=
  match v.bitmapLookup idx with
  | some j => (some j, v)
  | none =>
    match (v.bitmapEvict v.bitmapVictim).readBlock (2 + idx) with
    | (none, w) => (none, w)
    | (some i, w) =>
      (some v.bitmapVictim, w.setBitmap v.bitmapVictim
          { w.bitmap v.bitmapVictim with block := some idx, data := (w.cache i).data })

/-- The position of the bit of a block in its bitmap block. -/
def bitInBlock (n : ℕ) : Fin bitsPerBlock :=
  ⟨n % bitsPerBlock, Nat.mod_lt _ (by decide)⟩

section Bits

variable [BlockBits β]

open BlockBits

/-- The search for a free block by `allocBlock`, with `fuel` blocks left from `offset` on. -/
def allocScan (hint total : ℕ) : (fuel offset : ℕ) → Volume β → Option ℕ × Volume β
  | 0, _, v => (none, v)
  | fuel + 1, offset, v =>
    let blockNr := (hint + offset) % total
    match v.bitmapLoad (blockNr / bitsPerBlock) with
    | (none, v) => (none, v)
    | (some j, v) =>
      if bit (v.bitmap j).data (bitInBlock blockNr) then allocScan hint total fuel (offset + 1) v
      else
        (some blockNr,
          { v.setBitmap j
              { v.bitmap j with
                data := setBit (v.bitmap j).data (bitInBlock blockNr), dirty := true } with
            allocHint := blockNr + 1
            sb := { v.sb with usedBlocks := v.sb.usedBlocks + 1 }
            marked := update v.marked blockNr true })

/-- Allocate a free block. Returns its number. -/
def allocBlock (v : Volume β) : Option ℕ × Volume β :=
  if v.readonly then (none, v)
  else allocScan v.allocHint v.sb.totalBlocks v.sb.totalBlocks 0 v

/-- Free a block. -/
def freeBlock (n : ℕ) (v : Volume β) : Volume β :=
  if v.readonly then v
  else
    match v.bitmapLoad (n / bitsPerBlock) with
    | (none, v) => v
    | (some j, v) =>
      { v.setBitmap j
          { v.bitmap j with
            data := clearBit (v.bitmap j).data (bitInBlock n), dirty := true } with
        sb := { v.sb with usedBlocks := v.sb.usedBlocks - 1 }
        marked := update v.marked n false }

end Bits

/-- Write the dirty ones of the given slots of the bitmap cache to the device. Stops at the first
write that fails. -/
def bitmapFlushFrom : List (Fin 4) → Volume β → Bool × Volume β
  | [], v => (true, v)
  | j :: rest, v =>
    if (v.bitmap j).dirty then
      match v.writeBlock (2 + (v.bitmap j).block.getD (2 ^ 64 - 1)) (v.bitmap j).data with
      | (false, v) => (false, v)
      | (true, v) => bitmapFlushFrom rest (v.setBitmap j { v.bitmap j with dirty := false })
    else bitmapFlushFrom rest v

/-- Write all dirty bitmap blocks to the device. -/
def bitmapFlush (v : Volume β) : Bool × Volume β :=
  if v.readonly then (true, v) else bitmapFlushFrom (List.finRange 4) v

end Volume

end SaltyOS.Fs
