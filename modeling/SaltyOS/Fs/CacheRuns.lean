import SaltyOS.Fs.Coherence

/-!
# Runs of the block layer

The operations of the block layer in any order. As long as the allocator has room for all bitmap
blocks in its cache, nothing else writes to the bitmap blocks, and `putBlock` is only used on blocks
that are not in the block cache, both caches are coherent. Without the last condition they are not.
-/

open Function Relation

namespace SaltyOS.Fs

variable {β : Type} [BlockBits β]

open BlockBits

/-! ## The operations -/

/-- The operations of the block layer. -/
inductive BlockOp (β : Type) where
  | readBlock (n : ℕ)
  | modifyBlock (n : ℕ) (f : β → β)
  | cacheFlushBlock (n : ℕ)
  | putBlock (n : ℕ) (data : β)
  | allocBlock
  | freeBlock (n : ℕ)
  | bitmapLoad (idx : ℕ)
  | bitmapFlush

namespace BlockOp

/-- The state after an operation. -/
def exec (op : BlockOp β) (v : Volume β) : Volume β :=
  match op with
  | readBlock n => (v.readBlock n).2
  | modifyBlock n f => (v.modifyBlock n f).2
  | cacheFlushBlock n => (v.cacheFlushBlock n).2
  | putBlock n data => (v.putBlock n data).2
  | allocBlock => v.allocBlock.2
  | freeBlock n => v.freeBlock n
  | bitmapLoad idx => (v.bitmapLoad idx).2
  | bitmapFlush => v.bitmapFlush.2

/-- The operation leaves the bitmap blocks to the allocator, writes around the block cache only to
blocks that are not in it, and names blocks of the volume to the allocator. -/
def Careful (op : BlockOp β) (v : Volume β) : Prop :=
  match op with
  | modifyBlock n _ => ¬ v.InBitmap n
  | putBlock n _ => ¬ v.InBitmap n ∧ ¬ v.Resident n
  | freeBlock n => n < v.sb.totalBlocks
  | bitmapLoad idx => idx < v.bitmapBlocks
  | _ => True

end BlockOp

namespace Volume

variable {v w : Volume β} {n : ℕ}

/-! ## Mounting -/

/-- The state after a volume is mounted. -/
structure Mounted (v : Volume β) : Prop where
  reliable : v.dev.Reliable
  cache : ∀ i, (v.cache i).blockNr = none ∧ (v.cache i).dirty = false
  bitmap : ∀ j, (v.bitmap j).block = none ∧ (v.bitmap j).dirty = false
  written : v.written = v.dev.disk
  marked : ∀ n, v.marked n = bit (v.dev.disk (2 + n / bitsPerBlock)) (bitInBlock n)

theorem Mounted.coherent (h : v.Mounted) :
  v.Coherent
  := by
  have hblock : ∀ i n, (v.cache i).blockNr ≠ some n := by
    intro i n hi
    rw [(h.cache i).1] at hi
    cases hi
  have hnone : ∀ j k, (v.bitmap j).block ≠ some k := by
    intro j k hj
    rw [(h.bitmap j).1] at hj
    cases hj
  refine ⟨h.reliable, fun i _ n hi => absurd hi (hblock i n), fun i _ => (h.cache i).2,
    fun i n hi => absurd hi (hblock i n), ?_, fun i _ k hi => absurd hi (hnone i k),
    fun j _ => (h.bitmap j).2, fun j k hj => absurd hj (hnone j k)⟩
  intro n _ _
  use fun _ => by rw [h.written]
  rintro k rfl _ t
  have hmod : bitInBlock (k * bitsPerBlock + t) = t := by
    apply Fin.ext
    rw [bitInBlock, Nat.mul_comm]
    simp only [Nat.mul_add_mod, Nat.mod_eq_of_lt t.isLt]
  rw [h.marked, div_of_bit, hmod]

/-! ## The allocator -/

/-- The bit of a block as the allocator sees it. -/
theorem Coherent.bit_of_block (h : v.Coherent) {j : Fin 4}
    (hj : (v.bitmap j).block = some (n / bitsPerBlock)) :
  bit (v.bitmap j).data (bitInBlock n) = v.marked n
  := by
  obtain ⟨hk, hholds⟩ := h.bitmap j _ hj
  rw [hholds.2 _ rfl hk]
  congr 1
  exact Nat.div_add_mod' n bitsPerBlock

/-- The bit of a block is changed in the bitmap cache. -/
theorem Coherent.setMarked (h : v.Coherent) {j : Fin 4} {data : β} {b : Bool}
    (hj : (v.bitmap j).block = some (n / bitsPerBlock))
    (hbit : ∀ t, bit data t = if t = bitInBlock n then b else bit (v.bitmap j).data t)
    (allocHint usedBlocks : ℕ) :
  Coherent { v.setBitmap j { v.bitmap j with dirty := true, data } with
    allocHint, sb := { v.sb with usedBlocks }, marked := update v.marked n b }
  := by
  obtain ⟨hk, hholds⟩ := h.bitmap j _ hj
  have hdiv := Nat.div_add_mod' n bitsPerBlock
  refine h.setBitmap { v.bitmap j with dirty := true, data } hj hj (fun t => ?_) (fun m hm => ?_) _ _
  · rw [hbit, hholds.2 _ rfl hk]
    split_ifs with ht
    · subst ht
      rw [show n / bitsPerBlock * bitsPerBlock + (bitInBlock n : ℕ) = n from hdiv, update_self]
    rw [update_of_ne]
    intro heq
    apply ht
    apply Fin.ext
    show (t : ℕ) = n % bitsPerBlock
    omega
  · apply update_of_ne
    rintro rfl
    exact hm rfl

/-- The outcome of a search for a free block. -/
structure AllocOutcome (v : Volume β) (r : Option ℕ) (w : Volume β) : Prop where
  coherent : w.Coherent
  totalBlocks : w.sb.totalBlocks = v.sb.totalBlocks
  found : ∀ n, r = some n → v.marked n = false ∧ w.marked = update v.marked n true
  missed : r = none → w.marked = v.marked

theorem AllocOutcome.of_quiet (h : Quiet v w) :
  AllocOutcome v none w
  := ⟨h.coherent, h.totalBlocks, nofun, fun _ => h.marked⟩

/-- The search for a free block. -/
theorem Coherent.allocScan {total : ℕ} (h : v.Coherent) (h4 : v.bitmapBlocks ≤ 4)
    (htotal : v.sb.totalBlocks = total) (hpos : 0 < total) (hint fuel offset : ℕ) :
  AllocOutcome v (allocScan hint total fuel offset v).1 (allocScan hint total fuel offset v).2
  := by
  induction fuel generalizing v offset with
  | zero => exact .of_quiet h.quiet
  | succ fuel ih =>
    rw [Volume.allocScan]
    generalize hn : (hint + offset) % total = n
    have hlt : n < v.sb.totalBlocks := by
      rw [htotal, ← hn]
      exact Nat.mod_lt _ hpos
    rcases hu : v.bitmapLoad (n / bitsPerBlock) with ⟨r, u⟩
    obtain ⟨hq, hslot, -⟩ := h.bitmapLoad h4 (div_lt_bitmapBlocks hlt) hu
    obtain _ | j := r
    · exact .of_quiet hq
    have hj := hslot j rfl
    dsimp only
    rw [hq.coherent.bit_of_block hj]
    split_ifs with hm
    · have hrest := ih hq.coherent (hq.bitmapBlocks ▸ h4) (hq.totalBlocks.trans htotal) (offset + 1)
      refine ⟨hrest.coherent, hrest.totalBlocks.trans hq.totalBlocks, fun m hm => ?_, fun hnone => ?_⟩
      · rw [← hq.marked]
        exact hrest.found m hm
      · rw [← hq.marked]
        exact hrest.missed hnone
    · refine ⟨hq.coherent.setMarked hj (fun t => ?_) _ _, hq.totalBlocks, ?_, nofun⟩
      · rw [bit_setBit]
        by_cases ht : t = bitInBlock n <;> simp [ht]
      rintro m ⟨⟩
      rw [← hq.marked]
      exact ⟨Bool.eq_false_of_not_eq_true hm, rfl⟩

/-- Allocating a block. -/
theorem Coherent.allocBlock (h : v.Coherent) (h4 : v.bitmapBlocks ≤ 4) :
  AllocOutcome v v.allocBlock.1 v.allocBlock.2
  := by
  rw [Volume.allocBlock]
  split_ifs
  · exact .of_quiet h.quiet
  cases hzero : v.sb.totalBlocks with
  | zero => exact .of_quiet h.quiet
  | succ total => exact h.allocScan h4 hzero (Nat.succ_pos total) _ _ 0

/-- Freeing a block. -/
theorem Coherent.freeBlock (h : v.Coherent) (h4 : v.bitmapBlocks ≤ 4) (hn : n < v.sb.totalBlocks) :
  (v.freeBlock n).Coherent ∧ (v.freeBlock n).sb.totalBlocks = v.sb.totalBlocks ∧
    ∀ m, m ≠ n → (v.freeBlock n).marked m = v.marked m
  := by
  rw [Volume.freeBlock]
  split_ifs
  · exact ⟨h, rfl, fun _ _ => rfl⟩
  rcases hu : v.bitmapLoad (n / bitsPerBlock) with ⟨r, u⟩
  obtain ⟨hq, hslot, -⟩ := h.bitmapLoad h4 (div_lt_bitmapBlocks hn) hu
  obtain _ | j := r
  · exact ⟨hq.coherent, hq.totalBlocks, fun _ _ => by rw [hq.marked]⟩
  have hj := hslot j rfl
  refine ⟨hq.coherent.setMarked hj (fun t => ?_) _ _, hq.totalBlocks, fun m hm => ?_⟩
  · rw [bit_clearBit]
    by_cases ht : t = bitInBlock n <;> simp [ht]
  · rw [← hq.marked]
    exact update_of_ne hm _ _

/-! ## The steps -/

/-- What a careful operation does: the state stays coherent, the volume keeps its size, and no bit
is cleared but by freeing its block. -/
structure CarefulStep (op : BlockOp β) (v w : Volume β) : Prop where
  coherent : w.Coherent
  totalBlocks : w.sb.totalBlocks = v.sb.totalBlocks
  marked : ∀ n, op ≠ .freeBlock n → v.marked n = true → w.marked n = true

theorem CarefulStep.of_marked (op : BlockOp β) (h : w.Coherent) (hmarked : w.marked = v.marked)
    (htotal : w.sb.totalBlocks = v.sb.totalBlocks) :
  CarefulStep op v w
  := by
  refine ⟨h, htotal, fun n _ hn => ?_⟩
  rw [hmarked]
  exact hn

theorem CarefulStep.of_quiet (op : BlockOp β) (h : Quiet v w) :
  CarefulStep op v w
  := .of_marked op h.coherent h.marked h.totalBlocks

theorem Coherent.carefulStep (h : v.Coherent) (h4 : v.bitmapBlocks ≤ 4) (op : BlockOp β)
    (hop : op.Careful v) :
  CarefulStep op v (op.exec v)
  := by
  cases op with
  | readBlock n => exact .of_quiet _ (h.readBlock rfl).1
  | modifyBlock n f =>
    obtain ⟨hc, hmarked, htotal⟩ := h.modifyBlock hop f
    exact .of_marked _ hc hmarked htotal
  | cacheFlushBlock n => exact .of_quiet _ (h.cacheFlushBlock n)
  | putBlock n data =>
    obtain ⟨hc, hmarked, htotal⟩ := h.putBlock hop.1 hop.2 data
    exact .of_marked _ hc hmarked htotal
  | allocBlock =>
    have ho := h.allocBlock h4
    refine ⟨ho.coherent, ho.totalBlocks, fun n _ hn => ?_⟩
    show v.allocBlock.2.marked n = true
    rcases hr : v.allocBlock.1 with _ | m
    · rw [ho.missed hr, hn]
    rw [(ho.found m hr).2, update_apply]
    split_ifs
    · rfl
    · exact hn
  | freeBlock m =>
    obtain ⟨hc, htotal, hmarked⟩ := h.freeBlock h4 hop
    refine ⟨hc, htotal, fun n hne hn => ?_⟩
    exact (hmarked n fun hnm => hne (hnm ▸ rfl)).trans hn
  | bitmapLoad k => exact .of_quiet _ (h.bitmapLoad h4 hop rfl).1
  | bitmapFlush =>
    apply CarefulStep.of_quiet
    show Quiet v v.bitmapFlush.2
    rw [bitmapFlush]
    split_ifs
    · exact h.quiet
    · exact h.bitmapFlushFrom _

/-! ## Runs -/

/-- One careful operation, other than freeing one of the blocks in `kept`. -/
def Step (kept : Set ℕ) (v w : Volume β) : Prop :=
  ∃ op : BlockOp β, op.Careful v ∧ (∀ n ∈ kept, op ≠ .freeBlock n) ∧ op.exec v = w

/-- A careful operation, when no block is to be kept. -/
theorem step_exec (op : BlockOp β) (h : op.Careful v) :
  Step ∅ v (op.exec v)
  := ⟨op, h, fun _ hn => hn.elim, rfl⟩

/-- A run of careful operations. -/
theorem Coherent.run {kept : Set ℕ} (h : v.Coherent) (h4 : v.sb.totalBlocks ≤ 4 * bitsPerBlock)
    (hrun : ReflTransGen (Step kept) v w) :
  w.Coherent ∧ w.sb.totalBlocks = v.sb.totalBlocks ∧ ∀ n ∈ kept, v.marked n = true → w.marked n = true
  := by
  apply invariant_of_run (I := fun u => u.Coherent ∧ u.sb.totalBlocks = v.sb.totalBlocks ∧
    ∀ n ∈ kept, v.marked n = true → u.marked n = true) _ ⟨h, rfl, fun _ _ hn => hn⟩ hrun
  rintro s t ⟨hs, htotal, hkept⟩ ⟨op, hop, hfree, rfl⟩
  have hcount : s.bitmapBlocks ≤ 4 := by
    have hbits : bitsPerBlock = 32768 := rfl
    rw [bitmapBlocks, htotal, hbits]
    omega
  have hstep := hs.carefulStep hcount op hop
  refine ⟨hstep.coherent, hstep.totalBlocks.trans htotal, fun n hn hm => ?_⟩
  exact hstep.marked n (hfree n hn) (hkept n hn hm)

/-- A volume that was just mounted, with nothing on it. -/
def blank (totalBlocks allocHint : ℕ) : Volume Bytes where
  dev :=
    { disk := fun _ _ => 0#8, readFails := fun _ => false, writeFails := fun _ => false
      reads := 0, writes := 0 }
  readonly := false
  cache := fun _ => { blockNr := none, age := 0, dirty := false, data := fun _ => 0#8 }
  tick := 0
  bitmap := fun _ => { block := none, dirty := false, data := fun _ => 0#8 }
  allocHint
  sb := { totalBlocks, usedBlocks := 0, rootTree := 0, generation := 0 }
  written := fun _ _ => 0#8
  marked := fun _ => false

theorem blank_mounted (totalBlocks allocHint : ℕ) :
  (blank totalBlocks allocHint).Mounted
  := by
  refine ⟨⟨fun _ => rfl, fun _ => rfl⟩, fun _ => ⟨rfl, rfl⟩, fun _ => ⟨rfl, rfl⟩, rfl, fun n => ?_⟩
  show false = Bytes.testBit 0#8 (Bytes.bitIdx (bitInBlock n))
  rw [Bytes.testBit_eq, BitVec.getLsbD_zero]

/-- The state after a list of operations. -/
def execAll (ops : List (BlockOp β)) (v : Volume β) : Volume β :=
  ops.foldl (fun v op => op.exec v) v

end Volume

end SaltyOS.Fs
