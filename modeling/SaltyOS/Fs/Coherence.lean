import Mathlib.Data.Fintype.EquivFin
import SaltyOS.Fs.Block
import SaltyOS.Lib.Prog

/-!
# Coherence of the caches

A block has up to three copies: in the bitmap cache, in the block cache and on the device. The copy in
the bitmap cache comes first. If there is none then the copy in the block cache counts, and the block
on the device counts unless the block cache has a dirty copy. The caches are coherent if every copy
that counts has what was written to the block last.
-/

open Function

namespace SaltyOS.Fs

variable {β : Type}

open BlockBits

namespace Volume

/-! ## Coherent states -/

/-- A block is in the block cache. -/
def Resident (v : Volume β) (n : ℕ) : Prop := ∃ i, (v.cache i).blockNr = some n

/-- The number of bitmap blocks. -/
def bitmapBlocks (v : Volume β) : ℕ :=
  (v.sb.totalBlocks + bitsPerBlock - 1) / bitsPerBlock

/-- The block is one of the bitmap blocks. -/
def InBitmap (v : Volume β) (n : ℕ) : Prop := 2 ≤ n ∧ n < 2 + v.bitmapBlocks

/-- The allocator has a copy of its own of a block, in the bitmap cache. -/
def Owned (v : Volume β) (n : ℕ) : Prop :=
  ∃ j k, (v.bitmap j).block = some k ∧ n = 2 + k

/-- No copy of a block in the block cache is dirty. -/
def Clean (v : Volume β) (n : ℕ) : Prop :=
  ∀ i, (v.cache i).blockNr = some n → (v.cache i).dirty = false

variable [BlockBits β] {v w : Volume β} {n k : ℕ} {i : Fin 256} {j : Fin 4} {b : β}

/-- The contents are what was written to a block last, and for a bitmap block the bits that were set
last. -/
def Holds (v : Volume β) (n : ℕ) (b : β) : Prop :=
  (¬ v.InBitmap n → b = v.written n) ∧ ∀ k, n = 2 + k → k < v.bitmapBlocks → ∀ t : Fin bitsPerBlock,
      bit b t = v.marked (k * bitsPerBlock + t)

/-- The caches are coherent. Both have every block at most once, no empty slot is dirty, and all
copies that count have what was written last. -/
structure Coherent (v : Volume β) : Prop where
  reliable : v.dev.Reliable
  distinct : ∀ i j n, (v.cache i).blockNr = some n → (v.cache j).blockNr = some n → i = j
  empty : ∀ i, (v.cache i).blockNr = none → (v.cache i).dirty = false
  cache : ∀ i n, (v.cache i).blockNr = some n → ¬ v.Owned n → v.Holds n (v.cache i).data
  disk : ∀ n, ¬ v.Owned n → v.Clean n → v.Holds n (v.dev.disk n)
  bitmapDistinct : ∀ i j k, (v.bitmap i).block = some k → (v.bitmap j).block = some k → i = j
  bitmapEmpty : ∀ j, (v.bitmap j).block = none → (v.bitmap j).dirty = false
  bitmap : ∀ j k, (v.bitmap j).block = some k → k < v.bitmapBlocks ∧ v.Holds (2 + k) (v.bitmap j).data

theorem Coherent.inBitmap_of_owned (h : v.Coherent) (hn : v.Owned n) :
  v.InBitmap n
  := by
  obtain ⟨j, k, hj, rfl⟩ := hn
  have hk := (h.bitmap j k hj).1
  rw [InBitmap]
  omega

/-- The contents of a block are the same in two states that agree on the block. -/
theorem Holds.congr (h : v.Holds n b) (hblocks : w.bitmapBlocks = v.bitmapBlocks)
    (hwritten : ¬ v.InBitmap n → w.written n = v.written n)
    (hmarked : ∀ k, n = 2 + k → ∀ t : Fin bitsPerBlock,
      w.marked (k * bitsPerBlock + t) = v.marked (k * bitsPerBlock + t)) :
  w.Holds n b
  := by
  constructor
  · intro hn
    rw [InBitmap, hblocks] at hn
    rw [hwritten hn]
    exact h.1 hn
  · intro k hk hlt t
    rw [hblocks] at hlt
    rw [hmarked k hk t]
    exact h.2 k hk hlt t

/-- A coherent state in which the same has been written last as in another state. -/
structure Quiet (v w : Volume β) : Prop where
  coherent : w.Coherent
  written : w.written = v.written
  marked : w.marked = v.marked
  totalBlocks : w.sb.totalBlocks = v.sb.totalBlocks
  readonly : w.readonly = v.readonly

theorem Coherent.quiet (h : v.Coherent) :
  Quiet v v
  := ⟨h, rfl, rfl, rfl, rfl⟩

theorem Quiet.bitmapBlocks (h : Quiet v w) :
  w.bitmapBlocks = v.bitmapBlocks
  := by
  rw [Volume.bitmapBlocks, Volume.bitmapBlocks, h.totalBlocks]

theorem Quiet.inBitmap_iff (h : Quiet v w) (n : ℕ) :
  w.InBitmap n ↔ v.InBitmap n
  := by
  rw [InBitmap, InBitmap, h.bitmapBlocks]

theorem Quiet.trans {u : Volume β} (h : Quiet u v) (h' : Quiet v w) :
  Quiet u w
  := ⟨h'.coherent, h'.written.trans h.written, h'.marked.trans h.marked,
    h'.totalBlocks.trans h.totalBlocks, h'.readonly.trans h.readonly⟩

/-! ## Changes of the block cache -/

omit [BlockBits β] in
theorem blockNr_of_lookup (h : v.lookup n = some i) :
  (v.cache i).blockNr = some n
  := by
  have h' := List.find?_some h
  exact eq_of_beq h'

omit [BlockBits β] in
theorem not_resident_of_lookup (h : v.lookup n = none) :
  ¬ v.Resident n
  := by
  rintro ⟨i, hi⟩
  apply List.find?_eq_none.mp h i (List.mem_finRange i)
  simp [hi]

namespace Coherent

variable (h : v.Coherent)
include h

/-- A slot of the block cache is replaced by one with the same copy of the same block. -/
theorem setCache {slot : CacheSlot β} (hi : (v.cache i).blockNr = some n)
    (hb : slot.blockNr = some n) (hdata : slot.data = (v.cache i).data)
    (hdisk : slot.dirty = false → ¬ v.Owned n → v.Holds n (v.dev.disk n)) :
  (v.setCache i slot).Coherent
  := by
  have hnr : ∀ j, ((v.setCache i slot).cache j).blockNr = (v.cache j).blockNr := by
    intro j
    by_cases hj : j = i
    · rw [hj, setCache_self, hb, hi]
    · rw [setCache_of_ne hj]
  refine ⟨h.reliable, ?_, ?_, ?_, ?_, h.bitmapDistinct, h.bitmapEmpty, h.bitmap⟩
  · intro j l m hj hl
    rw [hnr] at hj hl
    exact h.distinct j l m hj hl
  · intro j hj
    have hji : j ≠ i := by
      rintro rfl
      rw [hnr, hi] at hj
      cases hj
    rw [setCache_of_ne hji] at hj ⊢
    exact h.empty j hj
  · intro j m hj hm
    have hold := h.cache j m ((hnr j).symm.trans hj) hm
    by_cases hji : j = i
    · rw [hji, setCache_self, hdata]
      rwa [hji] at hold
    · rwa [setCache_of_ne hji]
  · intro m hm hclean
    by_cases hmn : m = n
    · subst hmn
      have hd := hclean i ((hnr i).trans hi)
      rw [setCache_self] at hd
      exact hdisk hd hm
    refine h.disk m hm fun j hj => ?_
    have hji : j ≠ i := by
      rintro rfl
      exact hmn (Option.some.inj (hj.symm.trans hi))
    have hd := hclean j ((hnr j).trans hj)
    rwa [setCache_of_ne hji] at hd

/-- A slot of the block cache that is not dirty is reused for a block as it is on the device. -/
theorem reuse (slot : CacheSlot β) (hn : ¬ v.Resident n) (hclean : (v.cache i).dirty = false)
    (hb : slot.blockNr = some n) (hd : slot.dirty = false) (hdata : slot.data = v.dev.disk n) :
  (v.setCache i slot).Coherent
  := by
  -- no other slot has the block
  have hself : ∀ j m, ((v.setCache i slot).cache j).blockNr = some m →
      (j = i ∧ m = n) ∨ (j ≠ i ∧ m ≠ n ∧ (v.cache j).blockNr = some m) := by
    intro j m hj
    by_cases hji : j = i
    · rw [hji, setCache_self, hb] at hj
      exact .inl ⟨hji, (Option.some.inj hj).symm⟩
    rw [setCache_of_ne hji] at hj
    refine .inr ⟨hji, ?_, hj⟩
    rintro rfl
    exact hn ⟨j, hj⟩
  refine ⟨h.reliable, ?_, ?_, ?_, ?_, h.bitmapDistinct, h.bitmapEmpty, h.bitmap⟩
  · intro j l m hj hl
    obtain ⟨rfl, rfl⟩ | ⟨hji, hm, hj⟩ := hself j m hj
    · obtain ⟨rfl, -⟩ | ⟨-, hm, -⟩ := hself l m hl
      · rfl
      · exact absurd rfl hm
    · obtain ⟨-, hm'⟩ | ⟨-, -, hl⟩ := hself l m hl
      · exact absurd hm' hm
      · exact h.distinct j l m hj hl
  · intro j hj
    by_cases hji : j = i
    · rw [hji, setCache_self, hd]
    · rw [setCache_of_ne hji] at hj ⊢
      exact h.empty j hj
  · intro j m hj hm
    obtain ⟨rfl, rfl⟩ | ⟨hji, -, hj⟩ := hself j m hj
    · rw [setCache_self, hdata]
      exact h.disk m hm fun l hl => absurd ⟨l, hl⟩ hn
    · rw [setCache_of_ne hji]
      exact h.cache j m hj hm
  · intro m hm hclean'
    refine h.disk m hm fun j hj => ?_
    by_cases hji : j = i
    · rw [hji, hclean]
    · have hd' := hclean' j (by rwa [setCache_of_ne hji])
      rwa [setCache_of_ne hji] at hd'

/-- A block other than the bitmap blocks gets new contents in the block cache, or on the device if the
block cache has no dirty copy. -/
theorem rewrite (hn : ¬ v.InBitmap n) {b : β} {cache : Fin 256 → CacheSlot β} {disk : ℕ → β}
    (hcache : ∀ i, (cache i).blockNr = (v.cache i).blockNr ∧ (cache i).dirty = (v.cache i).dirty ∧
      (cache i).data = if (v.cache i).blockNr = some n then b else (v.cache i).data)
    (hdisk : ∀ m, m ≠ n → disk m = v.dev.disk m) (hclean : v.Clean n → disk n = b) (writes : ℕ) :
  Coherent { v with
    dev := { v.dev with disk, writes }, cache, written := update v.written n b }
  := by
  have hself : Holds { v with written := update v.written n b } n b := by
    use fun _ => (update_self n b v.written).symm
    rintro k rfl hk
    have hlt : k < v.bitmapBlocks := hk
    exact absurd ⟨by omega, by omega⟩ hn
  have hother : ∀ m c, m ≠ n → v.Holds m c → Holds { v with written := update v.written n b } m c := by
    intro m c hm hc
    exact hc.congr rfl (fun _ => update_of_ne hm b v.written) fun _ _ _ => rfl
  refine ⟨h.reliable, ?_, ?_, ?_, ?_, h.bitmapDistinct, h.bitmapEmpty, ?_⟩
  · intro i j m hi hj
    rw [(hcache i).1] at hi
    rw [(hcache j).1] at hj
    exact h.distinct i j m hi hj
  · intro i hi
    rw [(hcache i).1] at hi
    rw [(hcache i).2.1]
    exact h.empty i hi
  · intro i m hi hm
    rw [(hcache i).1] at hi
    rw [(hcache i).2.2, hi]
    by_cases hmn : m = n
    · subst hmn
      rw [if_pos rfl]
      exact hself
    · rw [if_neg fun heq => hmn (Option.some.inj heq)]
      exact hother m _ hmn (h.cache i m hi hm)
  · intro m hm hd
    have hd' : v.Clean m := by
      intro i hi
      rw [← (hcache i).2.1]
      exact hd i ((hcache i).1.trans hi)
    dsimp only
    by_cases hmn : m = n
    · subst hmn
      rw [hclean hd']
      exact hself
    · rw [hdisk m hmn]
      exact hother m _ hmn (h.disk m hm hd')
  · intro j k hj
    obtain ⟨hk, hholds⟩ := h.bitmap j k hj
    refine ⟨hk, hother _ _ ?_ hholds⟩
    rintro rfl
    exact hn ⟨by omega, by omega⟩

end Coherent

/-! ## Writing to the device -/

omit [BlockBits β] in
/-- The state after a block was written to the device. -/
def stored (v : Volume β) (n : ℕ) (data : β) : Volume β :=
  { v with dev := { v.dev with disk := update v.dev.disk n data, writes := v.dev.writes + 1 } }

omit [BlockBits β] in
/-- With reliable requests, a write is refused on a read-only volume only. -/
theorem writeBlock_eq (hdev : v.dev.Reliable) (n : ℕ) (data : β) :
  v.writeBlock n data = if v.readonly then (false, v) else (true, v.stored n data)
  := by
  simp only [writeBlock, Device.write, hdev.2, Bool.false_eq_true, if_false]
  rfl

/-- A copy of a block that counts is written to the device, or an old copy of a block of which the
bitmap cache has a copy. -/
theorem Coherent.stored (h : v.Coherent) (data : β) (hdata : ¬ v.Owned n → v.Holds n data) :
  Quiet v (v.stored n data)
  := by
  have hholds : ∀ m b, v.Holds m b → (v.stored n data).Holds m b := fun m b hb =>
    hb.congr rfl (fun _ => rfl) fun _ _ _ => rfl
  refine ⟨⟨h.reliable, h.distinct, h.empty, ?_, ?_, h.bitmapDistinct, h.bitmapEmpty, ?_⟩, rfl, rfl, rfl,
    rfl⟩
  · intro i m hi hm
    exact hholds m _ (h.cache i m hi hm)
  · intro m hm hclean
    by_cases hmn : m = n
    · subst hmn
      simp only [Volume.stored, update_self]
      exact hholds m _ (hdata hm)
    · simp only [Volume.stored, update_of_ne hmn]
      exact hholds m _ (h.disk m hm hclean)
  · intro j k hj
    exact ⟨(h.bitmap j k hj).1, hholds _ _ (h.bitmap j k hj).2⟩

/-- Writing back a slot of the block cache. -/
theorem Coherent.flushSlot {ok : Bool} (h : v.Coherent) (hf : v.flushSlot i = (ok, w)) :
  Quiet v w ∧ w.bitmap = v.bitmap ∧ (∀ j, (w.cache j).blockNr = (v.cache j).blockNr) ∧
    (ok = true → (w.cache i).dirty = false) ∧ (v.readonly = false → ok = true)
  := by
  rw [Volume.flushSlot] at hf
  split_ifs at hf with hd
  · cases hb : (v.cache i).blockNr with
    | none =>
      rw [h.empty i hb] at hd
      cases hd
    | some n =>
      rw [hb, Option.getD_some, writeBlock_eq h.reliable] at hf
      cases hro : v.readonly with
      | true =>
        rw [hro] at hf
        cases hf
        exact ⟨h.quiet, rfl, fun _ => rfl, nofun, nofun⟩
      | false =>
        rw [hro] at hf
        cases hf
        have hstored := h.stored _ (h.cache i n hb)
        have hclean : ((v.stored n (v.cache i).data).setCache i
            { v.cache i with dirty := false }).Coherent := by
          refine hstored.coherent.setCache hb hb rfl fun _ ho => ?_
          have hholds := hstored.coherent.cache i n hb ho
          simpa only [Volume.stored, update_self] using hholds
        refine ⟨⟨hclean, hstored.written, rfl, rfl, rfl⟩, rfl, fun j => ?_, fun _ => ?_, fun _ => rfl⟩
        · by_cases hj : j = i
          · rw [hj, setCache_self]
            rfl
          · rw [setCache_of_ne hj]
            rfl
        · rw [setCache_self]
  · cases hf
    exact ⟨h.quiet, rfl, fun _ => rfl, fun _ => Bool.eq_false_iff.mpr hd, fun _ => rfl⟩

/-! ## Reading and writing blocks -/

namespace Coherent

variable {r : Option (Fin 256)} (h : v.Coherent)
include h

/-- Reading a block. -/
theorem readBlock (hr : v.readBlock n = (r, w)) :
  Quiet v w ∧ w.bitmap = v.bitmap ∧ (∀ i, r = some i → (w.cache i).blockNr = some n) ∧
    (v.readonly = false → r.isSome)
  := by
  rw [Volume.readBlock] at hr
  cases hl : v.lookup n with
  | some i =>
    rw [hl] at hr
    cases hr
    have hi := blockNr_of_lookup hl
    have hclean : (v.cache i).dirty = false → v.Clean n := by
      intro hd j hj
      rw [h.distinct j i n hj hi, hd]
    have hc : (v.setCache i { v.cache i with age := v.tick }).Coherent :=
      h.setCache hi hi rfl fun hd ho => h.disk n ho (hclean hd)
    refine ⟨⟨⟨hc.1, hc.2, hc.3, hc.4, hc.5, hc.6, hc.7, hc.8⟩, rfl, rfl, rfl, rfl⟩, rfl, ?_,
      fun _ => rfl⟩
    rintro j ⟨⟩
    simp only [setCache_self, hi]
  | none =>
    rw [hl] at hr
    rcases hf : v.flushSlot v.victim with ⟨ok, u⟩
    obtain ⟨hq, hbitmap, hnr, hclean, hok⟩ := h.flushSlot hf
    rw [hf] at hr
    cases ok with
    | false =>
      cases hr
      exact ⟨hq, hbitmap, nofun, fun hro => nomatch hok hro⟩
    | true =>
      have hn : ¬ u.Resident n := by
        rintro ⟨j, hj⟩
        rw [hnr] at hj
        exact not_resident_of_lookup hl ⟨j, hj⟩
      have hc := hq.coherent.reuse { u.cache v.victim with
        blockNr := some n, age := u.tick, data := u.dev.disk n } hn (hclean rfl) rfl (hclean rfl) rfl
      simp only [Device.read, hq.coherent.reliable.1] at hr
      cases hr
      refine ⟨⟨⟨hc.1, hc.2, hc.3, hc.4, hc.5, hc.6, hc.7, hc.8⟩, hq.written, hq.marked,
        hq.totalBlocks, hq.readonly⟩, hbitmap, ?_, fun _ => rfl⟩
      rintro i ⟨⟩
      simp only [setCache_self]

/-- Bringing a block into the block cache to change it. -/
theorem readBlockMut (hr : v.readBlockMut n = (r, w)) :
  Quiet v w ∧ ∀ i, r = some i → (w.cache i).blockNr = some n ∧ (w.cache i).dirty = true
  := by
  rw [Volume.readBlockMut] at hr
  rcases hu : v.readBlock n with ⟨r', u⟩
  obtain ⟨hq, -⟩ := h.readBlock hu
  rw [hu] at hr
  cases r' with
  | none =>
    cases hr
    exact ⟨hq, nofun⟩
  | some i' =>
    cases hl : u.lookup n with
    | none =>
      simp only [hl] at hr
      cases hr
      exact ⟨hq, nofun⟩
    | some i =>
      simp only [hl] at hr
      cases hr
      have hi := blockNr_of_lookup hl
      have hc : (u.setCache i { u.cache i with dirty := true }).Coherent :=
        hq.coherent.setCache hi hi rfl nofun
      use ⟨hc, hq.written, hq.marked, hq.totalBlocks, hq.readonly⟩
      rintro j ⟨⟩
      rw [setCache_self]
      exact ⟨hi, rfl⟩

/-- Writing back a block. -/
theorem cacheFlushBlock (n : ℕ) :
  Quiet v (v.cacheFlushBlock n).2
  := by
  rw [Volume.cacheFlushBlock]
  cases hl : (List.finRange 256).find?
      (fun i => (v.cache i).blockNr == some n && (v.cache i).dirty) with
  | none => exact h.quiet
  | some i =>
    have hi := List.find?_some hl
    rw [Bool.and_eq_true] at hi
    have hb : (v.cache i).blockNr = some n := eq_of_beq hi.1
    rcases hf : v.flushSlot i with ⟨ok, w⟩
    obtain ⟨hq, -⟩ := h.flushSlot hf
    rw [Volume.flushSlot, if_pos hi.2, hb, Option.getD_some] at hf
    dsimp only
    rw [hf]
    exact hq

/-- A user writes a block around the block cache. -/
theorem putBlock (hn : ¬ v.InBitmap n) (hr : ¬ v.Resident n) (data : β) :
  (v.putBlock n data).2.Coherent ∧ (v.putBlock n data).2.marked = v.marked ∧
    (v.putBlock n data).2.sb.totalBlocks = v.sb.totalBlocks
  := by
  rw [Volume.putBlock, writeBlock_eq h.reliable]
  by_cases hro : v.readonly = true
  · rw [if_pos hro]
    exact ⟨h, rfl, rfl⟩
  rw [if_neg hro]
  refine ⟨h.rewrite hn (fun i => ⟨rfl, rfl, ?_⟩) ?_ (fun _ => update_self ..) _, rfl, rfl⟩
  · rw [if_neg fun hi => hr ⟨i, hi⟩]
  · intro m hm
    exact update_of_ne hm _ _

/-- Changing a block through the block cache. -/
theorem modifyBlock (hn : ¬ v.InBitmap n) (f : β → β) :
  (v.modifyBlock n f).2.Coherent ∧ (v.modifyBlock n f).2.marked = v.marked ∧
    (v.modifyBlock n f).2.sb.totalBlocks = v.sb.totalBlocks
  := by
  rw [Volume.modifyBlock]
  rcases hu : v.readBlockMut n with ⟨r, u⟩
  obtain ⟨hq, hslot⟩ := h.readBlockMut hu
  obtain _ | i := r
  · exact ⟨hq.coherent, hq.marked, hq.totalBlocks⟩
  obtain ⟨hi, hd⟩ := hslot i rfl
  refine ⟨hq.coherent.rewrite (mt (hq.inBitmap_iff n).mp hn) (fun j => ?_) (fun _ _ => rfl)
    (fun hclean => ?_) _, hq.marked, hq.totalBlocks⟩
  · by_cases hj : j = i
    · rw [hj, setCache_self, if_pos hi]
      exact ⟨rfl, rfl, rfl⟩
    · rw [setCache_of_ne hj, if_neg fun heq => hj (hq.coherent.distinct j i n heq hi)]
      exact ⟨rfl, rfl, rfl⟩
  · rw [hclean i hi] at hd
    cases hd

end Coherent

/-! ## The bitmap cache -/

omit [BlockBits β] in
theorem block_ne_of_bitmapLookup (h : v.bitmapLookup k = none) (j : Fin 4) :
  (v.bitmap j).block ≠ some k
  := by
  intro hj
  apply List.find?_eq_none.mp h j (List.mem_finRange j)
  simp [hj]

omit [BlockBits β] in
/-- A block of the volume has its bit in one of the bitmap blocks. -/
theorem div_lt_bitmapBlocks (hn : n < v.sb.totalBlocks) :
  n / bitsPerBlock < v.bitmapBlocks
  := by
  have h : bitsPerBlock = 32768 := rfl
  rw [bitmapBlocks, h]
  omega

/-- The bitmap block in which a bit is. -/
theorem div_of_bit (k : ℕ) (t : Fin bitsPerBlock) :
  (k * bitsPerBlock + t) / bitsPerBlock = k
  := by
  rw [Nat.mul_comm, Nat.mul_add_div (by decide), Nat.div_eq_of_lt t.isLt, Nat.add_zero]

namespace Coherent

variable (h : v.Coherent)
include h

/-- As long as there are at most four bitmap blocks, a bitmap block that is not in the bitmap cache
finds an empty slot. -/
theorem bitmapVictim (h4 : v.bitmapBlocks ≤ 4) (hk : k < v.bitmapBlocks)
    (hl : v.bitmapLookup k = none) :
  (v.bitmap v.bitmapVictim).block = none
  := by
  have hex : ∃ j, (v.bitmap j).block = none := by
    by_contra hno
    push Not at hno
    choose f hf using fun j => Option.ne_none_iff_exists'.mp (hno j)
    have hlt : ∀ j, f j < 4 := fun j => (h.bitmap j _ (hf j)).1.trans_le h4
    have hinj : Function.Injective (fun j => (⟨f j, hlt j⟩ : Fin 4)) := by
      intro i j hij
      have hfij : f i = f j := congrArg Fin.val hij
      apply h.bitmapDistinct i j (f i) (hf i)
      rw [hf j, hfij]
    obtain ⟨j, hj⟩ := Finite.injective_iff_surjective.mp hinj ⟨k, hk.trans_le h4⟩
    have hfj : f j = k := congrArg Fin.val hj
    apply block_ne_of_bitmapLookup hl j
    rw [hf j, hfj]
  obtain ⟨j, hj⟩ := hex
  rw [Volume.bitmapVictim]
  cases hf : (List.finRange 4).find? (fun j => (v.bitmap j).block == none) with
  | none =>
    exfalso
    apply List.find?_eq_none.mp hf j (List.mem_finRange j)
    simp [hj]
  | some i =>
    have h' := List.find?_some hf
    exact eq_of_beq h'

/-- An empty slot of the bitmap cache receives a bitmap block. -/
theorem fill (slot : BitmapSlot β) (hj : (v.bitmap j).block = none) (hk : k < v.bitmapBlocks)
    (hl : v.bitmapLookup k = none) (hb : slot.block = some k) (hdata : v.Holds (2 + k) slot.data) :
  (v.setBitmap j slot).Coherent
  := by
  have howned : ∀ n, v.Owned n → (v.setBitmap j slot).Owned n := by
    rintro n ⟨i, k', hi, hn⟩
    have hij : i ≠ j := by
      rintro rfl
      rw [hj] at hi
      cases hi
    exact ⟨i, k', by rw [setBitmap_of_ne hij, hi], hn⟩
  -- no other slot has the bitmap block
  have hself : ∀ i m, ((v.setBitmap j slot).bitmap i).block = some m →
      (i = j ∧ m = k) ∨ (i ≠ j ∧ m ≠ k ∧ (v.bitmap i).block = some m) := by
    intro i m hi
    by_cases hij : i = j
    · rw [hij, setBitmap_self, hb] at hi
      exact .inl ⟨hij, (Option.some.inj hi).symm⟩
    rw [setBitmap_of_ne hij] at hi
    refine .inr ⟨hij, ?_, hi⟩
    rintro rfl
    exact block_ne_of_bitmapLookup hl i hi
  refine ⟨h.reliable, h.distinct, h.empty, fun i n hi hn => h.cache i n hi (mt (howned n) hn),
    fun n hn => h.disk n (mt (howned n) hn), ?_, ?_, ?_⟩
  · intro i i' m hi hi'
    obtain ⟨rfl, rfl⟩ | ⟨hij, hm, hi⟩ := hself i m hi
    · obtain ⟨rfl, -⟩ | ⟨-, hm, -⟩ := hself i' m hi'
      · rfl
      · exact absurd rfl hm
    · obtain ⟨-, hm'⟩ | ⟨-, -, hi'⟩ := hself i' m hi'
      · exact absurd hm' hm
      · exact h.bitmapDistinct i i' m hi hi'
  · intro i hi
    by_cases hij : i = j
    · rw [hij, setBitmap_self, hb] at hi
      cases hi
    · rw [setBitmap_of_ne hij] at hi ⊢
      exact h.bitmapEmpty i hi
  · intro i m hi
    obtain ⟨rfl, rfl⟩ | ⟨hij, -, hi⟩ := hself i m hi
    · rw [setBitmap_self]
      exact ⟨hk, hdata⟩
    · rw [setBitmap_of_ne hij]
      exact h.bitmap i m hi

/-- Bits of a bitmap block are changed in the bitmap cache. -/
theorem setBitmap (slot : BitmapSlot β) {marked : ℕ → Bool}
    (hj : (v.bitmap j).block = some k) (hb : slot.block = some k)
    (hdata : ∀ t : Fin bitsPerBlock, bit slot.data t = marked (k * bitsPerBlock + t))
    (hmarked : ∀ m, m / bitsPerBlock ≠ k → marked m = v.marked m) (allocHint usedBlocks : ℕ) :
  Coherent { v.setBitmap j slot with allocHint, sb := { v.sb with usedBlocks }, marked }
  := by
  have hblock : ∀ i, ((v.setBitmap j slot).bitmap i).block = (v.bitmap i).block := by
    intro i
    by_cases hij : i = j
    · rw [hij, setBitmap_self, hb, hj]
    · rw [setBitmap_of_ne hij]
  have howned : ∀ n, v.Owned n → (v.setBitmap j slot).Owned n := by
    rintro n ⟨i, m, hi, hn⟩
    exact ⟨i, m, (hblock i).trans hi, hn⟩
  have hother : ∀ m c, m ≠ 2 + k → v.Holds m c →
      Holds { v.setBitmap j slot with allocHint, sb := { v.sb with usedBlocks }, marked } m c := by
    intro m c hm hc
    refine hc.congr rfl (fun _ => rfl) fun k' hk' t => hmarked _ ?_
    rw [div_of_bit]
    rintro rfl
    exact hm hk'
  have hne : ∀ n, ¬ (v.setBitmap j slot).Owned n → n ≠ 2 + k := by
    rintro n hn rfl
    exact hn ⟨j, k, (hblock j).trans hj, rfl⟩
  refine ⟨h.reliable, h.distinct, h.empty, ?_, ?_, ?_, ?_, ?_⟩
  · intro i n hi hn
    exact hother n _ (hne n hn) (h.cache i n hi (mt (howned n) hn))
  · intro n hn hclean
    exact hother n _ (hne n hn) (h.disk n (mt (howned n) hn) hclean)
  · intro i l m hi hl
    rw [hblock] at hi hl
    exact h.bitmapDistinct i l m hi hl
  · intro i hi
    have hij : i ≠ j := by
      rintro rfl
      rw [hblock, hj] at hi
      cases hi
    rw [setBitmap_of_ne hij] at hi ⊢
    exact h.bitmapEmpty i hi
  · intro i m hi
    rw [hblock] at hi
    obtain ⟨hm, hholds⟩ := h.bitmap i m hi
    use hm
    by_cases hij : i = j
    · subst hij
      cases hj.symm.trans hi
      rw [setBitmap_self]
      refine ⟨fun hn => absurd ⟨Nat.le_add_right 2 k, Nat.add_lt_add_left hm 2⟩ hn, fun k' hk' _ t => ?_⟩
      obtain rfl : k = k' := by omega
      exact hdata t
    · rw [setBitmap_of_ne hij]
      refine hother _ _ (fun hmk => hij ?_) hholds
      obtain rfl : m = k := by omega
      exact h.bitmapDistinct i j m hi hj

/-- Loading a bitmap block. -/
theorem bitmapLoad {r : Option (Fin 4)} (h4 : v.bitmapBlocks ≤ 4) (hk : k < v.bitmapBlocks)
    (hr : v.bitmapLoad k = (r, w)) :
  Quiet v w ∧ (∀ j, r = some j → (w.bitmap j).block = some k) ∧ (v.readonly = false → r.isSome)
  := by
  rw [Volume.bitmapLoad] at hr
  cases hl : v.bitmapLookup k with
  | some j =>
    rw [hl] at hr
    cases hr
    refine ⟨h.quiet, ?_, fun _ => rfl⟩
    rintro i ⟨⟩
    have hblock := List.find?_some hl
    exact eq_of_beq hblock
  | none =>
    have hempty := h.bitmapVictim h4 hk hl
    have hevict : v.bitmapEvict v.bitmapVictim = v := by
      rw [bitmapEvict, h.bitmapEmpty _ hempty, if_neg (by decide)]
    rw [hl, hevict] at hr
    rcases hu : v.readBlock (2 + k) with ⟨r', u⟩
    obtain ⟨hq, hbitmap, hslot, hsome⟩ := h.readBlock hu
    rw [hu] at hr
    cases r' with
    | none =>
      cases hr
      exact ⟨hq, nofun, fun hro => nomatch hsome hro⟩
    | some i =>
      cases hr
      have hlu : u.bitmapLookup k = none := by
        rw [bitmapLookup, hbitmap]
        exact hl
      have hku : k < u.bitmapBlocks := hq.bitmapBlocks ▸ hk
      have hown : ¬ u.Owned (2 + k) := by
        rintro ⟨j, k', hj, heq⟩
        obtain rfl : k = k' := by omega
        exact block_ne_of_bitmapLookup hlu j hj
      have hc := hq.coherent.fill (j := v.bitmapVictim) { u.bitmap v.bitmapVictim with
        block := some k, data := (u.cache i).data } (by rw [hbitmap, hempty]) hku hlu rfl
        (hq.coherent.cache i _ (hslot i rfl) hown)
      refine ⟨⟨hc, hq.written, hq.marked, hq.totalBlocks, hq.readonly⟩, ?_, fun _ => rfl⟩
      rintro j ⟨⟩
      rw [setBitmap_self]

/-- Writing back the bitmap cache. -/
theorem bitmapFlushFrom (js : List (Fin 4)) :
  Quiet v (v.bitmapFlushFrom js).2
  := by
  induction js generalizing v with
  | nil => exact h.quiet
  | cons j js ih =>
    rw [Volume.bitmapFlushFrom]
    split_ifs with hd
    · cases hb : (v.bitmap j).block with
      | none =>
        rw [h.bitmapEmpty j hb] at hd
        cases hd
      | some k =>
        rw [Option.getD_some, writeBlock_eq h.reliable]
        split_ifs
        · exact h.quiet
        have hstored := h.stored (n := 2 + k) (v.bitmap j).data fun ho => absurd ⟨j, k, hb, rfl⟩ ho
        obtain ⟨hk, hholds⟩ := hstored.coherent.bitmap j k hb
        have hc := hstored.coherent.setBitmap { v.bitmap j with dirty := false } hb hb
          (hholds.2 k rfl hk) (fun _ _ => rfl) v.allocHint v.sb.usedBlocks
        exact Quiet.trans ⟨hc, hstored.written, rfl, rfl, rfl⟩ (ih hc)
    · exact ih h

end Coherent

end Volume

end SaltyOS.Fs
