import SaltyOS.Lib.Bytes
import SaltyOS.Lib.Prog
import SaltyOS.Tmpfs.Chains
import SaltyOS.Tmpfs.Mount

/-!
# The contents of files

A file is an array of bytes. Files are created and removed, written and truncated, and whatever
happens to the others, reading a file gives the bytes of its array. This holds in runs in which no
file grows over old bytes that were left in its last block, and truncation makes a file no longer
than its blocks.
-/

namespace SaltyOS.Tmpfs

open Function List MountData

/-! ## Files as arrays -/

/-- What happens to the files of a mount. The memory server gives its answers to each request. -/
inductive FileEvent where
  | create (memory : List Bool)
  | remove (i : ℕ)
  | write (i offset : ℕ) (src : List Byte) (memory : List Bool)
  | truncate (i size : ℕ) (memory : List Bool)

/-- A mount, and for every file the bytes that it should have. -/
structure Shelf where
  mount : MountData
  files : ℕ → Option (List Byte)

namespace MountData

/-- The part of `create_child` for the record of a file. -/
def createFile (md : MountData) : MountData × Option ℕ :=
  match md.allocVdata.2 with
  | none => md.allocVdata
  | some i =>
    (md.allocVdata.1.setVdata i { newVdata with ftype := .reg, nlink := 1 }, some i)

/-- The storage of a file is freed. -/
def removeFile (md : MountData) (i : ℕ) : MountData :=
  match md.vdata[i]? with
  | none => md
  | some vd => md.freeVdataStorage i vd

/-- The bytes that the blocks of a record hold between the end of the file and an offset. -/
def gap (md : MountData) (vd : VnodeData) (offset : ℕ) : List Byte :=
  md.pool.chainRead vd.writableHead vd.size (offset - vd.size)

/-- The number of bytes in the blocks of a record. -/
def blockBytes (md : MountData) (vd : VnodeData) : ℕ :=
  writableSize * md.pool.chainSlotCount vd.writableHead md.pool.cap

end MountData

namespace Shelf

/-- A mount without files. -/
def initial (maxBytes maxInodes : ℕ) : Shelf where
  mount := .init maxBytes maxInodes
  files := fun _ => none

/-- The bytes of a file after a write: those that were written, if the write did not fail. -/
def written (bytes : List Byte) (offset : ℕ) (src : List Byte) (r : Except VfsError ℕ) :
    List Byte :=
  match r with
  | .ok n => bytes.overwrite 0 offset (src.take n)
  | .error _ => bytes

/-- The bytes of a file after a truncation, which may fail. -/
def truncated (bytes : List Byte) (size : ℕ) (r : Except VfsError Unit) : List Byte :=
  match r with
  | .ok _ => bytes.resize 0 size
  | .error _ => bytes

/-- What an event does. An operation on something that is not a file does nothing. -/
def exec (w : Shelf) : FileEvent → Shelf
  | .create memory =>
    { mount := (w.mount.expect memory).createFile.1
      files :=
        match (w.mount.expect memory).createFile.2 with
        | none => w.files
        | some i => update w.files i (some []) }
  | .remove i =>
    match w.files i with
    | none => w
    | some _ =>
      { mount := w.mount.removeFile i
        files := update w.files i none }
  | .write i offset src memory =>
    match w.files i with
    | none => w
    | some bytes =>
      { mount := ((w.mount.expect memory).tmpfsWrite i offset src).1
        files := update w.files i
          (some (written bytes offset src ((w.mount.expect memory).tmpfsWrite i offset src).2)) }
  | .truncate i size memory =>
    match w.files i with
    | none => w
    | some bytes =>
      { mount := ((w.mount.expect memory).tmpfsTruncate i size).1
        files := update w.files i
          (some (truncated bytes size ((w.mount.expect memory).tmpfsTruncate i size).2)) }

/-- What several events do. -/
def execAll (w : Shelf) (events : List FileEvent) : Shelf := events.foldl exec w

/-- A step that meets a condition on the mount and the event. -/
def StepOf (C : MountData → FileEvent → Prop) (w u : Shelf) : Prop :=
  ∃ e, C w.mount e ∧ u = w.exec e

/-- Reading a file gives its bytes, as many as were asked for or as there are. -/
def Readable (w : Shelf) : Prop :=
  ∀ i bytes, w.files i = some bytes → (∃ vd, w.mount.vdata[i]? = some vd ∧ vd.size = bytes.length) ∧
      ∀ offset len, w.mount.tmpfsRead i offset len = .ok ((bytes.drop offset).take len)

end Shelf

/-- The operations that are safe: a file that grows, grows over zeros, a truncation that makes a file
longer stays in the blocks of the file, or in the first one, and a write of no bytes is not past the
end. -/
def GrowsOverZeros (md : MountData) : FileEvent → Prop
  | .write i offset src _ =>
    ∀ vd, md.vdata[i]? = some vd → (∀ x ∈ md.gap vd offset, x = 0) ∧ (src = [] → offset ≤ vd.size)
  | .truncate i size _ =>
    ∀ vd, md.vdata[i]? = some vd → vd.size < size →
      (∀ x ∈ md.gap vd size, x = 0) ∧ size ≤ max writableSize (md.blockBytes vd)
  | _ => True

/-! ## Files and blocks -/

open WritablePool

/-- A file has a record and a chain of blocks that hold its bytes. -/
structure Stored (md : MountData) (i : ℕ) (bytes : List Byte) (L : List ℕ) (vd : VnodeData) :
    Prop where
  record : md.vdata[i]? = some vd
  active : vd.active = true
  reg : vd.ftype = .reg
  valid : md.pool.Valid vd.writableHead L
  size : vd.size = bytes.length
  fits : bytes.length ≤ writableSize * L.length
  holds : ∀ k < bytes.length, md.pool.byte L k = bytes.getD k 0

/-- Every file is stored in its chain of blocks, and no two files share a block. -/
structure Shelf.Laid (w : Shelf) (chain : ℕ → List ℕ) : Prop where
  pool : w.mount.pool.Ok
  stored : ∀ i bytes, w.files i = some bytes → ∃ vd, Stored w.mount i bytes (chain i) vd
  disjoint : ∀ i j bytes bytes', w.files i = some bytes → w.files j = some bytes' → i ≠ j →
    ∀ k ∈ chain i, k ∉ chain j

namespace Stored

variable {md : MountData} {i : ℕ} {bytes : List Byte} {L : List ℕ} {vd : VnodeData}

/-- `tmpfs_read` of a file. -/
theorem read (h : Stored md i bytes L vd) (offset len : ℕ) :
  md.tmpfsRead i offset len = .ok ((bytes.drop offset).take len)
  := by
  unfold tmpfsRead
  rw [h.record]
  dsimp only
  rw [h.reg, if_neg (by decide), h.size, bytes.take_drop_eq_map 0]
  split_ifs with hend
  · rw [Nat.sub_eq_zero_of_le hend, Nat.min_zero]
    rfl
  have hfits := h.fits
  have hcount : min (min len (bytes.length - offset)) (writableSize * L.length - offset) =
      min len (bytes.length - offset) := by omega
  rw [chainRead_spec h.valid, hcount]
  congr 1
  apply map_congr_left
  intro k hk
  have hk := mem_range.mp hk
  apply h.holds
  omega

/-- The answers of the memory server are not part of a file. -/
theorem expect_iff (memory : List Bool) :
  Stored (md.expect memory) i bytes L vd ↔ Stored md i bytes L vd
  := by
  constructor
  · intro h
    exact ⟨h.record, h.active, h.reg, ⟨h.valid.chain, h.valid.lt, h.valid.used⟩, h.size, h.fits,
      h.holds⟩
  · intro h
    exact ⟨h.record, h.active, h.reg, ⟨h.valid.chain, h.valid.lt, h.valid.used⟩, h.size, h.fits,
      h.holds⟩

end Stored

/-- The bytes of a file after an operation on it. The blocks of other files and their records are
unchanged. -/
structure Rewritten (md md' : MountData) (i : ℕ) (L : List ℕ) (bytes : List Byte) (M : List ℕ)
    (vd : VnodeData) : Prop where
  stored : Stored md' i bytes M vd
  frame : Frame md.pool md'.pool L
  fresh : ∀ k ∈ M, k ∉ L → k < md.pool.cap → md.pool.used k = false
  others : ∀ j vd, j ≠ i → md.vdata[j]? = some vd → md'.vdata[j]? = some vd

namespace Rewritten

variable {md md' md'' : MountData} {i : ℕ} {bytes bytes' : List Byte} {L M N : List ℕ}
  {vd vd' : VnodeData}

theorem trans (h : Rewritten md md' i L bytes M vd) (h' : Rewritten md' md'' i M bytes' N vd') :
  Rewritten md md'' i L bytes' N vd'
  := by
  refine ⟨h'.stored, h.frame.trans h'.frame h.fresh, ?_, ?_⟩
  · intro k hk hnot hlt
    by_cases hmem : k ∈ M
    · exact h.fresh k hmem hnot hlt
    by_contra hused
    have hfree := h'.fresh k hk hmem (hlt.trans_le h.frame.cap_le)
    rw [h.frame.used k hlt (by simpa using hused) hnot] at hfree
    cases hfree
  · exact fun j vd hj hvd => h'.others j vd hj (h.others j vd hj hvd)

end Rewritten

namespace Stored

variable {md : MountData} {i : ℕ} {bytes : List Byte} {L : List ℕ} {vd : VnodeData}
variable {offset : ℕ} {md' : MountData} {src : List Byte}

/-- A record is replaced. -/
theorem getElem?_set_self (h : Stored md i bytes L vd) (vd' : VnodeData) :
  (md.vdata.set i vd')[i]? = some vd'
  := List.getElem?_set_self (List.getElem?_eq_some_iff.mp h.record).1

/-- A file has no more bytes than the pool. -/
theorem length_lt (h : Stored md i bytes L vd) (hpool : md.pool.Ok) :
  writableSize * L.length < 2 ^ 46
  := by
  have hlen := h.valid.length_le.trans hpool.le
  unfold invalidSlot at hlen
  unfold writableSize
  omega

/-- The blocks of a file hold zeros from the end of the file up to an offset. -/
def ZeroGap (md : MountData) (L : List ℕ) (size offset : ℕ) : Prop :=
  ∀ k, size ≤ k → k < offset → k < writableSize * L.length → md.pool.byte L k = 0

theorem zeroGap (h : Stored md i bytes L vd) (hgap : ∀ x ∈ md.gap vd offset, x = 0) :
  ZeroGap md L bytes.length offset
  := by
  intro k hle hlt hin
  apply hgap
  unfold gap
  rw [chainRead_spec h.valid, h.size]
  apply mem_map.mpr
  use k - bytes.length, mem_range.mpr (by omega)
  rw [Nat.add_sub_cancel' hle]

/-- Nothing happens to a file. -/
theorem unchanged (h : Stored md i bytes L vd) (hpool : md.pool.Ok) :
  Rewritten md md i L bytes L vd
  := ⟨h, Frame.refl hpool L, fun _ hk hnot _ => absurd hk hnot, fun _ _ _ hvd => hvd⟩

/-- A file gets another size inside its blocks. -/
theorem setSize (h : Stored md i bytes L vd) (hpool : md.pool.Ok) {size usedBytes : ℕ}
    (hfits : size ≤ writableSize * L.length)
    (hholds : ∀ k < size, md.pool.byte L k = bytes.getD k 0) :
  Rewritten md { md.setVdata i { vd with size } with usedBytes } i L (bytes.resize 0 size) L
    { vd with size }
  := by
  refine ⟨⟨h.getElem?_set_self _, h.active, h.reg, h.valid, length_resize.symm, ?_, ?_⟩,
    Frame.refl hpool L, fun _ hk hnot _ => absurd hk hnot, fun j _ hj hvd => ?_⟩
  · exact length_resize.le.trans hfits
  · intro k hk
    rw [length_resize] at hk
    exact (hholds k hk).trans (getD_resize hk).symm
  · exact (List.getElem?_set_ne hj.symm).trans hvd

/-- A file gets its first block, unless it has one. -/
theorem ensureHead (h : Stored md i bytes L vd) (hpool : md.pool.Ok) :
  ∃ M vd', Rewritten md (md.ensureHead i vd).1 i L bytes M vd' ∧
    (∀ size offset, ZeroGap md L size offset → ZeroGap (md.ensureHead i vd).1 M size offset) ∧
    ∀ vd'', (md.ensureHead i vd).2 = some vd'' →
      vd'' = vd' ∧ vd'.writableHead ≠ invalidSlot ∧ vd'.size = vd.size ∧ M.length = max 1 L.length
  := by
  unfold MountData.ensureHead
  split_ifs with hhead
  · obtain rfl := h.valid.nil_iff.mp hhead
    have hzero : bytes.length = 0 := Nat.le_zero.mp h.fits
    obtain ⟨hframe, hnew⟩ := allocWritable_spec hpool
    cases halloc : md.pool.allocWritable.2 with
    | none =>
      refine ⟨[], vd, ⟨⟨h.record, h.active, h.reg, ?_, h.size, h.fits, ?_⟩, hframe, ?_, ?_⟩, ?_, ?_⟩
      · exact (h.valid.of_frame hframe fun _ _ => not_mem_nil).1
      · intro k hk
        omega
      · exact nofun
      · exact fun _ _ _ hvd => hvd
      · intro size offset _ k _ _ hk
        cases hk
      · exact nofun
    | some slot =>
      have hslot := hnew slot halloc
      have hvalid : md.pool.allocWritable.1.Valid slot [slot] := by
        refine ⟨⟨rfl, Nat.ne_of_lt (hslot.lt.trans_le hframe.ok.le), hslot.next⟩, ?_, ?_⟩
        · intro k hk
          rw [mem_singleton.mp hk]
          exact hslot.lt
        · intro k hk
          rw [mem_singleton.mp hk]
          exact hslot.used
      refine ⟨[slot], { vd with writableHead := slot },
        ⟨⟨h.getElem?_set_self _, h.active, h.reg, hvalid, h.size, ?_, ?_⟩, hframe, ?_, ?_⟩, ?_, ?_⟩
      · omega
      · intro k hk
        omega
      · intro k hk _ hlt
        rw [mem_singleton.mp hk] at hlt ⊢
        exact hslot.free hlt
      · exact fun j _ hj hvd => (List.getElem?_set_ne hj.symm).trans hvd
      · intro size offset _ k _ _ hk
        have hblock : k / writableSize = 0 := Nat.div_eq_of_lt (by simpa using hk)
        unfold byte
        rw [hblock]
        change md.pool.allocWritable.1.data slot _ = 0
        rw [hslot.data]
      · intro vd'' hvd
        cases hvd
        exact ⟨rfl, Nat.ne_of_lt (hslot.lt.trans_le hframe.ok.le), rfl, rfl⟩
  · refine ⟨L, vd, h.unchanged hpool, fun _ _ hgap => hgap, ?_⟩
    intro vd'' hvd
    cases hvd
    have hpos := length_pos_iff.mpr (h.valid.ne_nil hhead)
    exact ⟨rfl, hhead, rfl, by omega⟩

/-- The bytes of a file after some were written to its blocks. -/
theorem write_bytes {M : List ℕ} {vd' : VnodeData} (h : Stored md i bytes L vd)
    (hextends : Extends md.pool vd.writableHead L md'.pool M)
    (hholds : md.pool.Holds L md'.pool M (patch offset src)) (hsrc : src ≠ [])
    (hfits : offset + src.length ≤ writableSize * M.length)
    (hgap : ZeroGap md L bytes.length offset) (hrecord : md'.vdata[i]? = some vd')
    (hvd : vd' = { vd with size := max bytes.length (offset + src.length) }) :
  Stored md' i (bytes.overwrite 0 offset src) M vd'
  := by
  have hlen : (bytes.overwrite 0 offset src).length = max bytes.length (offset + src.length) :=
    length_overwrite hsrc
  have hold := h.fits
  have hle := Nat.mul_le_mul_left writableSize hextends.length_le
  subst hvd
  use hrecord, h.active, h.reg, hextends.valid, hlen.symm, by omega
  intro k hk
  rw [getD_overwrite hsrc, hholds k (by omega)]
  unfold patch
  by_cases hin : offset ≤ k ∧ k < offset + src.length
  · have hlt : k - offset < src.length := by omega
    rw [if_pos hin, if_pos hin.1, List.getElem?_eq_getElem hlt, getD_eq_getElem _ _ hlt]
    rfl
  rw [if_neg hin]
  have hnone : (if offset ≤ k then src[k - offset]? else none) = none := by
    split_ifs with hoffset
    · apply List.getElem?_eq_none
      omega
    · rfl
  rw [hnone, Option.getD_none]
  by_cases hbytes : k < bytes.length
  · rw [if_pos (by omega)]
    exact h.holds k hbytes
  rw [getD_eq_default _ _ (by omega)]
  split_ifs with hblock
  · exact hgap k (by omega) (by omega) hblock
  · rfl

section

variable (h : Stored md i bytes L vd)
include h

/-- `tmpfs_write` to a file that has a block. -/
theorem writeChain (hpool : md.pool.Ok) (hhead : vd.writableHead ≠ invalidSlot)
    (hgap : ZeroGap md L bytes.length offset) (hempty : src = [] → offset ≤ bytes.length) :
  ∃ M vd', Rewritten md (md.writeChain i vd offset src).1 i L
    (Shelf.written bytes offset src (md.writeChain i vd offset src).2) M vd'
  := by
  have hold := h.fits
  by_cases hsrc : src = []
  · obtain rfl := hsrc
    have hnothing : md.pool.chainWrite vd.writableHead offset [] = (md.pool, 0) := if_pos (.inr rfl)
    have hlt : ¬vd.size < (offset + 0) % 2 ^ 64 := by
      have hle := hempty rfl
      rw [h.size]
      omega
    unfold MountData.writeChain
    rw [hnothing, if_neg (fun hne => hne.2 rfl), if_neg hlt]
    exact ⟨L, vd, h.unchanged hpool⟩
  · obtain ⟨M, hM, hholds, hcount, hfits⟩ := chainWrite_spec hpool h.valid hhead offset hsrc
    have hlimit : writableSize * M.length < 2 ^ 46 := by
      have hle := hM.valid.length_le.trans hM.frame.ok.le
      unfold invalidSlot at hle
      unfold writableSize
      omega
    unfold MountData.writeChain
    generalize md.pool.chainWrite vd.writableHead offset src = r at *
    by_cases hfail : r.2 = 0 ∧ src ≠ []
    · -- Some blocks may have been added, and the bytes are the same.
      rw [if_pos hfail]
      refine ⟨M, vd, ⟨h.record, h.active, h.reg, hM.valid, h.size, ?_, ?_⟩, hM.frame, hM.fresh, ?_⟩
      · exact hold.trans (Nat.mul_le_mul_left _ hM.length_le)
      · intro k hk
        change k < bytes.length at hk
        have hle := Nat.mul_le_mul_left writableSize hM.length_le
        rw [hfail.1, take_zero, patch_nil] at hholds
        apply (hholds k (by omega)).trans
        rw [Option.getD_none, if_pos (by omega)]
        exact h.holds k hk
      · exact fun _ _ _ hvd => hvd
    · have hpos : 0 < r.2 := Nat.pos_of_ne_zero fun hzero => hfail ⟨hzero, hsrc⟩
      have htake : (src.take r.2).length = r.2 := length_take_of_le hcount
      have hne : src.take r.2 ≠ [] := fun hnil => by
        rw [hnil] at htake
        exact absurd htake.symm (Nat.ne_of_gt hpos)
      have hmod : (offset + r.2) % 2 ^ 64 = offset + r.2 :=
        Nat.mod_eq_of_lt ((hfits hpos).trans_lt (hlimit.trans (by decide)))
      have hroom : offset + (src.take r.2).length ≤ writableSize * M.length := by
        rw [htake]
        exact hfits hpos
      rw [if_neg hfail, hmod, h.size]
      split_ifs with hgrow
      · refine ⟨M, { vd with size := offset + r.2 }, ?_, hM.frame, hM.fresh, ?_⟩
        · apply h.write_bytes hM hholds hne hroom hgap
          · exact h.getElem?_set_self _
          · rw [htake, Nat.max_eq_right hgrow.le]
        · exact fun j _ hj hvd => (List.getElem?_set_ne hj.symm).trans hvd
      · refine ⟨M, vd, ?_, hM.frame, hM.fresh, fun _ _ _ hvd => hvd⟩
        have hsame : vd = { vd with size := max bytes.length (offset + (src.take r.2).length) } := by
          rw [htake, Nat.max_eq_left (Nat.le_of_not_lt hgrow), ← h.size]
        exact h.write_bytes hM hholds hne hroom hgap h.record hsame

/-- `tmpfs_write` to a file. -/
theorem tmpfsWrite (hpool : md.pool.Ok) (hgap : ZeroGap md L bytes.length offset)
    (hempty : src = [] → offset ≤ bytes.length) :
  ∃ M vd', Rewritten md (md.tmpfsWrite i offset src).1 i L
    (Shelf.written bytes offset src (md.tmpfsWrite i offset src).2) M vd'
  := by
  unfold MountData.tmpfsWrite
  rw [h.record]
  dsimp only
  split
  · exact ⟨L, vd, h.unchanged hpool⟩
  split
  · exact ⟨L, vd, h.unchanged hpool⟩
  obtain ⟨M, vd', hhead, hzero, hresult⟩ := h.ensureHead hpool
  rcases hensure : (md.ensureHead i vd).2 with _ | vd''
  · exact ⟨M, vd', hhead⟩
  obtain ⟨rfl, hvalid, -, -⟩ := hresult vd'' hensure
  obtain ⟨N, vdN, hwrite⟩ := hhead.stored.writeChain hhead.frame.ok hvalid (hzero _ _ hgap) hempty
  exact ⟨N, vdN, hhead.trans hwrite⟩

/-- `tmpfs_truncate` of a file. -/
theorem tmpfsTruncate (hpool : md.pool.Ok) {size : ℕ}
    (hgap : vd.size < size → ZeroGap md L bytes.length size)
    (hfits : vd.size < size → size ≤ writableSize * max 1 L.length) :
  ∃ M vd', Rewritten md (md.tmpfsTruncate i size).1 i L
    (Shelf.truncated bytes size (md.tmpfsTruncate i size).2) M vd'
  := by
  have hlimit := h.length_lt hpool
  have hold := h.fits
  unfold MountData.tmpfsTruncate
  rw [h.record]
  dsimp only
  split
  next hshrink =>
    rw [h.size] at hshrink
    obtain ⟨hkpos, hkle, hkge⟩ := le_keepSlots (by omega : size ≤ 2 ^ 63)
    have hhead : vd.writableHead ≠ invalidSlot := by
      intro hnone
      rw [h.valid.nil_iff.mp hnone, length_nil] at hold
      omega
    have hlong : keepSlots size ≤ L.length := by
      by_contra hshort
      have hmul := Nat.mul_le_mul_left writableSize (by omega : L.length ≤ keepSlots size - 1)
      omega
    obtain ⟨hframe, hvalid, hbytes⟩ := chainTruncate_spec hpool h.valid hhead
      (by omega : size ≤ 2 ^ 63) hlong
    refine ⟨L.take (keepSlots size), { vd with size },
      ⟨h.getElem?_set_self _, h.active, h.reg, hvalid, ?_, ?_, ?_⟩, hframe, ?_, ?_⟩
    · exact length_resize.symm
    · change (bytes.resize 0 size).length ≤ _
      rw [length_resize, length_take_of_le hlong]
      exact hkle
    · intro k hk
      change k < (bytes.resize 0 size).length at hk
      rw [length_resize] at hk
      apply (hbytes k hk).trans
      apply (h.holds k (by omega)).trans
      exact (getD_resize hk).symm
    · exact fun k hk hnot _ => absurd (mem_of_mem_take hk) hnot
    · exact fun j _ hj hvd => (List.getElem?_set_ne hj.symm).trans hvd
  · split
    next hgrow =>
      split
      · exact ⟨L, vd, h.unchanged hpool⟩
      obtain ⟨M, vd', hhead, hzero, hresult⟩ := h.ensureHead hpool
      rcases hensure : (md.ensureHead i vd).2 with _ | vd''
      · exact ⟨M, vd', hhead⟩
      obtain ⟨rfl, hvalid, -, hlen⟩ := hresult vd'' hensure
      have hzero' := hzero _ _ (hgap hgrow)
      have hroom := hfits hgrow
      rw [← hlen] at hroom
      refine ⟨M, _, hhead.trans (hhead.stored.setSize hhead.frame.ok hroom ?_)⟩
      intro k hk
      by_cases hbytes : k < bytes.length
      · exact hhead.stored.holds k hbytes
      · rw [getD_eq_default _ _ (by omega)]
        exact hzero' k (by omega) hk (by omega)
    next hshrink hgrow =>
      have heq : size = bytes.length := by
        rw [h.size] at hshrink hgrow
        omega
      subst heq
      exact ⟨L, _, h.setSize hpool hold h.holds⟩

/-- A file whose record and blocks are unchanged. -/
theorem of_frame {M : List ℕ} (hframe : Frame md.pool md'.pool M) (hdisjoint : ∀ k ∈ L, k ∉ M)
    (hrecord : md'.vdata[i]? = some vd) :
  Stored md' i bytes L vd
  := by
  obtain ⟨hvalid, hdata⟩ := h.valid.of_frame hframe hdisjoint
  use hrecord, h.active, h.reg, hvalid, h.size, h.fits
  intro k hk
  rw [byte_congr hdata (hk.trans_le h.fits)]
  exact h.holds k hk

/-- The condition on truncation, for the blocks of a file. -/
theorem le_of_blockBytes {size : ℕ} (hsize : size ≤ max writableSize (md.blockBytes vd)) :
  size ≤ writableSize * max 1 L.length
  := by
  unfold blockBytes at hsize
  rw [chainSlotCount_spec h.valid h.valid.length_le] at hsize
  apply hsize.trans
  apply max_le
  · exact Nat.le_mul_of_pos_right _ (Nat.one_pos.trans_le (Nat.le_max_left _ _))
  · exact Nat.mul_le_mul_left _ (Nat.le_max_right _ _)

end

end Stored

/-- `alloc_vdata` gives a record that was not in use and keeps the others. -/
theorem MountData.allocVdata_spec {md : MountData} (hpool : md.pool.Ok) :
  Frame md.pool md.allocVdata.1.pool [] ∧ (md.allocVdata.2 = none → md.allocVdata.1.vdata = md.vdata) ∧
    ∀ i, md.allocVdata.2 = some i →
      (∀ vd, md.vdata[i]? = some vd → vd.active = false) ∧ i < md.allocVdata.1.vdata.length ∧
        ∀ j vd, j ≠ i → md.vdata[j]? = some vd → md.allocVdata.1.vdata[j]? = some vd
  := by
  have hanswered : Frame md.pool md.pool.answered [] :=
    ⟨⟨hpool.pos, hpool.le⟩, le_rfl, fun _ _ hused _ => hused, fun _ _ _ _ => rfl, fun _ _ _ _ => rfl⟩
  unfold allocVdata
  cases hfind : md.vdata.findIdx? fun vd => !vd.active with
  | some i =>
    obtain ⟨hlt, hinactive, -⟩ := findIdx?_eq_some_iff_getElem.mp hfind
    use Frame.refl hpool [], nofun
    intro i' hi'
    cases hi'
    refine ⟨?_, ?_, ?_⟩
    · intro vd hvd
      obtain ⟨_, rfl⟩ := List.getElem?_eq_some_iff.mp hvd
      simpa using hinactive
    · change i < (md.vdata.set i newVdata).length
      rwa [length_set]
    · exact fun j vd hj hvd => (List.getElem?_set_ne hj.symm).trans hvd
  | none =>
    split_ifs with hempty hgranted
    · exact ⟨Frame.refl hpool [], fun _ => rfl, nofun⟩
    · exact ⟨hanswered, fun _ => rfl, nofun⟩
    have hpos : 0 < md.vdata.length := length_pos_iff.mpr hempty
    have hgrows := growth_pos hpos
    use hanswered, nofun
    intro i hi
    cases hi
    refine ⟨?_, ?_, ?_⟩
    · intro vd hvd
      obtain ⟨hlt, -⟩ := List.getElem?_eq_some_iff.mp hvd
      exact absurd hlt (Nat.lt_irrefl _)
    · simp only [setVdata, length_set, length_append, length_replicate]
      omega
    · intro j vd hj hvd
      obtain ⟨hlt, -⟩ := List.getElem?_eq_some_iff.mp hvd
      refine (List.getElem?_set_ne hj.symm).trans ?_
      rw [List.getElem?_append_left hlt]
      exact hvd

/-! ## Runs -/

namespace Shelf

variable {w u : Shelf} {chain : ℕ → List ℕ}

theorem laid_initial (maxBytes maxInodes : ℕ) :
  (initial maxBytes maxInodes).Laid fun _ => []
  := by
  exact ⟨ok_init, nofun, nofun⟩

namespace Laid

variable {md : MountData} {i : ℕ} {bytes : List Byte}

section

variable (h : w.Laid chain)
include h

theorem expect (memory : List Bool) :
  Laid ⟨w.mount.expect memory, w.files⟩ chain
  := by
  refine ⟨⟨h.pool.pos, h.pool.le⟩, ?_, h.disjoint⟩
  intro i bytes hfile
  obtain ⟨vd, hi⟩ := h.stored i bytes hfile
  exact ⟨vd, (Stored.expect_iff memory).mpr hi⟩

/-- Some files are removed, and the blocks that change are not those of other files. -/
theorem of_frame {L : List ℕ} {files : ℕ → Option (List Byte)} (hframe : Frame w.mount.pool md.pool L)
    (hfiles : ∀ i bytes, files i = some bytes → w.files i = some bytes ∧
      (∀ vd, w.mount.vdata[i]? = some vd → md.vdata[i]? = some vd) ∧ ∀ k ∈ chain i, k ∉ L) :
  Laid ⟨md, files⟩ chain
  := by
  refine ⟨hframe.ok, ?_, ?_⟩
  · intro i bytes hfile
    obtain ⟨hold, hrecord, hnot⟩ := hfiles i bytes hfile
    obtain ⟨vd, hi⟩ := h.stored i bytes hold
    exact ⟨vd, hi.of_frame hframe hnot (hrecord vd hi.record)⟩
  · intro i j bytes bytes' hi hj
    exact h.disjoint i j _ _ (hfiles i bytes hi).1 (hfiles j bytes' hj).1

/-- One file gets new bytes. Its blocks were free before, or were those of no other file. -/
theorem put {L M : List ℕ} {vd : VnodeData}
    (hL : ∀ j bytes, j ≠ i → w.files j = some bytes → ∀ k ∈ chain j, k ∉ L)
    (hM : Rewritten w.mount md i L bytes M vd) :
  Laid ⟨md, update w.files i (some bytes)⟩ (update chain i M)
  := by
  have hother : ∀ j bytes, j ≠ i → w.files j = some bytes → ∀ k ∈ chain j, k ∉ M := by
    intro j bytes hj hfile k hk hmem
    obtain ⟨vd, hstored⟩ := h.stored j bytes hfile
    have hfree := hM.fresh k hmem (hL j bytes hj hfile k hk) (hstored.valid.lt k hk)
    rw [hstored.valid.used k hk] at hfree
    cases hfree
  refine ⟨hM.frame.ok, ?_, ?_⟩
  · intro j bytes' hfile
    change update w.files i (some bytes) j = _ at hfile
    by_cases hj : j = i
    · subst hj
      rw [update_self] at hfile ⊢
      cases hfile
      exact ⟨vd, hM.stored⟩
    · rw [update_of_ne hj] at hfile ⊢
      obtain ⟨vd', hstored⟩ := h.stored j bytes' hfile
      exact ⟨vd', hstored.of_frame hM.frame (hL j bytes' hj hfile) (hM.others j vd' hj hstored.record)⟩
  · intro j j' bytes₁ bytes₂ hfile hfile' hne k hk
    change update w.files i (some bytes) j = _ at hfile
    change update w.files i (some bytes) j' = _ at hfile'
    by_cases hj : j = i
    · subst hj
      rw [update_of_ne hne.symm] at hfile' ⊢
      rw [update_self] at hk
      exact fun hk' => hother j' bytes₂ hne.symm hfile' k hk' hk
    rw [update_of_ne hj] at hfile hk
    by_cases hj' : j' = i
    · subst hj'
      rw [update_self]
      exact hother j bytes₁ hj hfile k hk
    · rw [update_of_ne hj'] at hfile' ⊢
      exact h.disjoint j j' _ _ hfile hfile' hne k hk

/-- One file is rewritten. -/
theorem rewrite {bytes' : List Byte} (hfile : w.files i = some bytes)
    (hnew : ∀ vd, Stored w.mount i bytes (chain i) vd →
      ∃ M vd', Rewritten w.mount md i (chain i) bytes' M vd') :
  ∃ chain', Laid ⟨md, update w.files i (some bytes')⟩ chain'
  := by
  obtain ⟨vd, hi⟩ := h.stored i bytes hfile
  obtain ⟨M, vd', hM⟩ := hnew vd hi
  refine ⟨update chain i M, h.put ?_ hM⟩
  exact fun j bytes₂ hj hfile₂ => h.disjoint j i _ _ hfile₂ hfile hj

/-- A file is removed. -/
theorem remove (hfile : w.files i = some bytes) :
  Laid ⟨w.mount.removeFile i, update w.files i none⟩ chain
  := by
  obtain ⟨vd, hi⟩ := h.stored i bytes hfile
  have hreg : vd.ftype ≠ .lnk := by
    rw [hi.reg]
    decide
  obtain ⟨hframe, hrecords⟩ : Frame w.mount.pool (w.mount.removeFile i).pool (chain i) ∧
      ∀ j, j ≠ i → (w.mount.removeFile i).vdata[j]? = w.mount.vdata[j]? := by
    unfold removeFile freeVdataStorage
    rw [hi.record]
    dsimp only
    rw [if_neg hreg]
    exact ⟨freeChain_spec h.pool hi.valid, fun j hj => List.getElem?_set_ne hj.symm⟩
  apply h.of_frame hframe
  intro j bytes' hfile'
  have hj : j ≠ i := by
    rintro rfl
    rw [update_self] at hfile'
    cases hfile'
  rw [update_of_ne hj] at hfile'
  use hfile', fun vd' hvd' => (hrecords j hj).trans hvd'
  exact h.disjoint j i _ _ hfile' hfile hj

/-- A file is created: its record was not that of a file, and it has no blocks. -/
theorem create :
  ∃ chain', Laid ⟨w.mount.createFile.1,
    match w.mount.createFile.2 with
    | none => w.files
    | some i => update w.files i (some [])⟩ chain'
  := by
  obtain ⟨hframe, hnone, hsome⟩ := allocVdata_spec h.pool
  unfold createFile
  cases halloc : w.mount.allocVdata.2 with
  | none =>
    rw [halloc]
    refine ⟨chain, h.of_frame hframe ?_⟩
    intro i bytes hfile
    refine ⟨hfile, fun vd hvd => ?_, fun _ _ => not_mem_nil⟩
    rw [hnone halloc]
    exact hvd
  | some i =>
    obtain ⟨-, hlt, hothers⟩ := hsome i halloc
    have hstored : Stored (w.mount.allocVdata.1.setVdata i
        { newVdata with ftype := .reg, nlink := 1 }) i [] []
        { newVdata with ftype := .reg, nlink := 1 } := by
      refine ⟨List.getElem?_set_self hlt, rfl, rfl, Valid.nil _, rfl, Nat.le_refl 0, ?_⟩
      intro k hk
      cases hk
    refine ⟨update chain i [], h.put (L := []) ?_ ⟨hstored, hframe, ?_, ?_⟩⟩
    · exact fun _ _ _ _ _ _ => not_mem_nil
    · intro k hk
      cases hk
    · exact fun j vd hj hvd => (List.getElem?_set_ne hj.symm).trans (hothers j vd hj hvd)

/-- What a safe event does to the files. -/
theorem exec {e : FileEvent} (he : GrowsOverZeros w.mount e) :
  ∃ chain', (w.exec e).Laid chain'
  := by
  cases e with
  | create memory => exact (h.expect memory).create
  | remove i =>
    dsimp only [Shelf.exec]
    cases hfile : w.files i with
    | none => exact ⟨chain, h⟩
    | some bytes => exact ⟨chain, h.remove hfile⟩
  | write i offset src memory =>
    dsimp only [Shelf.exec]
    rcases hfile : w.files i with _ | bytes
    · exact ⟨chain, h⟩
    apply (h.expect memory).rewrite hfile
    intro vd hi
    have hold := (Stored.expect_iff memory).mp hi
    obtain ⟨hgap, hempty⟩ := he vd hold.record
    apply hi.tmpfsWrite (h.expect memory).pool (hold.zeroGap hgap)
    rw [← hi.size]
    exact hempty
  | truncate i size memory =>
    dsimp only [Shelf.exec]
    rcases hfile : w.files i with _ | bytes
    · exact ⟨chain, h⟩
    apply (h.expect memory).rewrite hfile
    intro vd hi
    have hold := (Stored.expect_iff memory).mp hi
    apply hi.tmpfsTruncate (h.expect memory).pool
    · exact fun hgrow => hold.zeroGap (he vd hold.record hgrow).1
    · exact fun hgrow => hold.le_of_blockBytes (he vd hold.record hgrow).2

/-- Files that are stored can be read. -/
theorem readable :
  w.Readable
  := by
  intro i bytes hfile
  obtain ⟨vd, hi⟩ := h.stored i bytes hfile
  exact ⟨⟨vd, hi.record, hi.size⟩, hi.read⟩

end

end Laid

end Shelf

end SaltyOS.Tmpfs
