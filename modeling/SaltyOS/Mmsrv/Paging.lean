import SaltyOS.Mmsrv.Exactness

/-!
# The object pages behind a region

Page faults, `fork`, copies between clients, write-back and the write window of another client each
compute the page of the object behind an address.  All of them add `mo_offset`, except for
`map_existing_region_window`: behind a region whose front was cut off, its window shows other pages than
the target reads.
-/

open Function

namespace SaltyOS.Mmsrv

/-! ## The users of a region -/

/-- A user of a region takes `count` of its pages, from `addr` on, for the pages of the object from `page`
on. -/
structure Use where
  addr : ℕ
  page : ℕ
  count : ℕ
  deriving DecidableEq, Repr

/-- The object page behind an address. -/
def Use.pageOf (u : Use) (a : ℕ) : Option ℕ :=
  if u.addr ≤ a ∧ a < u.addr + 4096 * u.count then some (u.page + (a - u.addr) / 4096) else none

/-- The object page that `materialize_region_page` commits and maps. `pagein_backing_page` fills the same
one. -/
def materializeRegionPage (r : MmRegion) (pageAddr : ℕ) : Option Use :=
  if r.moCap = 0 then none
  else some { addr := pageAddr, page := r.moOffset + (pageAddr - r.base) / 4096, count := 1 }

/-- The pages that `MM_FORK_REGIONS` maps into the child. -/
def forkRegion (r : MmRegion) : Option Use :=
  if r.moCap ≠ 0 ∧ r.active = true ∧ 0 < r.length then
    some { addr := r.base, page := r.moOffset, count := r.length / 4096 }
  else none

/-- `INTERNAL_COPY_CHUNK_PAGES`. -/
def internalCopyChunkPages : ℕ := 32

/-- The loop of `copy_between_client_regions`, for one of its two regions. -/
def copyChunks (r : MmRegion) (vaddr numPages : ℕ) : (fuel pageOff : ℕ) → List Use
  | 0, _ => []
  | fuel + 1, pageOff =>
    if pageOff < numPages then
      { addr := vaddr + 4096 * pageOff
        page := r.moOffset + (vaddr - r.base) / 4096 + pageOff
        count := min internalCopyChunkPages (numPages - pageOff) } ::
        copyChunks r vaddr numPages fuel (pageOff + min internalCopyChunkPages (numPages - pageOff))
    else []

/-- The loop of `flush_writeback_region`: the pages that are written to a file. -/
def flushPages (r : MmRegion) (fileSize flushEnd : ℕ) : (fuel pageAddr : ℕ) → List Use
  | 0, _ => []
  | fuel + 1, pageAddr =>
    if pageAddr < flushEnd then
      if r.backingFileOffset + (pageAddr - r.base) / 4096 * 4096 < fileSize then
        { addr := pageAddr, page := r.moOffset + (pageAddr - r.base) / 4096, count := 1 } ::
          flushPages r fileSize flushEnd fuel (pageAddr + 4096)
      else flushPages r fileSize flushEnd fuel (pageAddr + 4096)
    else []

/-- `find_region_by_addr`. -/
def Client.findRegionByAddr (c : Client) (addr : ℕ) : Option MmRegion :=
  c.regions.find? fun r => decide (r.active = true ∧ r.base ≤ addr ∧ addr < (r.base + r.length) % 2 ^ 64)

/-- `map_existing_region_window`. `maps` says whether the kernel maps all pages. -/
def mapExistingRegionWindow (maps : Bool) (c : Client) (targetVaddr numPages : ℕ) : Option Use :=
  if numPages = 0 ∨ 2 ^ 64 ≤ numPages * 4096 ∨
      2 ^ 64 ≤ targetVaddr / 4096 * 4096 + numPages * 4096 then none
  else
    match c.findRegionByAddr (targetVaddr / 4096 * 4096) with
    | none => none
    | some r =>
      if r.moCap = 0 ∨ 2 ^ 64 ≤ r.base + r.length ∨
          r.base + r.length < targetVaddr / 4096 * 4096 + numPages * 4096 ∨ maps = false then none
      else
        some
          { addr := targetVaddr / 4096 * 4096
            page := (targetVaddr / 4096 * 4096 - r.base) / 4096
            count := numPages }

/-! ## Address spaces -/

/-- The object and the page in it behind each page of an address space. -/
abbrev VSpace : Type := ℕ → Option (ℕ × ℕ)

/-- The bytes of the pages of the objects. -/
abbrev Objects : Type := ℕ × ℕ → ℕ → ℕ

/-- The pages of a user appear at an address. -/
def VSpace.mapMo (vs : VSpace) (mo vaddr : ℕ) (u : Use) : VSpace :=
  fun n =>
    if vaddr / 4096 ≤ n ∧ n < vaddr / 4096 + u.count then some (mo, u.page + (n - vaddr / 4096))
    else vs n

/-- The byte at an address. -/
def VSpace.read (vs : VSpace) (objects : Objects) (a : ℕ) : Option ℕ :=
  (vs (a / 4096)).map fun p => objects p (a % 4096)

/-- A byte is written. -/
def VSpace.write (vs : VSpace) (objects : Objects) (a byte : ℕ) : Objects :=
  match vs (a / 4096) with
  | none => objects
  | some p => update objects p (update (objects p) (a % 4096) byte)

/-! ## Agreement -/

/-- The object page behind an address of a region. -/
def MmRegion.backing (r : MmRegion) (a : ℕ) : ℕ := r.moOffset + (a - r.base) / 4096

/-- A user of the region takes the right page, if any, for the one behind an address. -/
def Use.Right (r : MmRegion) (a : ℕ) (u : Use) : Prop :=
  ∀ page, u.pageOf a = some page → page = r.backing a

/-- All users of a region agree on the object page behind one of its pages, and bytes that are written
through a window of another client are those that the target reads there. -/
structure Agree (c : Client) (r : MmRegion) (a : ℕ) : Prop where
  materialised : ∀ u, materializeRegionPage r a = some u → u.pageOf a = some (r.backing a)
  forked : ∀ u, forkRegion r = some u → u.pageOf a = some (r.backing a)
  copied : ∀ vaddr numPages fuel pageOff, r.base ≤ vaddr → vaddr % 4096 = 0 →
    ∀ u ∈ copyChunks r vaddr numPages fuel pageOff, u.Right r a
  writtenBack : ∀ fileSize flushEnd fuel pageAddr, r.base ≤ pageAddr → pageAddr % 4096 = 0 →
    ∀ u ∈ flushPages r fileSize flushEnd fuel pageAddr, u.Right r a
  window : ∀ target numPages u, mapExistingRegionWindow true c target numPages = some u → u.Right r a
  bytes : ∀ target numPages u, mapExistingRegionWindow true c target numPages = some u →
    ∀ page, u.pageOf a = some page →
    ∀ (targetSpace callerSpace : VSpace) (windowVaddr : ℕ) (objects : Objects) (offset byte : ℕ),
      targetSpace (a / 4096) = some (r.moCap, r.backing a) → windowVaddr % 4096 = 0 → offset < 4096 →
      targetSpace.read ((callerSpace.mapMo r.moCap windowVaddr u).write objects
        (windowVaddr + (a - u.addr) + offset) byte) (a + offset) = some byte

section Agreement

variable {c : Client} {r : MmRegion} {a : ℕ}

/-- A user that begins in the region with the right page has the right pages. -/
theorem Use.right_of_backing {u : Use} (hlo : r.base ≤ u.addr) (haligned : u.addr % 4096 = 0)
    (hbase : r.base % 4096 = 0) (hpage : u.page = r.backing u.addr) :
  u.Right r a
  := by
  intro page h
  unfold Use.pageOf at h
  split_ifs at h with hin
  rw [← Option.some.inj h, hpage]
  unfold MmRegion.backing
  omega

theorem copyChunks_right (hr : r.Good) {vaddr numPages : ℕ} (hlo : r.base ≤ vaddr)
    (haligned : vaddr % 4096 = 0) (fuel : ℕ) :
  ∀ pageOff, ∀ u ∈ copyChunks r vaddr numPages fuel pageOff, u.Right r a
  := by
  have hbase := hr.base
  induction fuel with
  | zero => exact nofun
  | succ fuel ih =>
    intro pageOff u hu
    unfold copyChunks at hu
    split_ifs at hu
    · obtain rfl | hu := List.mem_cons.mp hu
      · refine Use.right_of_backing ?_ ?_ hbase ?_
        · dsimp only
          omega
        · dsimp only
          omega
        · unfold MmRegion.backing
          dsimp only
          omega
      · exact ih _ u hu
    · nomatch hu

theorem flushPages_right (hr : r.Good) {fileSize flushEnd : ℕ} (fuel : ℕ) :
  ∀ pageAddr, r.base ≤ pageAddr → pageAddr % 4096 = 0 →
    ∀ u ∈ flushPages r fileSize flushEnd fuel pageAddr, u.Right r a
  := by
  induction fuel with
  | zero => exact nofun
  | succ fuel ih =>
    intro pageAddr hlo haligned u hu
    have hnext := ih (pageAddr + 4096) (by omega) (by omega)
    unfold flushPages at hu
    split_ifs at hu
    · obtain rfl | hu := List.mem_cons.mp hu
      · exact Use.right_of_backing hlo haligned hr.base rfl
      · exact hnext u hu
    · exact hnext u hu
    · nomatch hu

theorem eq_of_covers {r' : MmRegion} (hwf : WellFormed c.regions) (hr : r ∈ c.regions)
    (hr' : r' ∈ c.regions) (ha : r.Covers a) (ha' : r'.Covers a) :
  r = r'
  := by
  by_contra hne
  exact hwf.apart.forall hr hr' hne a ha ha'

theorem findRegionByAddr_some (hwf : WellFormed c.regions) (h : c.findRegionByAddr a = some r) :
  r ∈ c.regions ∧ r.Covers a
  := by
  have hmem := List.mem_of_find?_eq_some h
  have hfound := List.find?_some h
  rw [decide_eq_true_eq] at hfound
  obtain ⟨hactive, hlo, hhi⟩ := hfound
  rw [Nat.mod_eq_of_lt (hwf.good r hmem hactive).stop] at hhi
  exact ⟨hmem, hactive, hlo, hhi⟩

section

variable (hwf : WellFormed c.regions) (hr : r ∈ c.regions) (ha : r.Covers a)
include hwf hr ha

/-- An address of a region is found in it. -/
theorem findRegionByAddr_eq :
  c.findRegionByAddr a = some r
  := by
  have hsome : (c.findRegionByAddr a).isSome = true := by
    refine List.find?_isSome.mpr ⟨r, hr, decide_eq_true ⟨ha.1, ha.2.1, ?_⟩⟩
    rw [Nat.mod_eq_of_lt (hwf.good r hr ha.1).stop]
    exact ha.2.2
  obtain ⟨r', hr'⟩ := Option.isSome_iff_exists.mp hsome
  obtain ⟨hmem, hcovers⟩ := findRegionByAddr_some hwf hr'
  rw [hr', eq_of_covers hwf hr hmem ha hcovers]

/-- The window begins inside the region that has the address, with a page that is computed without
`mo_offset`. -/
theorem mapExistingRegionWindow_spec {target numPages : ℕ} {u : Use}
    (h : mapExistingRegionWindow true c target numPages = some u) {page : ℕ}
    (hpage : u.pageOf a = some page) :
  (r.base ≤ u.addr ∧ u.addr % 4096 = 0) ∧ u.page = (u.addr - r.base) / 4096
  := by
  unfold mapExistingRegionWindow at h
  split_ifs at h
  cases hfind : c.findRegionByAddr (target / 4096 * 4096) with
  | none =>
    rw [hfind] at h
    nomatch h
  | some r' =>
    rw [hfind] at h
    dsimp only at h
    split_ifs at h with hrange
    cases h
    obtain ⟨hmem, hactive, hlo, hhi⟩ := findRegionByAddr_some hwf hfind
    unfold Use.pageOf at hpage
    split_ifs at hpage with hin
    dsimp only at hin
    have hcovers : r'.Covers a := ⟨hactive, by omega, by omega⟩
    rw [eq_of_covers hwf hr hmem ha hcovers]
    exact ⟨⟨hlo, Nat.mul_mod_left ..⟩, rfl⟩

/-- A window on one page. -/
theorem mapExistingRegionWindow_page (haligned : a % 4096 = 0) (hmo : r.moCap ≠ 0) :
  mapExistingRegionWindow true c a 1 = some ⟨a, (a - r.base) / 4096, 1⟩
  := by
  obtain ⟨hbase, hlength, hstop, -, -⟩ := hwf.good r hr ha.1
  have hround : a / 4096 * 4096 = a := by omega
  unfold mapExistingRegionWindow
  rw [hround, findRegionByAddr_eq hwf hr ha]
  obtain ⟨-, hlo, hhi⟩ := ha
  dsimp only
  rw [if_neg (by omega), if_neg]
  rintro (h | h | h | h)
  · exact hmo h
  · omega
  · omega
  · nomatch h

end

/-- What is written through a window can be read behind the same object page. -/
theorem read_write {targetSpace callerSpace : VSpace} {mo windowVaddr offset byte page : ℕ} {u : Use}
    {objects : Objects} (htarget : targetSpace (a / 4096) = some (mo, page))
    (hpage : u.pageOf a = some page) (haligned : a % 4096 = 0) (hu : u.addr % 4096 = 0)
    (hwindow : windowVaddr % 4096 = 0) (hoffset : offset < 4096) :
  targetSpace.read ((callerSpace.mapMo mo windowVaddr u).write objects
    (windowVaddr + (a - u.addr) + offset) byte) (a + offset) = some byte
  := by
  unfold Use.pageOf at hpage
  split_ifs at hpage with hin
  have hread : (a + offset) / 4096 = a / 4096 := by omega
  have hoff : (a + offset) % 4096 = offset := by omega
  have hoff' : (windowVaddr + (a - u.addr) + offset) % 4096 = offset := by omega
  have hmapped : callerSpace.mapMo mo windowVaddr u
      ((windowVaddr + (a - u.addr) + offset) / 4096) = some (mo, page) := by
    unfold VSpace.mapMo
    rw [if_pos (by omega), ← Option.some.inj hpage]
    congr 3
    omega
  unfold VSpace.read VSpace.write
  rw [hmapped, hread, htarget, hoff, hoff']
  dsimp only [Option.map_some]
  rw [update_self, update_self]

/-- The users of a region agree exactly if the object begins with the region. -/
theorem backing_agrees_iff (hwf : WellFormed c.regions) (hr : r ∈ c.regions) (ha : r.Covers a)
    (haligned : a % 4096 = 0) (hmo : r.moCap ≠ 0) :
  Agree c r a ↔ r.moOffset = 0
  := by
  have hgood := hwf.good r hr ha.1
  constructor
  · intro h
    have hwindow := h.window a 1 _ (mapExistingRegionWindow_page hwf hr ha haligned hmo)
    have hpage := hwindow ((a - r.base) / 4096 + (a - a) / 4096) (if_pos (by dsimp only; omega))
    unfold MmRegion.backing at hpage
    omega
  · intro hzero
    have hright : ∀ target numPages u, mapExistingRegionWindow true c target numPages = some u →
        u.Right r a := by
      intro target numPages u hu page hpage
      obtain ⟨⟨hlo, hu⟩, hpage'⟩ := mapExistingRegionWindow_spec hwf hr ha hu hpage
      refine Use.right_of_backing hlo hu hgood.base ?_ page hpage
      rw [hpage', MmRegion.backing, hzero, Nat.zero_add]
    refine ⟨?_, ?_, fun _ _ fuel pageOff hlo halign => copyChunks_right hgood hlo halign fuel pageOff,
      fun _ _ fuel => flushPages_right hgood fuel, hright, ?_⟩
    · intro u hu
      unfold materializeRegionPage at hu
      rw [if_neg hmo] at hu
      cases hu
      apply (if_pos (by dsimp only; omega)).trans
      rw [Nat.sub_self]
      rfl
    · intro u hu
      unfold forkRegion at hu
      obtain ⟨hactive, hlo, hhi⟩ := ha
      have hlength := hgood.length
      rw [if_pos ⟨hmo, hactive, by omega⟩] at hu
      cases hu
      exact if_pos (by dsimp only; omega)
    · intro target numPages u hu page hpage targetSpace callerSpace windowVaddr objects offset byte
        htarget hwindow hoffset
      rw [← hright target numPages u hu page hpage] at htarget
      exact read_write htarget hpage haligned (mapExistingRegionWindow_spec hwf hr ha hu hpage).1.2
        hwindow hoffset

theorem agree_of_threePages :
  Agree (threePages 0) ⟨4096, 12288, 3, true, 7, 0, 0⟩ 8192
  := by
  refine (backing_agrees_iff (threePages_wellFormed 0 (by decide)).2 (List.mem_singleton_self _)
    ⟨rfl, ?_, ?_⟩ ?_ ?_).mpr rfl
  all_goals decide

/-- When the first page of a region is unmapped, the window on its second page shows the page of the
object that was unmapped. -/
theorem window_shows_other_page :
  (removeClientRange (fun _ => true) (threePages 0) 4096 4096 0).1.regions =
      [⟨8192, 8192, 3, true, 7, 1, 4096⟩] ∧
    (materializeRegionPage ⟨8192, 8192, 3, true, 7, 1, 4096⟩ 8192).map Use.page = some 1 ∧
    (mapExistingRegionWindow true (removeClientRange (fun _ => true) (threePages 0) 4096 4096 0).1
      8192 1).map Use.page = some 0 ∧
    ¬ Agree (removeClientRange (fun _ => true) (threePages 0) 4096 4096 0).1
      ⟨8192, 8192, 3, true, 7, 1, 4096⟩ 8192
  := by
  refine ⟨by decide, by decide, by decide, fun h => ?_⟩
  have hpage := h.window 8192 1 ⟨8192, 0, 1⟩ (by decide) 0 (by decide)
  exact absurd hpage (by decide)

end Agreement

end SaltyOS.Mmsrv
