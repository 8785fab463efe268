import Mathlib.Algebra.Group.Nat.Defs
import SaltyOS.Lib.Prog

/-!
# Inode numbers of SaltyFS

The inode items in the B-tree and `NEXT_INO`, the number that the next file, directory, symbolic link
or hidden inode is given. When a volume is mounted, `discover_max_inode` follows the numbers that are
in use from the root on and stops at the first gap. If the numbers in use have no gap when a volume is
mounted, no number in use is given again. Otherwise the numbers after the gap are given once more.

Of the B-tree only the inode items are modelled. What a request finds elsewhere in the tree, and how
its writes end, is part of the request.
-/

namespace SaltyOS.Fs.Inodes

/-! ## The model -/

/-- The inode items in the tree at hand and in the tree that the superblock on the disk names,
`NEXT_INO`, and the root. -/
structure Volume where
  inodes : List ℕ
  onDisk : List ℕ
  nextIno : ℕ
  rootInode : ℕ
  deriving DecidableEq

/-- How a change of the B-tree ends: it is not made, it is made but the superblock is not written, or
it is made and written. Only then the caller is told that it has succeeded. -/
inductive Write where
  | failed
  | unwritten
  | made
  deriving DecidableEq

/-- How `dir_entry_insert_with_ref` ends. -/
inductive DirEntryTxn where
  | ok
  | failedClean
  | failedDirty
  deriving DecidableEq

namespace Volume

/-- A change of the inode items. -/
def change (v : Volume) (w : Write) (f : List ℕ → List ℕ) : Volume :=
  match w with
  | .failed => v
  | .unwritten => { v with inodes := f v.inodes }
  | .made => { v with inodes := f v.inodes, onDisk := f v.inodes }

/-- `btree_cow_delete` of an inode item. -/
def deleteInode (v : Volume) (item : ℕ × Write) : Volume :=
  v.change item.2 fun l => l.filter (· != item.1)

/-- What the requests that make an inode have in common: `NEXT_INO` is taken and an item inserted,
which is deleted again if `undo` says so. -/
def newInode (v : Volume) (inserted : Write) (undo : Option Write) : Volume :=
  let v' := { v with nextIno := (v.nextIno + 1) % 2 ^ 64 }.change inserted (v.nextIno :: ·)
  match inserted, undo with
  | .made, some w => v'.deleteInode (v.nextIno, w)
  | _, _ => v'

/-- The loop of `discover_max_inode`: the last number before the first gap. -/
def lastBeforeGap (l : List ℕ) : (fuel maxIno : ℕ) → ℕ
  | 0, maxIno => maxIno
  | fuel + 1, maxIno =>
    let nextIno := min (maxIno + 1) (2 ^ 64 - 1)
    if nextIno ∈ l then lastBeforeGap l fuel nextIno else maxIno

/-- `discover_max_inode`. The loop passes the largest number in use at most once. -/
def discoverMaxInode (v : Volume) : Volume :=
  { v with
    nextIno := min (lastBeforeGap v.inodes (v.inodes.foldr max 0) v.rootInode + 1) (2 ^ 64 - 1) }

/-- A new volume with its root, mounted. -/
def fresh (rootInode : ℕ) : Volume :=
  { inodes := [rootInode], onDisk := [rootInode], nextIno := 0, rootInode : Volume }.discoverMaxInode

end Volume

/-- A request that is not refused at once, with how its writes end. An item of `deleted` is the inode
item of a file that loses its last name or of a hidden inode that loses its attribute. -/
inductive Request where
  | create (inserted : Write) (entry : DirEntryTxn) (undo : Write)
  | mkdir (inserted : Write) (entry : DirEntryTxn) (undo : Write)
  | symlink (inserted : Write) (extent : Bool) (entry : DirEntryTxn) (undo : Write)
  | setxattrIndirect (inserted : Write) (value committed : Bool) (undo : Write)
    (deleted : List (ℕ × Write))
  | setxattrInline (deleted : List (ℕ × Write))
  | unlink (deleted : List (ℕ × Write))
  | rmdir (deleted : ℕ × Write)
  | rename (deleted : List (ℕ × Write))
  | remount
  deriving DecidableEq

namespace Request

/-- An inode item that has no name yet is deleted again after a clean failure. -/
def undoOf (entry : DirEntryTxn) (undo : Write) : Option Write :=
  if entry = .failedClean then some undo else none

/-- The effect of a request on the inode items. -/
def exec (v : Volume) : Request → Volume
  | create inserted entry undo => v.newInode inserted (undoOf entry undo)
  | mkdir inserted entry undo => v.newInode inserted (undoOf entry undo)
  | symlink inserted extent entry undo =>
    v.newInode inserted (if extent then undoOf entry undo else none)
  | setxattrIndirect inserted value committed undo deleted =>
    let v' := v.newInode inserted (if value && committed then none else some undo)
    if inserted = .made ∧ value ∧ committed then
      (deleted.filter fun item => item.1 != v.nextIno).foldl Volume.deleteInode v'
    else v'
  | setxattrInline deleted => deleted.foldl Volume.deleteInode v
  | unlink deleted => deleted.foldl Volume.deleteInode v
  | rmdir deleted => v.deleteInode deleted
  | rename deleted => deleted.foldl Volume.deleteInode v
  | remount => { v with inodes := v.onDisk }.discoverMaxInode

/-- The request takes a number. -/
def makesInode : Request → Prop
  | create .. | mkdir .. | symlink .. | setxattrIndirect .. => True
  | _ => False

/-- The numbers have not run out when one is taken, and when the volume is mounted, the numbers from
the root to any number in use are all in use. -/
def Careful (r : Request) (v : Volume) : Prop :=
  (r.makesInode → v.nextIno + 1 < 2 ^ 64) ∧
    (r = .remount → ∀ i ∈ v.onDisk, ∀ j, v.rootInode < j → j ≤ i → j ∈ v.onDisk)

end Request

/-- A request, after which the superblock may have been written by the changes of other items. -/
def VolumeStep (cond : Request → Volume → Prop) (v v' : Volume) : Prop :=
  ∃ r, cond r v ∧ (v' = r.exec v ∨ v' = { r.exec v with onDisk := (r.exec v).inodes })

/-! ## Numbers in use -/

/-- All numbers in use are below the next one. -/
structure Volume.Ahead (v : Volume) : Prop where
  inodes : ∀ i ∈ v.inodes, i < v.nextIno
  onDisk : ∀ i ∈ v.onDisk, i < v.nextIno
  root : v.rootInode < v.nextIno
  bound : v.nextIno < 2 ^ 64

namespace Volume

variable {v : Volume}

/-- The loop stops at a gap, unless it has passed all numbers. -/
theorem lastBeforeGap_spec {l : List ℕ} (hl : ∀ i ∈ l, i < 2 ^ 64 - 1) (fuel m : ℕ)
    (hm : m < 2 ^ 64 - 1) (hfuel : ∀ i ∈ l, i ≤ m + fuel) :
  m ≤ lastBeforeGap l fuel m ∧ lastBeforeGap l fuel m < 2 ^ 64 - 1 ∧ lastBeforeGap l fuel m + 1 ∉ l
  := by
  induction fuel generalizing m with
  | zero =>
    use Nat.le_refl m, hm
    intro hmem
    have hle := hfuel _ hmem
    simp only [lastBeforeGap] at hle
    omega
  | succ fuel ih =>
    have hnext : min (m + 1) (2 ^ 64 - 1) = m + 1 := by omega
    unfold lastBeforeGap
    dsimp only
    rw [hnext]
    split_ifs with hmem
    · obtain ⟨hle, hlt, hgap⟩ := ih (m + 1) (hl _ hmem) fun i hi => by have := hfuel i hi; omega
      exact ⟨by omega, hlt, hgap⟩
    · exact ⟨Nat.le_refl m, hm, by assumption⟩

theorem le_foldr_max (l : List ℕ) :
  ∀ i ∈ l, i ≤ l.foldr max 0
  := by
  induction l with
  | nil => exact nofun
  | cons x l ih =>
    intro i hi
    obtain rfl | hi := List.mem_cons.mp hi
    · exact Nat.le_max_left ..
    · exact Nat.le_trans (ih i hi) (Nat.le_max_right ..)

/-- Without a gap all numbers in use are found. -/
theorem ahead_discover (hl : ∀ i ∈ v.inodes, i < 2 ^ 64 - 1) (hroot : v.rootInode < 2 ^ 64 - 1)
    (hgap : ∀ i ∈ v.inodes, ∀ j, v.rootInode < j → j ≤ i → j ∈ v.inodes)
    (hdisk : v.onDisk = v.inodes) :
  v.discoverMaxInode.Ahead
  := by
  obtain ⟨hge, hlt, hnot⟩ := lastBeforeGap_spec hl (v.inodes.foldr max 0) v.rootInode hroot fun i hi =>
    Nat.le_trans (le_foldr_max _ i hi) (Nat.le_add_left ..)
  have hnext : v.discoverMaxInode.nextIno =
      lastBeforeGap v.inodes (v.inodes.foldr max 0) v.rootInode + 1 := by
    unfold discoverMaxInode
    dsimp only
    omega
  have hbelow : ∀ i ∈ v.inodes, i < v.discoverMaxInode.nextIno := by
    intro i hi
    by_contra hle
    exact hnot (hgap i hi _ (by omega) (by omega))
  refine ⟨hbelow, ?_, ?_, ?_⟩
  · intro i hi
    apply hbelow i
    rw [← hdisk]
    exact hi
  · rw [hnext]
    exact Nat.lt_succ_of_le hge
  · omega

section

variable (h : v.Ahead)
include h

/-- A change that only brings in numbers below the next one. -/
theorem Ahead.change {f : List ℕ → List ℕ} (w : Write) (hf : ∀ i ∈ f v.inodes, i < v.nextIno) :
  (v.change w f).Ahead
  := by
  cases w with
  | failed => exact h
  | unwritten => exact ⟨hf, h.onDisk, h.root, h.bound⟩
  | made => exact ⟨hf, hf, h.root, h.bound⟩

theorem Ahead.deleteInode (item : ℕ × Write) :
  (v.deleteInode item).Ahead
  := h.change item.2 fun i hi => h.inodes i (List.mem_of_mem_filter hi)

omit h in
theorem Ahead.deleteInodes (deleted : List (ℕ × Write)) :
  ∀ {v : Volume}, v.Ahead → (deleted.foldl Volume.deleteInode v).Ahead
  := by
  induction deleted with
  | nil => exact id
  | cons item deleted ih => exact fun h => ih (h.deleteInode item)

/-- A new inode. -/
theorem Ahead.newInode (hbound : v.nextIno + 1 < 2 ^ 64) (inserted : Write) (undo : Option Write) :
  (v.newInode inserted undo).Ahead
  := by
  have hnext : (v.nextIno + 1) % 2 ^ 64 = v.nextIno + 1 := Nat.mod_eq_of_lt hbound
  have htaken : { v with nextIno := (v.nextIno + 1) % 2 ^ 64 : Volume }.Ahead := by
    rw [hnext]
    exact ⟨fun i hi => Nat.lt_succ_of_lt (h.inodes i hi), fun i hi => Nat.lt_succ_of_lt (h.onDisk i hi),
      Nat.lt_succ_of_lt h.root, hbound⟩
  have hinserted : ({ v with nextIno := (v.nextIno + 1) % 2 ^ 64 : Volume }.change inserted
      (v.nextIno :: ·)).Ahead := by
    apply htaken.change
    intro i hi
    obtain rfl | hi := List.mem_cons.mp hi
    · rw [hnext]
      exact Nat.lt_succ_self _
    · exact htaken.inodes i hi
  unfold Volume.newInode
  split
  · exact hinserted.deleteInode _
  · exact hinserted

/-- A request that is careful keeps the next number ahead. -/
theorem Ahead.exec {r : Request} (hr : r.Careful v) :
  (r.exec v).Ahead
  := by
  obtain ⟨htake, hmount⟩ := hr
  cases r with
  | create inserted entry undo => exact h.newInode (htake trivial) ..
  | mkdir inserted entry undo => exact h.newInode (htake trivial) ..
  | symlink inserted extent entry undo => exact h.newInode (htake trivial) ..
  | setxattrIndirect inserted value committed undo deleted =>
    unfold Request.exec
    dsimp only
    split
    · exact Ahead.deleteInodes _ (h.newInode (htake trivial) ..)
    · exact h.newInode (htake trivial) ..
  | setxattrInline deleted => exact Ahead.deleteInodes deleted h
  | unlink deleted => exact Ahead.deleteInodes deleted h
  | rmdir deleted => exact h.deleteInode deleted
  | rename deleted => exact Ahead.deleteInodes deleted h
  | remount =>
    have hbound := h.bound
    refine ahead_discover ?_ ?_ (hmount rfl) rfl
    · intro i hi
      have := h.onDisk i hi
      omega
    · have := h.root
      dsimp only
      omega

end

theorem ahead_fresh {rootInode : ℕ} (hroot : rootInode + 1 < 2 ^ 64) :
  (fresh rootInode).Ahead
  := by
  have hmem : ∀ i ∈ [rootInode], i = rootInode := fun i => List.mem_singleton.mp
  refine ahead_discover ?_ (by dsimp only; omega) ?_ rfl
  · intro i hi
    rw [hmem i hi]
    omega
  · intro i hi j hlt hle
    rw [hmem i hi] at hle
    exact absurd hlt (Nat.not_lt.mpr hle)

end Volume

/-! ## Runs -/

/-- If the numbers in use have no gap whenever a volume is mounted, the next number is never in use. -/
theorem nextIno_unused_of_careful_run {rootInode : ℕ} (hroot : rootInode + 1 < 2 ^ 64) {v : Volume}
    (hrun : Relation.ReflTransGen (VolumeStep Request.Careful) (Volume.fresh rootInode) v) :
  v.nextIno ∉ v.inodes
  := by
  have h : v.Ahead := by
    refine invariant_of_run ?_ (Volume.ahead_fresh hroot) hrun
    rintro v v' h ⟨r, hr, rfl | rfl⟩
    · exact h.exec hr
    · obtain ⟨hinodes, -, hroot, hbound⟩ := h.exec hr
      exact ⟨hinodes, hinodes, hroot, hbound⟩
  intro hmem
  exact Nat.lt_irrefl _ (h.inodes _ hmem)

theorem nextIno_unused_after_remount :
  (Request.remount.exec ((Request.create .made .ok .made).exec (Volume.fresh 2))).nextIno ∉
    (Request.remount.exec ((Request.create .made .ok .made).exec (Volume.fresh 2))).inodes
  := by
  have hdisk : ((Request.create .made .ok .made).exec (Volume.fresh 2)).onDisk = [3, 2] := by decide
  refine nextIno_unused_of_careful_run (by decide : 2 + 1 < 2 ^ 64)
    (.tail (.single ⟨.create .made .ok .made, ⟨fun _ => by decide, nofun⟩, .inl rfl⟩)
      ⟨.remount, ⟨nofun, ?_⟩, .inl rfl⟩)
  intro _ i hi j hlt hle
  have hj : 2 < j := hlt
  rw [hdisk] at hi ⊢
  simp only [List.mem_cons, List.not_mem_nil, or_false] at hi ⊢
  omega

/-- Two files are created and the first is removed. After the volume has been mounted again, its number
is given to the next file, and then the number of the second file is the next one. -/
theorem nextIno_in_use :
  ∃ v, Relation.ReflTransGen (VolumeStep fun r v => r.makesInode → v.nextIno + 1 < 2 ^ 64)
      (Volume.fresh 1) v ∧ v.inodes = [2, 3, 1] ∧ v.nextIno = 3
  := by
  have hstep : ∀ (v : Volume) (r : Request), (r.makesInode → v.nextIno + 1 < 2 ^ 64) →
      VolumeStep (fun r v => r.makesInode → v.nextIno + 1 < 2 ^ 64) v (r.exec v) :=
    fun v r hr => ⟨r, hr, .inl rfl⟩
  refine ⟨_, .tail (.tail (.tail (.tail (.single (hstep _ (.create .made .ok .made) fun _ => by decide))
    (hstep _ (.create .made .ok .made) fun _ => by decide)) (hstep _ (.unlink [(2, .made)]) nofun))
    (hstep _ .remount nofun)) (hstep _ (.create .made .ok .made) fun _ => by decide), by decide, by decide⟩

end SaltyOS.Fs.Inodes
