import Mathlib.Algebra.Order.BigOperators.Group.List
import Mathlib.Algebra.Order.Ring.Nat
import Mathlib.Data.List.Nodup

/-!
# Deleting the data of a file in SaltyFS

`delete_all_extents`, `delete_hidden_inode_extents`, `delete_all_xattrs` and the loop of
`handle_truncate_fs` collect up to 128 items, handle each of them and start again until no item is
found. The blocks of an extent are freed first, then its item is deleted, and whether the deletion has
succeeded is ignored. So a block is freed while its item is in the tree, it is freed again if the
deletion fails, and the loop may go on as long as the deletion fails.

A B-tree is given by its leaves in their order and by the keys that separate them, which stand in the inner
nodes. A deletion changes one leaf and no separator, and it leaves an empty leaf where it is. A search for
items goes from leaf to leaf and ends at the first empty one, so that it need not find all items. Reading
blocks does not fail. `removes` says which calls of `btree_cow_delete` remove their item, for each key and
each attempt: a call fails if no block can be allocated or written.
-/

namespace SaltyOS.Fs.Extents

/-! ## Items -/

inductive ItemType where
  | inodeItem
  | inodeRef
  | dirItem
  | dirIndex
  | extentData
  | extentRef
  | xattrItem
  deriving DecidableEq

/-- The number of an item type. -/
def ItemType.code : ItemType → ℕ
  | inodeItem => 1
  | inodeRef => 2
  | dirItem => 3
  | dirIndex => 4
  | extentData => 5
  | extentRef => 6
  | xattrItem => 7

/-- `BTreeKey` -/
structure Key where
  objectId : ℕ
  itemType : ItemType
  offset : ℕ
  deriving DecidableEq

namespace Key

def cmp (a b : Key) : Ordering :=
  ((compare a.objectId b.objectId).then (compare a.itemType.code b.itemType.code)).then
    (compare a.offset b.offset)

/-- The key comes after all keys of an inode and an item type. -/
def isPast (ino : ℕ) (itemType : ItemType) (k : Key) : Bool :=
  ino < k.objectId || (k.objectId == ino && itemType.code < k.itemType.code)

end Key

/-- The fields of `ExtentData` that say which blocks it has. -/
structure Extent where
  extentType : ℕ
  diskBytenr : ℕ
  diskNumBytes : ℕ
  deriving DecidableEq

def extentRegular : ℕ := 1

def blockSize : ℕ := 4096

/-- The blocks of an extent. -/
def Extent.blocks (e : Extent) : List ℕ :=
  if e.extentType = extentRegular ∧ e.diskBytenr ≠ 0 then
    let blockStart := e.diskBytenr / blockSize
    let blockCount := (e.diskNumBytes + blockSize - 1) % 2 ^ 64 / blockSize
    (List.range blockCount).map (blockStart + ·)
  else []

/-- An item of the tree. An indirect attribute names its hidden inode. -/
inductive Item where
  | extent (ino offset : ℕ) (data : Extent)
  | xattr (ino offset : ℕ) (ref : Option ℕ)
  | other (key : Key)
  deriving DecidableEq

/-- The key of an inode item. -/
def inodeKey (ino : ℕ) : Key := ⟨ino, .inodeItem, 0⟩

namespace Item

def key : Item → Key
  | extent ino offset _ => ⟨ino, .extentData, offset⟩
  | xattr ino offset _ => ⟨ino, .xattrItem, offset⟩
  | other key => key

/-- The blocks that an item names. -/
def blocks : Item → List ℕ
  | extent _ _ data => data.blocks
  | _ => []

/-- The hidden inode of an indirect attribute. -/
def ref : Item → Option ℕ
  | xattr _ _ ref => ref
  | _ => none

/-- The item belongs to an inode and has the given type. -/
def ofIno (ino : ℕ) (itemType : ItemType) (i : Item) : Bool :=
  i.key.objectId == ino && i.key.itemType == itemType

/-- A regular extent that `handle_truncate_fs` deletes. -/
def isBeyond (newSize : ℕ) : Item → Bool
  | extent _ offset data => data.extentType == extentRegular && newSize ≤ offset
  | _ => false

end Item

/-! ## Volumes -/

/-- The number of the leaf to which the search for a key leads. -/
def searchLeaf (separators : List Key) (key : Key) : ℕ :=
  (separators.takeWhile fun separator => separator.cmp key ≠ .gt).length

/-- The leaves of the tree with the keys that separate each leaf from the one before, how often each key was
to be deleted, and the calls of `free_block` with whether an item named the block, the last call first. An
item is in the leaf to which the search for its key leads. -/
structure Volume where
  separators : List Key
  leaf : ℕ → List Item
  attempts : Key → ℕ
  freed : List (ℕ × Bool)
  routed : ∀ n ≤ separators.length, ∀ i ∈ leaf n, searchLeaf separators i.key = n
  distinct : ∀ n, ((leaf n).map Item.key).Nodup

variable (removes : Key → ℕ → Bool)

namespace Volume

variable (v : Volume)

/-- All items in their order. -/
def items : List Item := (List.range (v.separators.length + 1)).flatMap v.leaf

/-- An item in the tree names the block. -/
def names (b : ℕ) : Bool := v.items.any fun i => i.blocks.contains b

def freeBlock (b : ℕ) : Volume := { v with freed := (b, v.names b) :: v.freed }

/-- The items of the leaf of a key after an attempt to delete the key. -/
def kept (key : Key) : List Item :=
  (v.leaf (searchLeaf v.separators key)).filter fun i =>
    !(decide (i.key = key) && removes key (v.attempts key))

def btreeCowDelete (key : Key) : Volume :=
  { separators := v.separators
    leaf := Function.update v.leaf (searchLeaf v.separators key) (v.kept removes key)
    attempts := Function.update v.attempts key (v.attempts key + 1)
    freed := v.freed
    routed := by
      intro n hn i hi
      rw [Function.update_apply] at hi
      split_ifs at hi with heq
      · subst heq
        exact v.routed _ hn i (List.mem_filter.mp hi).1
      · exact v.routed n hn i hi
    distinct := by
      intro n
      rw [Function.update_apply]
      split_ifs
      · exact (v.distinct _).sublist (List.filter_sublist.map _)
      · exact v.distinct n }

end Volume

/-! ## Searching the leaves -/

section

variable (separators : List Key) (leaf : ℕ → List Item) (ino : ℕ) (itemType : ItemType)

/-- Go through the items of a leaf from a key on: what is found, the key to go on with after the last item
found, and whether the items of the inode are over. -/
def visitLeaf (searchKey : Key) : List Item → List Item × Option Key × Bool
  | [] => ([], none, false)
  | i :: items =>
    if i.key.cmp searchKey = .lt then visitLeaf searchKey items
    else if i.ofIno ino itemType then
      if i.key.offset = 2 ^ 64 - 1 then ([i], none, true)
      else
        let (found, next, past) := visitLeaf searchKey items
        (i :: found, next <|> some ⟨ino, itemType, i.key.offset + 1⟩, past)
    else if i.key.isPast ino itemType then ([], none, true)
    else visitLeaf searchKey items

/-- The separator after a leaf, unless the items of the inode are over there. -/
def findNextLeafKey (n : ℕ) : Option Key := separators[n]?.filter fun key => !key.isPast ino itemType

/-- The rounds of `btree_find_all_for_ino`: a leaf is searched from a key on, and the search goes on with the
key after the last item found or with the next separator. A leaf is not searched twice in a row. -/
def findFrom : (rounds : ℕ) → (searchKey : Key) → (prevLeaf : Option ℕ) → List Item
  | 0, _, _ => []
  | rounds + 1, searchKey, prevLeaf =>
    let n := searchLeaf separators searchKey
    if leaf n = [] then []
    else if prevLeaf = some n then
      match findNextLeafKey separators ino itemType n with
      | some key => findFrom rounds key none
      | none => []
    else
      match visitLeaf ino itemType searchKey (leaf n) with
      | (found, _, true) => found
      | (found, some key, false) => found ++ findFrom rounds key (some n)
      | (found, none, false) =>
        match findNextLeafKey separators ino itemType n with
        | some key => found ++ findFrom rounds key none
        | none => found

/-- The items that `btree_find_all_for_ino` finds. -/
def Volume.btreeFindAllForIno (v : Volume) : List Item :=
  findFrom v.separators v.leaf ino itemType 1024 ⟨ino, itemType, 0⟩ none

/-- The first 128 items found that the caller wants, after which the search is stopped. -/
def Volume.collect (v : Volume) (wanted : Item → Bool) : List Item :=
  ((v.btreeFindAllForIno ino itemType).filter wanted).take 128

end

/-! ## The loops -/

/-- The items of a batch are handled one after the other. -/
def handleAll (handle : Item → Volume → Option Volume) : List Item → Volume → Option Volume
  | [], v => some v
  | i :: batch, v => (handle i v).bind (handleAll handle batch)

/-- The loop that the functions have in common. It has no result if it has not ended after the given
number of rounds. -/
def drain (find : Volume → List Item) (handle : Item → Volume → Option Volume) :
    (fuel : ℕ) → Volume → Option Volume
  | 0, _ => none
  | fuel + 1, v =>
    if find v = [] then some v else (handleAll handle (find v) v).bind (drain find handle fuel)

/-- An extent is handled: its blocks are freed, then its item is deleted. -/
def deleteExtent (i : Item) (v : Volume) : Option Volume :=
  some ((i.blocks.foldl Volume.freeBlock v).btreeCowDelete removes i.key)

def deleteAllExtents (ino fuel : ℕ) (v : Volume) : Option Volume :=
  drain (·.collect ino .extentData fun _ => true) (deleteExtent removes) fuel v

def deleteHiddenInodeExtents (ino fuel : ℕ) (v : Volume) : Option Volume :=
  drain (·.collect ino .extentData fun _ => true) (deleteExtent removes) fuel v

/-- The loop of `handle_truncate_fs`. -/
def truncateExtents (ino newSize fuel : ℕ) (v : Volume) : Option Volume :=
  drain (·.collect ino .extentData (Item.isBeyond newSize)) (deleteExtent removes) fuel v

def destroyHiddenInode (ino fuel : ℕ) (v : Volume) : Option Volume :=
  (deleteHiddenInodeExtents removes ino fuel v).map (·.btreeCowDelete removes (inodeKey ino))

/-- An attribute is handled: its item is deleted, then its hidden inode is destroyed. -/
def deleteXattr (fuel : ℕ) (i : Item) (v : Volume) : Option Volume :=
  let v := v.btreeCowDelete removes i.key
  match i.ref with
  | none => some v
  | some ino => destroyHiddenInode removes ino fuel v

def deleteAllXattrs (ino fuel : ℕ) (v : Volume) : Option Volume :=
  drain (·.collect ino .xattrItem fun _ => true) (deleteXattr removes fuel) fuel v

/-! ## The property and its condition -/

/-- The loop ends, frees each block at most once, and frees no block that an item names. -/
def FreesOnce (loop : (fuel : ℕ) → Volume → Option Volume) (v : Volume) : Prop :=
  ∃ fuel w, loop fuel { v with freed := [] } = some w ∧ (w.freed.map Prod.fst).Nodup ∧
    ∀ call ∈ w.freed, call.2 = false

/-- The loop ends and frees no block at all. -/
def FreesNothing (loop : (fuel : ℕ) → Volume → Option Volume) (v : Volume) : Prop :=
  ∃ fuel w, loop fuel { v with freed := [] } = some w ∧ w.freed = []

/-- The item names no block, and a later attempt to delete it succeeds. -/
def Removable (v : Volume) (i : Item) : Prop :=
  i.blocks = [] ∧ ∃ n, v.attempts i.key ≤ n ∧ removes i.key n = true

variable {removes} {v w : Volume} {l : List Item} {i x : Item} {k : Key} {find : Volume → List Item}
  {handle : Item → Volume → Option Volume} {fuel : ℕ}

/-! ## Items and leaves -/

/-- A search ends in a leaf of the tree. -/
theorem searchLeaf_le (separators : List Key) (key : Key) :
  searchLeaf separators key ≤ separators.length
  := (List.takeWhile_sublist _).length_le

theorem mem_items {n : ℕ} (hn : n ≤ v.separators.length) (hi : i ∈ v.leaf n) :
  i ∈ v.items
  := List.mem_flatMap.mpr ⟨n, List.mem_range.mpr (Nat.lt_succ_of_le hn), hi⟩

/-- An item with the key is in the leaf of the key. -/
theorem kept_eq (v : Volume) (removes : Key → ℕ → Bool) (key : Key) {n : ℕ} (hn : n ≤ v.separators.length) :
  Function.update v.leaf (searchLeaf v.separators key) (v.kept removes key) n =
    (v.leaf n).filter fun i => !(decide (i.key = key) && removes key (v.attempts key))
  := by
  rw [Function.update_apply]
  split_ifs with heq
  · rw [heq]
    rfl
  · symm
    rw [List.filter_eq_self]
    intro i hi
    have hne : i.key ≠ key := by
      rintro rfl
      exact heq (v.routed n hn i hi).symm
    simp [hne]

/-- A deletion removes the item of the key from the tree if it succeeds. -/
theorem items_btreeCowDelete (v : Volume) (removes : Key → ℕ → Bool) (key : Key) :
  (v.btreeCowDelete removes key).items =
    v.items.filter fun i => !(decide (i.key = key) && removes key (v.attempts key))
  := by
  simp only [Volume.items, List.filter_flatMap]
  apply List.flatMap_congr
  intro n hn
  exact kept_eq v removes key (Nat.le_of_lt_succ (List.mem_range.mp hn))

/-- Two items have different keys. -/
theorem key_injective (v : Volume) (hi : i ∈ v.items) :
  ∀ j ∈ v.items, j.key = i.key → j = i
  := by
  intro j hj hkey
  obtain ⟨n, hn, hi⟩ := List.mem_flatMap.mp hi
  obtain ⟨m, hm, hj⟩ := List.mem_flatMap.mp hj
  have hin := v.routed n (Nat.le_of_lt_succ (List.mem_range.mp hn)) i hi
  have hjm := v.routed m (Nat.le_of_lt_succ (List.mem_range.mp hm)) j hj
  rw [hkey, hin] at hjm
  subst hjm
  exact List.inj_on_of_nodup_map (v.distinct n) hj hi hkey

/-! ## What is found -/

section

variable {ino : ℕ} {itemType : ItemType}

/-- What a leaf gives is in it and of the inode. -/
theorem mem_visitLeaf {searchKey : Key} {items : List Item}
    (hi : i ∈ (visitLeaf ino itemType searchKey items).1) :
  i ∈ items ∧ i.ofIno ino itemType = true
  := by
  induction items with
  | nil => cases hi
  | cons j items ih =>
    unfold visitLeaf at hi
    split_ifs at hi with hless hof hlast hpast
    · exact (ih hi).imp_left (List.mem_cons_of_mem j)
    · rw [List.mem_singleton.mp hi]
      exact ⟨List.mem_cons_self, hof⟩
    · obtain rfl | hi := List.mem_cons.mp hi
      · exact ⟨List.mem_cons_self, hof⟩
      · exact (ih hi).imp_left (List.mem_cons_of_mem j)
    · cases hi
    · exact (ih hi).imp_left (List.mem_cons_of_mem j)

/-- What is found is in the tree. -/
theorem mem_findFrom {rounds : ℕ} {searchKey : Key} {prevLeaf : Option ℕ}
    (hi : i ∈ findFrom v.separators v.leaf ino itemType rounds searchKey prevLeaf) :
  i ∈ v.items ∧ i.ofIno ino itemType = true
  := by
  induction rounds generalizing searchKey prevLeaf with
  | zero => cases hi
  | succ rounds ih =>
    have hleaf : ∀ found next past,
        visitLeaf ino itemType searchKey (v.leaf (searchLeaf v.separators searchKey)) = (found, next, past) →
          i ∈ found → i ∈ v.items ∧ i.ofIno ino itemType = true := by
      intro found next past heq hi
      have hvisit : i ∈ (visitLeaf ino itemType searchKey
          (v.leaf (searchLeaf v.separators searchKey))).1 := by rwa [heq]
      exact (mem_visitLeaf hvisit).imp_left (mem_items (searchLeaf_le _ _))
    rw [findFrom] at hi
    split_ifs at hi
    · cases hi
    · split at hi
      · exact ih hi
      · cases hi
    · split at hi
      next heq => exact hleaf _ _ _ heq hi
      next heq => exact (List.mem_append.mp hi).elim (hleaf _ _ _ heq) ih
      next heq =>
        split at hi
        · exact (List.mem_append.mp hi).elim (hleaf _ _ _ heq) ih
        · exact hleaf _ _ _ heq hi

/-- What a loop collects is on the volume. -/
theorem mem_collect {wanted : Item → Bool} (hi : i ∈ v.collect ino itemType wanted) :
  i ∈ v.items ∧ i.ofIno ino itemType = true ∧ wanted i = true
  := by
  obtain ⟨hfound, hwanted⟩ := List.mem_filter.mp (List.mem_of_mem_take hi)
  exact ⟨(mem_findFrom hfound).1, (mem_findFrom hfound).2, hwanted⟩

end

/-! ## What a loop keeps -/

/-- One item after the other. -/
theorem handleAll_keeps {Q : Volume → Prop} {batch : List Item}
    (hQ : ∀ j ∈ batch, ∀ u w, Q u → handle j u = some w → Q w)
    (h : handleAll handle batch v = some w) (hv : Q v) :
  Q w
  := by
  induction batch generalizing v with
  | nil =>
    cases h
    exact hv
  | cons i batch ih =>
    obtain ⟨u, hu, hw⟩ := Option.bind_eq_some_iff.mp h
    exact ih (fun j hj => hQ j (List.mem_cons_of_mem i hj)) hw (hQ i List.mem_cons_self v u hv hu)

/-- A loop keeps what a batch keeps. -/
theorem drain_keeps {Q : Volume → Prop}
    (hQ : ∀ u w, Q u → handleAll handle (find u) u = some w → Q w)
    (h : drain find handle fuel v = some w) (hv : Q v) :
  Q w
  := by
  induction fuel generalizing v with
  | zero => cases h
  | succ fuel ih =>
    rw [drain] at h
    split_ifs at h
    · cases h
      exact hv
    · obtain ⟨u, hu, hw⟩ := Option.bind_eq_some_iff.mp h
      exact ih hw (hQ v u hv hu)

/-- One round after the other. -/
theorem drain_keeps_of_handle {Q : Volume → Prop} (hQ : ∀ j u w, Q u → handle j u = some w → Q w)
    (h : drain find handle fuel v = some w) (hv : Q v) :
  Q w
  := by
  refine drain_keeps (fun u w hu hw => ?_) h hv
  exact handleAll_keeps (fun j _ => hQ j) hw hu

/-- A loop ends when it finds nothing. -/
theorem find_of_drain (h : drain find handle fuel v = some w) :
  find w = []
  := by
  induction fuel generalizing v with
  | zero => cases h
  | succ fuel ih =>
    rw [drain] at h
    split_ifs at h with hnil
    · cases h
      exact hnil
    · obtain ⟨u, -, hu⟩ := Option.bind_eq_some_iff.mp h
      exact ih hu

/-! ## Freeing blocks -/

/-- A block was freed while an item named it. -/
def Volume.Bad (v : Volume) : Prop := ∃ call ∈ v.freed, call.2 = true

/-- No block has been freed, or one was freed too early. -/
def Volume.Judged (v : Volume) : Prop := v.freed = [] ∨ v.Bad

/-- A deletion that succeeds removes the items with its key and no others. -/
theorem mem_btreeCowDelete :
  i ∈ (v.btreeCowDelete removes k).items ↔ i ∈ v.items ∧ (i.key = k → removes k (v.attempts k) = false)
  := by
  simp [items_btreeCowDelete, List.mem_filter, imp_iff_not_or]

/-- Freeing blocks leaves the tree alone. -/
theorem freeBlock_foldl (bs : List ℕ) :
  (bs.foldl Volume.freeBlock v).separators = v.separators ∧
    (bs.foldl Volume.freeBlock v).leaf = v.leaf ∧ v.freed <:+ (bs.foldl Volume.freeBlock v).freed
  := by
  induction bs generalizing v with
  | nil => exact ⟨rfl, rfl, List.suffix_rfl⟩
  | cons b bs ih =>
    obtain ⟨hseparators, hleaf, hfreed⟩ := ih (v := v.freeBlock b)
    exact ⟨hseparators, hleaf, (List.suffix_cons _ _).trans hfreed⟩

theorem items_freeBlock_foldl (bs : List ℕ) :
  (bs.foldl Volume.freeBlock v).items = v.items
  := by
  obtain ⟨hseparators, hleaf, -⟩ := freeBlock_foldl (v := v) bs
  rw [Volume.items, hseparators, hleaf, Volume.items]

/-- What was freed too early or twice stays so. -/
theorem Volume.Bad.of_suffix (h : v.Bad) (hfreed : v.freed <:+ w.freed) :
  w.Bad
  := by
  obtain ⟨call, hcall, htrue⟩ := h
  exact ⟨call, hfreed.mem hcall, htrue⟩

/-- Freeing the blocks of an item that is in the tree. -/
theorem bad_of_mem (hi : i ∈ v.items) (hblocks : i.blocks ≠ []) :
  (i.blocks.foldl Volume.freeBlock v).Bad
  := by
  obtain ⟨b, bs, hbs⟩ := List.exists_cons_of_ne_nil hblocks
  have hnames : v.names b = true := by
    simp only [Volume.names, List.any_eq_true]
    exact ⟨i, hi, by simp [hbs]⟩
  have hbad : (v.freeBlock b).Bad := ⟨_, List.mem_cons_self, hnames⟩
  rw [hbs]
  exact hbad.of_suffix (freeBlock_foldl bs).2.2

/-- In the middle of a batch: the items of the batch that name blocks are still in the tree as long as no
block has been freed. -/
def Judging (l batch : List Item) (v : Volume) : Prop :=
  v.items ⊆ l ∧ (v.freed = [] ∧ (∀ i ∈ batch, i.blocks ≠ [] → i ∈ v.items) ∨ v.Bad)

/-- The blocks of an item that was freed are freed while the item is in the tree. -/
theorem Judging.deleteExtent {batch : List Item} {j : Item} (hinj : ∀ i ∈ l, ∀ j ∈ l, j.key = i.key → j = i)
    (hbatch : ∀ i ∈ batch, i ∈ l) (hj : j ∈ batch) (h : Judging l batch v)
    (hw : deleteExtent removes j v = some w) :
  Judging l batch w
  := by
  cases hw
  obtain ⟨hsub, hv⟩ := h
  refine ⟨fun i hi => ?_, ?_⟩
  · rw [mem_btreeCowDelete, items_freeBlock_foldl] at hi
    exact hsub hi.1
  obtain ⟨hnil, hmem⟩ | hbad := hv
  · by_cases hblocks : j.blocks = []
    · left
      rw [hblocks]
      refine ⟨hnil, fun i hi hne => mem_btreeCowDelete.mpr ⟨hmem i hi hne, fun heq => ?_⟩⟩
      obtain rfl := hinj j (hbatch j hj) i (hbatch i hi) heq
      exact absurd hblocks hne
    · exact .inr (bad_of_mem (hmem j hj hblocks) hblocks)
  · exact .inr (hbad.of_suffix (freeBlock_foldl j.blocks).2.2)

/-- A loop over extents that frees a block frees one too early. -/
theorem Volume.Judged.drain_deleteExtent (hfind : ∀ u, ∀ i ∈ find u, i ∈ u.items) (h : v.Judged)
    (hw : drain find (deleteExtent removes) fuel v = some w) :
  w.Judged
  := by
  refine drain_keeps (Q := Volume.Judged) (fun u w hu hw => ?_) hw h
  have hjudging : Judging u.items (find u) u :=
    ⟨List.Subset.refl _, hu.imp_left fun hnil => ⟨hnil, fun i hi _ => hfind u i hi⟩⟩
  have hend := handleAll_keeps (Q := Judging u.items (find u))
    (fun j hj _ _ hu hw => hu.deleteExtent (fun i hi => key_injective u hi) (hfind u) hj hw) hw hjudging
  exact hend.2.imp_left And.left

/-- Handling an attribute. -/
theorem Volume.Judged.deleteXattr (h : v.Judged) (hw : deleteXattr removes fuel i v = some w) :
  w.Judged
  := by
  rw [Extents.deleteXattr] at hw
  split at hw
  · cases hw
    exact h
  · obtain ⟨u, hu, rfl⟩ := Option.map_eq_some_iff.mp hw
    have hdelete : (v.btreeCowDelete removes i.key).Judged := h
    have hdestroy : u.Judged := hdelete.drain_deleteExtent (fun _ _ hi => (mem_collect hi).1) hu
    exact hdestroy

/-- A loop that frees nothing or something too early. -/
theorem freesOnce_iff_freesNothing {loop : ℕ → Volume → Option Volume}
    (h : ∀ fuel v w, v.Judged → loop fuel v = some w → w.Judged) :
  FreesOnce loop v ↔ FreesNothing loop v
  := by
  constructor
  · rintro ⟨fuel, w, hw, -, hfreed⟩
    refine ⟨fuel, w, hw, (h fuel _ w (.inl rfl) hw).resolve_right ?_⟩
    rintro ⟨call, hcall, htrue⟩
    rw [hfreed call hcall] at htrue
    cases htrue
  · rintro ⟨fuel, w, hw, hnil⟩
    refine ⟨fuel, w, hw, ?_⟩
    rw [hnil]
    exact ⟨List.nodup_nil, by simp⟩

/-- Blocks that have been freed stay freed. -/
theorem deleteExtent_freed (hw : deleteExtent removes i v = some w) :
  v.freed <:+ w.freed
  := by
  cases hw
  exact (freeBlock_foldl i.blocks).2.2

/-- Handling an item that names blocks frees a block. -/
theorem freed_ne_nil (hblocks : i.blocks ≠ []) (hw : deleteExtent removes i v = some w) :
  w.freed ≠ []
  := by
  cases hw
  obtain ⟨b, bs, hbs⟩ := List.exists_cons_of_ne_nil hblocks
  change (i.blocks.foldl Volume.freeBlock v).freed ≠ []
  rw [hbs, List.foldl_cons]
  exact (freeBlock_foldl (v := v.freeBlock b) bs).2.2.ne_nil (List.cons_ne_nil _ _)

theorem handleAll_freed {batch : List Item} (hw : handleAll (deleteExtent removes) batch v = some w) :
  v.freed <:+ w.freed
  := handleAll_keeps (Q := fun u => v.freed <:+ u.freed)
    (fun _ _ _ _ hu hw => hu.trans (deleteExtent_freed hw)) hw List.suffix_rfl

/-- An item with blocks is handled by freeing them. -/
theorem handleAll_freed_ne_nil {batch : List Item} (hi : i ∈ batch) (hblocks : i.blocks ≠ [])
    (hw : handleAll (deleteExtent removes) batch v = some w) :
  w.freed ≠ []
  := by
  induction batch generalizing v with
  | nil => cases hi
  | cons j batch ih =>
    obtain ⟨u, hu, hrest⟩ := Option.bind_eq_some_iff.mp hw
    obtain rfl | hi := List.mem_cons.mp hi
    · exact (handleAll_freed hrest).ne_nil (freed_ne_nil hblocks hu)
    · exact ih hi hrest

/-- A loop over extents that frees nothing finds no item that names blocks in its first round. -/
theorem blocks_of_freesNothing (h : FreesNothing (drain find (deleteExtent removes)) v) :
  ∀ i ∈ find { v with freed := [] }, i.blocks = []
  := by
  obtain ⟨fuel, w, hw, hnil⟩ := h
  intro i hi
  by_contra hblocks
  cases fuel with
  | zero => cases hw
  | succ fuel =>
    rw [drain, if_neg (List.ne_nil_of_mem hi)] at hw
    obtain ⟨u, hu, hw⟩ := Option.bind_eq_some_iff.mp hw
    have hsuffix : u.freed <:+ w.freed := drain_keeps (Q := fun x => u.freed <:+ x.freed)
      (fun _ _ hx hw => hx.trans (handleAll_freed hw)) hw List.suffix_rfl
    exact hsuffix.ne_nil (handleAll_freed_ne_nil hi hblocks hu) hnil

/-! ## Items that are removable -/

/-- Attempts are counted. -/
theorem attempts_le (removes : Key → ℕ → Bool) (k k' : Key) :
  v.attempts k' ≤ (v.btreeCowDelete removes k).attempts k'
  := by
  simp only [Volume.btreeCowDelete, Function.update_apply]
  split_ifs with h
  · rw [h]
    exact Nat.le_succ _
  · exact le_rfl

section Sums

variable {f g : Item → ℕ} {p : Item → Bool} (h : ∀ i, g i ≤ f i)
include h

theorem sum_filter_le (l : List Item) :
  ((l.filter p).map g).sum ≤ (l.map f).sum
  := calc
    ((l.filter p).map g).sum ≤ ((l.filter p).map f).sum := List.sum_le_sum fun i _ => h i
    _ ≤ (l.map f).sum := (List.filter_sublist.map f).sum_le_sum fun _ _ => Nat.zero_le _

/-- A bound on the attempts that are left goes down with each item that is handled. -/
theorem sum_filter_lt (hi : i ∈ l) (hf : 0 < f i) (hp : p i = true → g i < f i) :
  ((l.filter p).map g).sum < (l.map f).sum
  := by
  obtain ⟨l₁, l₂, rfl⟩ := List.append_of_mem hi
  have h₁ := sum_filter_le (p := p) h l₁
  have h₂ := sum_filter_le (p := p) h l₂
  simp only [List.filter_append, List.filter_cons, List.map_append, List.map_cons, List.sum_append,
    List.sum_cons]
  split_ifs with hpi
  · have := hp hpi
    simp only [List.map_cons, List.sum_cons]
    omega
  · omega

end Sums

variable {s : Item → Prop} [DecidablePred s] {d : Key → ℕ} {n : ℕ}

/-- The attempts that are left for an item. -/
def left (s : Item → Prop) [DecidablePred s] (d : Key → ℕ) (v : Volume) (i : Item) : ℕ :=
  if s i then d i.key + 1 - v.attempts i.key else 0

/-- Nothing has been freed, and the items of a set are deleted by at most `n` attempts more. -/
structure Ready (l : List Item) (s : Item → Prop) [DecidablePred s] (d : Key → ℕ) (n : ℕ)
    (v : Volume) : Prop where
  freed : v.freed = []
  items : v.items ⊆ l
  attempts : ∀ i ∈ v.items, s i → v.attempts i.key ≤ d i.key
  sum : (v.items.map (left s d v)).sum ≤ n

/-- There are attempts left while there are items to delete. -/
theorem Ready.pos (h : Ready l s d n v) (hi : i ∈ v.items) (hs : s i) :
  0 < n
  := by
  have hlt := h.attempts i hi hs
  have hsum := sum_filter_lt (f := left s d v) (g := fun _ => 0) (p := fun _ => false)
    (fun _ => Nat.zero_le _) hi (by simp [left, hs]; omega) nofun
  exact Nat.lt_of_lt_of_le (Nat.zero_lt_of_lt hsum) h.sum

/-- A round ends if the handling of each item does. -/
theorem Ready.handleAll {batch : List Item}
    (hhandle : ∀ i ∈ batch, ∀ u, Ready l s d n u → ∃ w, handle i u = some w ∧ Ready l s d n w)
    (h : Ready l s d n v) :
  ∃ w, handleAll handle batch v = some w ∧ Ready l s d n w
  := by
  induction batch generalizing v with
  | nil => exact ⟨v, rfl, h⟩
  | cons i batch ih =>
    obtain ⟨u, hu, hready⟩ := hhandle i List.mem_cons_self v h
    obtain ⟨w, hw, hready⟩ := ih (fun j hj => hhandle j (List.mem_cons_of_mem i hj)) hready
    exact ⟨w, Option.bind_eq_some_iff.mpr ⟨u, hu, hw⟩, hready⟩

/-- A loop ends if handling an item uses one of the attempts. -/
theorem Ready.drain (hfind : ∀ u, u.items ⊆ l → ∀ i ∈ find u, i ∈ u.items ∧ s i)
    (hhandle : ∀ i ∈ l, s i → ∀ m ≤ n, ∀ u, Ready l s d m u → ∃ w, handle i u = some w ∧
      Ready l s d m w ∧ (i ∈ u.items → Ready l s d (m - 1) w))
    (h : Ready l s d n v) (hn : n < fuel) :
  ∃ w, drain find handle fuel v = some w ∧ Ready l s d n w
  := by
  induction fuel generalizing n v with
  | zero => cases hn
  | succ fuel ih =>
    rw [Extents.drain]
    have hmem := hfind v h.items
    rcases hbatch : find v with _ | ⟨i, batch⟩
    · exact ⟨v, rfl, h⟩
    rw [hbatch] at hmem
    obtain ⟨hi, hsi⟩ := hmem i List.mem_cons_self
    have hpos := h.pos hi hsi
    obtain ⟨u, hu, -, hready⟩ := hhandle i (h.items hi) hsi n (Nat.le_refl n) v h
    have hbatch' : ∀ j ∈ batch, ∀ y, Ready l s d (n - 1) y →
        ∃ w, handle j y = some w ∧ Ready l s d (n - 1) w := by
      intro j hj y hy
      obtain ⟨hjv, hsj⟩ := hmem j (List.mem_cons_of_mem i hj)
      obtain ⟨w, hw, hready, -⟩ := hhandle j (h.items hjv) hsj _ (Nat.sub_le n 1) y hy
      exact ⟨w, hw, hready⟩
    obtain ⟨u', hu', hready'⟩ := (hready hi).handleAll hbatch'
    obtain ⟨w, hw, hready⟩ := ih (fun i hi hsi m hm => hhandle i hi hsi m (by omega)) hready' (by omega)
    refine ⟨w, ?_, hready.freed, hready.items, hready.attempts, hready.sum.trans (Nat.sub_le n 1)⟩
    simp [Extents.handleAll, hu, hu', hw]

section Ready

variable (hd : ∀ i ∈ l, s i → i.blocks = [] ∧ removes i.key (d i.key) = true)
include hd

/-- An attempt for an item that is still there uses up one of those that are left. -/
theorem Ready.btreeCowDelete (h : Ready l s d n v) (k : Key) :
  Ready l s d n (v.btreeCowDelete removes k) ∧
    ∀ i ∈ v.items, s i → i.key = k → Ready l s d (n - 1) (v.btreeCowDelete removes k)
  := by
  have hle : ∀ i, left s d (v.btreeCowDelete removes k) i ≤ left s d v i := by
    intro i
    have := attempts_le (v := v) removes k i.key
    unfold left
    split_ifs <;> omega
  have hready : ∀ m, ((v.btreeCowDelete removes k).items.map
      (left s d (v.btreeCowDelete removes k))).sum ≤ m →
      Ready l s d m (v.btreeCowDelete removes k) := by
    refine fun m hm => ⟨h.freed, fun i hi => h.items (mem_btreeCowDelete.mp hi).1, ?_, hm⟩
    intro i hi hs
    obtain ⟨hiv, hkept⟩ := mem_btreeCowDelete.mp hi
    have hlt := h.attempts i hiv hs
    simp only [Volume.btreeCowDelete, Function.update_apply]
    split_ifs with hk
    · subst hk
      -- the item is still there, so the attempt that removes it is yet to come
      refine Nat.lt_of_le_of_ne hlt fun heq => ?_
      have hremoved := (hd i (h.items hiv) hs).2
      rw [← heq, hkept rfl] at hremoved
      cases hremoved
    · exact hlt
  have hitems := items_btreeCowDelete v removes k
  use hready n (by rw [hitems]; exact (sum_filter_le hle _).trans h.sum)
  rintro i hi hs rfl
  have hlt := h.attempts i hi hs
  have hsum := sum_filter_lt (p := fun j => !(decide (j.key = i.key) &&
    removes i.key (v.attempts i.key))) hle hi (by simp [left, hs]; omega)
    (fun _ => by simp [left, hs, Volume.btreeCowDelete]; omega)
  exact hready (n - 1) (by rw [hitems]; exact Nat.le_pred_of_lt (hsum.trans_le h.sum))

/-- An item without blocks is handled by one attempt. -/
theorem Ready.deleteExtent (hi : i ∈ l) (hs : s i) (h : Ready l s d n v) :
  ∃ w, deleteExtent removes i v = some w ∧ Ready l s d n w ∧ (i ∈ v.items → Ready l s d (n - 1) w)
  := by
  obtain ⟨hready, hmem⟩ := h.btreeCowDelete hd i.key
  rw [Extents.deleteExtent, (hd i hi hs).1]
  exact ⟨_, rfl, hready, fun hiv => hmem i hiv hs rfl⟩

/-- The loop ends before the attempts are used up. -/
theorem Ready.drain_deleteExtent (hfind : ∀ u, u.items ⊆ l → ∀ i ∈ find u, i ∈ u.items ∧ s i)
    (h : Ready l s d n v) (hn : n < fuel) :
  ∃ w, Extents.drain find (Extents.deleteExtent removes) fuel v = some w ∧ Ready l s d n w
  := h.drain hfind (fun _ hi hs _ _ _ hu => hu.deleteExtent hd hi hs) hn

/-- The extents of the hidden inode go first, and then the attribute. -/
theorem Ready.deleteXattr (hs : s i)
    (href : ∀ ino, i.ref = some ino → ∀ j ∈ l, j.ofIno ino .extentData = true → s j)
    (h : Ready l s d n v) (hn : n < fuel) :
  ∃ w, deleteXattr removes fuel i v = some w ∧ Ready l s d n w ∧ (i ∈ v.items → Ready l s d (n - 1) w)
  := by
  have hdestroy : ∀ m ≤ n, Ready l s d m (v.btreeCowDelete removes i.key) →
      ∃ w, Extents.deleteXattr removes fuel i v = some w ∧ Ready l s d m w := by
    intro m hm hready
    rw [Extents.deleteXattr]
    cases hino : i.ref with
    | none => exact ⟨_, rfl, hready⟩
    | some ino =>
      obtain ⟨w, hw, hready⟩ := hready.drain_deleteExtent hd (fun u hu j hj => by
        obtain ⟨hju, hof, -⟩ := mem_collect hj
        exact ⟨hju, href ino hino j (hu hju) hof⟩) (hm.trans_lt hn)
      exact ⟨_, Option.map_eq_some_iff.mpr ⟨w, hw, rfl⟩, (hready.btreeCowDelete hd _).1⟩
  obtain ⟨hready, hmem⟩ := h.btreeCowDelete hd i.key
  obtain ⟨w, hw, hn⟩ := hdestroy n (Nat.le_refl n) hready
  refine ⟨w, hw, hn, fun hi => ?_⟩
  obtain ⟨w', hw', hn'⟩ := hdestroy (n - 1) (Nat.sub_le n 1) (hmem i hi hs rfl)
  obtain rfl : w = w' := Option.some_injective _ (hw.symm.trans hw')
  exact hn'

end Ready

/-- A loop that ends without a call of `free_block`. -/
theorem freesNothing_of_ready {loop : ℕ → Volume → Option Volume}
    (h : ∀ i ∈ v.items, s i → Removable removes v i)
    (hloop : ∀ d n, (∀ i ∈ v.items, s i → i.blocks = [] ∧ removes i.key (d i.key) = true) →
      Ready v.items s d n { v with freed := [] } → ∃ fuel w, loop fuel { v with freed := [] } = some w ∧
        Ready v.items s d n w) :
  FreesNothing loop v
  := by
  have hattempt : ∀ k, ∃ n, ∀ i ∈ v.items, s i → i.key = k → v.attempts k ≤ n ∧ removes k n = true := by
    intro k
    by_cases hk : ∃ i ∈ v.items, s i ∧ i.key = k
    · obtain ⟨i, hi, hs, rfl⟩ := hk
      obtain ⟨-, n, hn⟩ := h i hi hs
      exact ⟨n, fun _ _ _ _ => hn⟩
    · exact ⟨0, fun i hi hs heq => absurd ⟨i, hi, hs, heq⟩ hk⟩
  choose d hd using hattempt
  obtain ⟨fuel, w, hw, hready⟩ := hloop d _ (fun i hi hs => ⟨(h i hi hs).1, (hd _ i hi hs rfl).2⟩)
    ⟨rfl, List.Subset.refl _, fun i hi hs => (hd _ i hi hs rfl).1, le_rfl⟩
  exact ⟨fuel, w, hw, hready.freed⟩

/-! ## The result -/

section

variable {ino : ℕ} {wanted : Item → Bool}

/-- A loop over the extents of an inode. -/
theorem drain_deleteExtent_freesOnce_iff :
  FreesOnce (drain (·.collect ino .extentData wanted) (deleteExtent removes)) v ↔
    FreesNothing (drain (·.collect ino .extentData wanted) (deleteExtent removes)) v
  := freesOnce_iff_freesNothing fun _ _ _ hv hw =>
    hv.drain_deleteExtent (fun _ _ hi => (mem_collect hi).1) hw

/-- The three loops over extents, with what each of them wants. -/
theorem drain_deleteExtent_freesNothing
    (h : ∀ i ∈ v.items, (i.ofIno ino .extentData && wanted i) = true → Removable removes v i) :
  FreesNothing (drain (·.collect ino .extentData wanted) (deleteExtent removes)) v
  := by
  refine freesNothing_of_ready h fun d n hd hready => ⟨n + 1, ?_⟩
  refine hready.drain_deleteExtent hd (fun u _ i hi => ?_) (Nat.lt_succ_self n)
  obtain ⟨hmem, hof, hwanted⟩ := mem_collect hi
  exact ⟨hmem, by simp [hof, hwanted]⟩

/-- The items that the deletion of the attributes of an inode deletes, the inode items apart. -/
def OfXattrs (v : Volume) (ino : ℕ) (i : Item) : Prop :=
  i.ofIno ino .xattrItem = true ∨ ∃ x ∈ v.items, x.ofIno ino .xattrItem = true ∧
    ∃ ref, x.ref = some ref ∧ i.ofIno ref .extentData = true

/-- The loop over attributes contains one over extents. -/
theorem deleteAllXattrs_freesNothing (h : ∀ i ∈ v.items, OfXattrs v ino i → Removable removes v i) :
  FreesNothing (deleteAllXattrs removes ino) v
  := by
  classical
  refine freesNothing_of_ready h fun d n hd hready => ⟨n + 1, ?_⟩
  refine hready.drain (fun u _ i hi => ?_) (fun i hi hs m hm u hu => ?_) (Nat.lt_succ_self n)
  · obtain ⟨hmem, hof, -⟩ := mem_collect hi
    exact ⟨hmem, .inl hof⟩
  · refine hu.deleteXattr hd hs (fun ref href j _ hj => .inr ⟨i, hi, ?_, ref, href, hj⟩)
      (Nat.lt_succ_of_le hm)
    obtain hof | ⟨-, -, -, ref', -, hof⟩ := hs
    · exact hof
    · cases i with
      | xattr => simp [Item.ofIno, Item.key] at hof
      | extent => cases href
      | other => cases href

end

/-- A file with one block. -/
def oneBlock : Volume :=
  { separators := []
    leaf := fun n => if n = 0 then [.other (inodeKey 7), .extent 7 0 ⟨extentRegular, 4096 * 9, 4096⟩] else []
    attempts := fun _ => 0
    freed := []
    routed := by
      intro n hn i _
      rw [Nat.le_zero.mp hn]
      rfl
    distinct := by
      intro n
      by_cases hn : n = 0
      · rw [if_pos hn]
        decide
      · rw [if_neg hn]
        exact List.nodup_nil }

end SaltyOS.Fs.Extents
