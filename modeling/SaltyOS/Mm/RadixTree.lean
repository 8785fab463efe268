import Mathlib.Data.Nat.Notation
import Mathlib.Logic.Function.Basic

/-!
# Radix trees

A radix tree maps page indices to values. Its nodes are pages of 512 words, and the tree grows at the
root. A tree is given here by its nodes, each with the address that the allocator gave it, and the
allocator may fail at every call.
-/

open Function

namespace SaltyOS.Radix

/-! ## Nodes -/

/-- An allocator of nodes, by the answers to its calls, with `none` for a null pointer. It records
the nodes that it gave and those that were freed. -/
structure NodeAllocator where
  answers : ℕ → Option ℕ
  calls : ℕ := 0
  given : List ℕ := []
  freed : List ℕ := []

namespace NodeAllocator

/-- The allocator answers with a zeroed page or with a null pointer. -/
def allocNode (a : NodeAllocator) : Option ℕ × NodeAllocator :=
  (a.answers a.calls,
    { a with calls := a.calls + 1, given := (a.answers a.calls).toList ++ a.given })

def freeNode (a : NodeAllocator) (ptr : ℕ) : NodeAllocator :=
  { a with freed := ptr :: a.freed }

end NodeAllocator

/-- A word of a node at level `l + 1`. At level `0` the word is a value, with `0` for none. Above, it
is a null pointer or points to a node at level `l`, of which the address and the words are given. -/
inductive Entry : ℕ → Type
  | value (v : ℕ) : Entry 0
  | null {l : ℕ} : Entry (l + 1)
  | node {l : ℕ} (addr : ℕ) (words : ℕ → Entry l) : Entry (l + 1)

def entriesPerNode : ℕ := 512

def bitsPerLevel : ℕ := 9

def maxLevels : ℕ := 4

/-- The page indices below it fit in a tree of maximal depth. -/
def maxIndex : ℕ := 1 <<< (maxLevels * bitsPerLevel)

/-- The word that selects the page index in a node at a level. -/
def levelIndex (pageIdx level : ℕ) : ℕ :=
  (pageIdx >>> ((level - 1) * bitsPerLevel)) &&& (entriesPerNode - 1)

namespace Entry

/-- A word of a zeroed page. -/
def zero : (l : ℕ) → Entry l
  | 0 => .value 0
  | _ + 1 => .null

/-- A pointer to a zeroed page. -/
def fresh (addr : ℕ) : (l : ℕ) → Entry l
  | 0 => .value 0
  | l + 1 => .node addr fun _ => .zero l

def isNull {l : ℕ} : Entry l → Bool
  | .value v => v == 0
  | .null => true
  | .node _ _ => false

/-- Follow the page index down to its value. -/
def get (pageIdx : ℕ) : {l : ℕ} → Entry l → ℕ
  | _, .value v => v
  | _, .null => 0
  | l + 1, .node _ words => (words (levelIndex pageIdx (l + 1))).get pageIdx

/-- Follow the page index down and clear its value. -/
def remove (pageIdx : ℕ) : {l : ℕ} → Entry l → Entry l
  | _, .value _ => .value 0
  | _, .null => .null
  | l + 1, .node addr words =>
    let idx := levelIndex pageIdx (l + 1)
    .node addr (update words idx ((words idx).remove pageIdx))

/-- The node that a word points to, which is allocated if there is none. -/
def child {l : ℕ} (a : NodeAllocator) : Entry (l + 1) → Option (ℕ × (ℕ → Entry l)) × NodeAllocator
  | .node addr words => (some (addr, words), a)
  | .null =>
    match a.allocNode with
    | (none, a) => (none, a)
    | (some addr, a) => (some (addr, fun _ => .zero l), a)

/-- Follow the page index down, allocating nodes on the way, and change its value to `f` of it. There
is no result if a node could not be allocated. -/
def walk {ρ : Type} (pageIdx : ℕ) (f : ℕ → ρ × ℕ) :
    (l : ℕ) → Entry l → NodeAllocator → Option ρ × Entry l × NodeAllocator
  | 0, .value v, a => (some (f v).1, .value (f v).2, a)
  | l + 1, e, a =>
    match e.child a with
    | (none, a) => (none, e, a)
    | (some (addr, words), a) =>
      let idx := levelIndex pageIdx (l + 1)
      let r := walk pageIdx f l (words idx) a
      (r.1, .node addr (update words idx r.2.1), r.2.2)

/-- The calls `f(page_idx, value)` for the values below a word, in order. -/
def forEachNode : {l : ℕ} → Entry l → ℕ → List (ℕ × ℕ)
  | _, .value v, base => if v = 0 then [] else [(base, v)]
  | _, .null, _ => []
  | l + 1, .node _ words, base =>
    (List.range entriesPerNode).flatMap fun i =>
      (words i).forEachNode (base ||| i <<< (l * bitsPerLevel))

/-- Free the nodes below a word, and then the node that it points to. -/
def destroyNode : {l : ℕ} → Entry l → NodeAllocator → NodeAllocator
  | _, .value _, a => a
  | _, .null, a => a
  | _, .node addr words, a =>
    ((List.range entriesPerNode).foldl (fun a i => (words i).destroyNode a) a).freeNode addr

end Entry

/-! ## Trees -/

/-- A tree with its depth and the pointer to its root, which is null if the depth is `0`. -/
structure RadixTree where
  depth : ℕ
  root : Entry depth

namespace RadixTree

def empty : RadixTree := ⟨0, .value 0⟩

/-- The loop of `depth_for_index`, which stops at the maximal depth. -/
def depthLoop (maxIdx : ℕ) : ℕ → ℕ → ℕ
  | 0, d => d
  | n + 1, d => if maxIdx ≥ 1 <<< (d * bitsPerLevel) then depthLoop maxIdx n (d + 1) else d

def depthForIndex (maxIdx : ℕ) : ℕ :=
  if maxIdx = 0 then 1 else depthLoop maxIdx (maxLevels - 1) 1

/-- Put new roots above the root. A null root is the word that the new node holds already. -/
def growDepth : ℕ → RadixTree → NodeAllocator → Bool × RadixTree × NodeAllocator
  | 0, t, a => (true, t, a)
  | n + 1, t, a =>
    match a.allocNode with
    | (none, a) => (false, t, a)
    | (some addr, a) =>
      growDepth n ⟨t.depth + 1, .node addr (update (fun _ => .zero t.depth) 0 t.root)⟩ a

/-- Allocate a root if there is none. -/
def ensureRoot (needed : ℕ) (t : RadixTree) (a : NodeAllocator) :
    Bool × RadixTree × NodeAllocator :=
  if t.root.isNull then
    match a.allocNode with
    | (none, a) => (false, t, a)
    | (some addr, a) => (true, ⟨needed, .fresh addr needed⟩, a)
  else (true, t, a)

/-- What `insert` and `reserve_slot` share: the path to the page index is made, and its value is
changed to `f` of it. -/
def modify {ρ : Type} (t : RadixTree) (pageIdx : ℕ) (f : ℕ → ρ × ℕ) (a : NodeAllocator) :
    Option ρ × RadixTree × NodeAllocator :=
  if pageIdx ≥ maxIndex then (none, t, a)
  else
    let needed := depthForIndex pageIdx
    match t.growDepth (needed - t.depth) a with
    | (false, t, a) => (none, t, a)
    | (true, t, a) =>
      match t.ensureRoot needed a with
      | (false, t, a) => (none, t, a)
      | (true, t, a) =>
        let r := Entry.walk pageIdx f t.depth t.root a
        (r.1, ⟨t.depth, r.2.1⟩, r.2.2)

def get (t : RadixTree) (pageIdx : ℕ) : ℕ :=
  if t.root.isNull || t.depth == 0 then 0
  else if pageIdx ≥ 1 <<< (t.depth * bitsPerLevel) then 0
  else t.root.get pageIdx

def remove (t : RadixTree) (pageIdx : ℕ) : RadixTree :=
  if t.root.isNull || t.depth == 0 then t
  else if pageIdx ≥ 1 <<< (t.depth * bitsPerLevel) then t
  else ⟨t.depth, t.root.remove pageIdx⟩

def forEach (t : RadixTree) : List (ℕ × ℕ) :=
  if t.root.isNull || t.depth == 0 then [] else t.root.forEachNode 0

def destroy (t : RadixTree) (a : NodeAllocator) : RadixTree × NodeAllocator :=
  if !t.root.isNull && t.depth > 0 then (.empty, t.root.destroyNode a) else (t, a)

/-- The nodes that `destroy` frees, in its order. -/
def destroyed (t : RadixTree) : List ℕ :=
  (t.destroy { answers := fun _ => none }).2.freed.reverse

/-- `insert`, with whether it succeeded. -/
def insert (t : RadixTree) (pageIdx value : ℕ) (a : NodeAllocator) :
    Bool × RadixTree × NodeAllocator :=
  let r := t.modify pageIdx (fun _ => ((), value)) a
  (r.1.isSome, r.2)

/-- What `reserve_slot` does with the value of its index. -/
def reserve (busySentinel existing : ℕ) : Bool × ℕ :=
  if existing ≠ 0 then (false, existing) else (true, busySentinel)

/-- `reserve_slot`. There is no result if a node could not be allocated. -/
def reserveSlot (t : RadixTree) (pageIdx busySentinel : ℕ) (a : NodeAllocator) :
    Option Bool × RadixTree × NodeAllocator :=
  t.modify pageIdx (reserve busySentinel) a

end RadixTree

end SaltyOS.Radix
