import SaltyOS.Mm.Frame
import SaltyOS.Mm.RadixTree

/-!
# Memory objects

A memory object keeps its pages in a radix tree of page-sized nodes, remembers which address spaces
map it in its reverse maps, and may be a copy-on-write child of another memory object. The file
contains the data of memory objects and the functions that only look at one object.
-/

namespace SaltyOS

/-! ## Page entries

A leaf of the radix tree holds a page-aligned physical address with tags in its low bits. Bit 0 says
that the page comes from an untyped region, bit 1 that a commit is in progress. -/

/-- The entry is the sentinel of a commit in progress. -/
def entryBusy (entry : ℕ) : Bool := entry / 2 % 2 == 1

/-- The entry is a page from an untyped region. -/
def entryUntyped (entry : ℕ) : Bool := entry % 2 == 1

/-- The physical address of an entry. -/
def entryPhys (entry : ℕ) : PhysAddr := entry / pageSize * pageSize

/-- The entry holds a page. -/
def entryPage (entry : ℕ) : Bool := !entryBusy entry && entryPhys entry != 0

/-! ## Reverse maps -/

/-- An address space that maps a range of pages of the object. -/
structure ReverseMapEntry where
  vspace : ObjPtr
  vaStart : VirtAddr
  pageCount : ℕ
  moOffset : ℕ
  perms : ℕ
  deriving DecidableEq, Repr

/-- An overflow page: the frame it is stored in and its entries. -/
structure ReverseMapPage where
  phys : PhysAddr
  entries : List (Option ReverseMapEntry)
  deriving DecidableEq

/-- The reverse maps of a memory object: the entries stored in the object and the overflow pages,
most recent page first. -/
structure ReverseMaps where
  inline : List ReverseMapEntry
  overflow : List ReverseMapPage
  deriving DecidableEq

namespace ReverseMaps

/-- Reverse maps with no entries. -/
def new : ReverseMaps := { inline := [], overflow := [] }

/-- The entry is the mapping of the address space at the address. -/
def matchesMapping (vspace : ObjPtr) (vaStart : VirtAddr) (entry : ReverseMapEntry) : Bool :=
  entry.vspace == vspace && entry.vaStart == vaStart

/-- Replace the first entry that satisfies the test. -/
def updateFirst {α : Type} (test : α → Bool) (value : α) : List α → List α
  | [] => []
  | x :: xs => if test x then value :: xs else x :: updateFirst test value xs

/-- Replace the first entry of the overflow pages that satisfies the test. -/
def updateOverflow (test : Option ReverseMapEntry → Bool) (value : Option ReverseMapEntry) :
    List ReverseMapPage → List ReverseMapPage
  | [] => []
  | page :: pages =>
    if page.entries.any test then
      { page with entries := updateFirst test value page.entries } :: pages
    else page :: updateOverflow test value pages

/-- Remove the entry of a mapping. -/
def remove (self : ReverseMaps) (vspace : ObjPtr) (vaStart : VirtAddr) : ReverseMaps :=
  if self.inline.any (matchesMapping vspace vaStart) then
    { self with inline := self.inline.eraseP (matchesMapping vspace vaStart) }
  else
    { self with
      overflow := updateOverflow (fun e => e.any (matchesMapping vspace vaStart)) none self.overflow }

/-- The entries that name an address space. -/
def entries (self : ReverseMaps) : List ReverseMapEntry :=
  (self.inline ++ self.overflow.flatMap fun page => page.entries.filterMap id).filter
    fun entry => entry.vspace != .null

end ReverseMaps

/-! ## Memory objects -/

/-- The kinds of memory objects. -/
inductive MoKind where
  | anon
  | cowChild
  | fileBacked
  | shm
  deriving DecidableEq, Repr

/-- A memory object. The slot `cowParent` holds a capability to the parent, with `0` for none. -/
structure MemoryObject where
  kind : MoKind
  pageCount : ℕ
  pages : Radix.RadixTree
  reverseMaps : ReverseMaps
  cowParent : CapSlot
  firstChild : ObjPtr
  nextSibling : ObjPtr
  untypedPhys : PhysAddr

namespace MemoryObject

/-- A memory object with no pages. -/
def new (phys : PhysAddr) (pageCount : ℕ) : MemoryObject :=
  { kind := .anon, pageCount, pages := .empty, reverseMaps := ReverseMaps.new,
    cowParent := 0, firstChild := .null, nextSibling := .null, untypedPhys := phys }

end MemoryObject

end SaltyOS
