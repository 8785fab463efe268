import SaltyOS.Mm.Frame

/-!
# Address spaces

The page tables of an address space and the record of what is mapped in it. Only four-kilobyte
pages are mapped.
-/

namespace SaltyOS

/-- A page table entry. -/
structure Pte where
  present : Bool
  writable : Bool
  user : Bool
  writeThrough : Bool
  cacheDisable : Bool
  cow : Bool
  demand : Bool
  noExecute : Bool
  addr : PhysAddr
  deriving DecidableEq, Repr

/-- The entry with all bits clear. -/
def Pte.zero : Pte :=
  { present := false, writable := false, user := false, writeThrough := false,
    cacheDisable := false, cow := false, demand := false, noExecute := false, addr := 0 }

/-- A mapped range of pages of a memory object. -/
structure VmArea where
  mo : ObjPtr
  moOffset : ℕ
  pageCount : ℕ
  perms : ℕ
  deriving DecidableEq, Repr

/-- The index of the page of a virtual address. Bits above the forty-eighth do not take part in the
walk of the page tables. -/
def vpn (vaddr : VirtAddr) : ℕ := vaddr / pageSize % 2 ^ 36

/-- An address space. `table l i` is the frame of the page table at level `l` for the pages
`512 ^ l * i` up to `512 ^ l * (i + 1)`, for the levels `1`, `2` and `3`. The mappings are ordered by
their first address. -/
structure VSpace where
  root : PhysAddr
  tracking : Bool
  table : ℕ → ℕ → Option PhysAddr
  pte : ℕ → Pte
  mappings : List (VirtAddr × VmArea)

namespace VSpace

/-- An address space in which nothing is mapped. -/
def new (root : PhysAddr) : VSpace :=
  { root, tracking := true, table := fun _ _ => none, pte := fun _ => Pte.zero, mappings := [] }

/-- The page tables for the address exist at all levels. -/
def hasTables (self : VSpace) (vaddr : VirtAddr) : Bool :=
  (self.table 3 (vpn vaddr / 512 ^ 3)).isSome && (self.table 2 (vpn vaddr / 512 ^ 2)).isSome &&
    (self.table 1 (vpn vaddr / 512)).isSome

/-- The page table entry for an address. -/
def readEntry (self : VSpace) (vaddr : VirtAddr) : Option Pte :=
  if self.hasTables vaddr then some (self.pte (vpn vaddr)) else none

/-- Write the page table entry for an address, if its page tables exist. -/
def writeEntry (self : VSpace) (vaddr : VirtAddr) (entry : Pte) : Option VSpace :=
  if self.hasTables vaddr then
    some { self with pte := Function.update self.pte (vpn vaddr) entry }
  else none

end VSpace

end SaltyOS
