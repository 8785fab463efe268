import Mathlib.Algebra.Group.Nat.Defs
import Mathlib.Data.List.Basic

/-!
# The regions of a client

The memory server keeps the regions of a client in an array that grows.  This module models the
functions that cut regions: `remove_client_range` and `mprotect_client_range`.

An address is a number below `2 ^ 64`; sums that the source checks are checked here.  `buffer` numbers
the arrays that a client has had.  A loop over the regions holds a pointer into the array it began with,
so an array that is replaced during the loop is a `fault`, which is not a result of the source.  The
fields of a region that are only copied along are left out.
-/

namespace SaltyOS.Mmsrv

/-- `MmRegion`. -/
structure MmRegion where
  base : ℕ
  length : ℕ
  prot : ℕ
  active : Bool
  moCap : ℕ
  moOffset : ℕ
  backingFileOffset : ℕ
  deriving DecidableEq, Repr

/-- `MmRegion::zeroed`. -/
def MmRegion.zeroed : MmRegion where
  base := 0
  length := 0
  prot := 0
  active := false
  moCap := 0
  moOffset := 0
  backingFileOffset := 0

/-- The regions of `MmClient`. -/
structure Client where
  regions : List MmRegion
  cap : ℕ
  buffer : ℕ
  deriving DecidableEq, Repr

/-- The results. -/
inductive Status where
  | ok
  | invalidArgument
  | outOfMemory
  | fault
  deriving DecidableEq, Repr

/-- A sum of 64-bit numbers, if it does not overflow. -/
def checkedAdd (a b : ℕ) : Option ℕ := if a + b < 2 ^ 64 then some (a + b) else none

/-- `checked_mo_offset_add`. -/
def checkedMoOffsetAdd (base deltaBytes : ℕ) : Option ℕ :=
  if base + deltaBytes / 4096 < 2 ^ 32 then some (base + deltaBytes / 4096) else none

/-- The size of an `MmRegion` in bytes. -/
def regionSize : ℕ := 72

namespace Client

/-- The capacity, doubled until it is large enough. Sixty-four doublings reach `2 ^ 64`. -/
def doubled (required : ℕ) : (fuel cap : ℕ) → Option ℕ
  | 0, cap => if cap < required then none else some cap
  | fuel + 1, cap =>
    if cap < required then
      if cap * 2 < 2 ^ 64 then doubled required fuel (cap * 2) else none
    else some cap

/-- `client_reserve_regions`. `alloc` says whether the allocation of the next array succeeds. -/
def clientReserveRegions (alloc : ℕ → Bool) (c : Client) (additional : ℕ) : Option Client :=
  match checkedAdd c.regions.length additional with
  | none => none
  | some required =>
    if required ≤ c.cap then some c
    else
      match doubled required 64 (if c.cap = 0 then 8 else c.cap) with
      | none => none
      | some newCap =>
        if newCap * regionSize < 2 ^ 64 ∧ alloc c.buffer then
          some { c with cap := newCap, buffer := c.buffer + 1 }
        else none

/-- `client_add_region`: the client with a new region at the end. -/
def clientAddRegion (alloc : ℕ → Bool) (c : Client) : Option Client :=
  (c.clientReserveRegions alloc 1).map fun c => { c with regions := c.regions ++ [.zeroed] }

/-- Write a region. -/
def setRegion (c : Client) (i : ℕ) (r : MmRegion) : Client :=
  { c with regions := c.regions.set i r }

end Client

/-! ## Counting the regions that are cut -/

/-- The end of a region that is looked at: an active one that is not empty. The inner `none` is an end
that overflows. -/
def liveEnd? (r : MmRegion) : Option (Option ℕ) :=
  if !r.active || r.length == 0 then none else some (checkedAdd r.base r.length)

/-- `count_split_regions_for_removal`. -/
def countSplitRegionsForRemoval (start stop : ℕ) : List MmRegion → Option ℕ
  | [] => some 0
  | r :: rs =>
    match liveEnd? r with
    | none => countSplitRegionsForRemoval start stop rs
    | some none => none
    | some (some rEnd) =>
      (countSplitRegionsForRemoval start stop rs).map fun extra =>
        if r.base ≥ stop ∨ rEnd ≤ start then extra
        else if max r.base start > r.base ∧ min rEnd stop < rEnd then extra + 1
        else extra

/-- `count_split_regions_for_mprotect`. -/
def countSplitRegionsForMprotect (start stop : ℕ) : List MmRegion → Option (ℕ × Bool)
  | [] => some (0, false)
  | r :: rs =>
    match liveEnd? r with
    | none => countSplitRegionsForMprotect start stop rs
    | some none => none
    | some (some rEnd) =>
      (countSplitRegionsForMprotect start stop rs).map fun result =>
        if r.base ≥ stop ∨ rEnd ≤ start then result
        else if max r.base start = r.base ∧ min rEnd stop = rEnd then (result.1, true)
        else if max r.base start = r.base ∨ min rEnd stop = rEnd then (result.1 + 1, true)
        else (result.1 + 2, true)

/-! ## Removing a range -/

/-- A step of a loop: the client, and the result if the function returns. -/
abbrev StepResult : Type := Client × Option Status

/-- The front of a region is removed. -/
def trimFront (c : Client) (i : ℕ) (r : MmRegion) (overlapEnd rEnd : ℕ) : StepResult :=
  let trimmed := { r with base := overlapEnd, length := rEnd - overlapEnd }
  match checkedMoOffsetAdd r.moOffset (overlapEnd - r.base) with
  | none => (c.setRegion i trimmed, some .invalidArgument)
  | some moOffset =>
    match checkedAdd r.backingFileOffset (overlapEnd - r.base) with
    | none => (c.setRegion i { trimmed with moOffset }, some .invalidArgument)
    | some backingFileOffset => (c.setRegion i { trimmed with moOffset, backingFileOffset }, none)

variable (alloc : ℕ → Bool)

/-- The middle of a region is removed. -/
def removeMiddle (c : Client) (i : ℕ) (r : MmRegion) (overlapStart overlapEnd rEnd : ℕ) :
    StepResult :=
  match c.clientAddRegion alloc with
  | none => (c, some .outOfMemory)
  | some c' =>
    if c'.buffer ≠ c.buffer then (c', some .fault)
    else
      let suffix := { r with base := overlapEnd, length := rEnd - overlapEnd }
      match checkedMoOffsetAdd r.moOffset (overlapEnd - r.base) with
      | none => (c'.setRegion c.regions.length suffix, some .invalidArgument)
      | some moOffset =>
        match checkedAdd r.backingFileOffset (overlapEnd - r.base) with
        | none => (c'.setRegion c.regions.length { suffix with moOffset }, some .invalidArgument)
        | some backingFileOffset =>
          ((c'.setRegion c.regions.length { suffix with moOffset, backingFileOffset }).setRegion i
            { r with length := overlapStart - r.base }, none)

/-- The loop body of `remove_client_range` for a region that overlaps the range. -/
def removeOverlap (c : Client) (i : ℕ) (r : MmRegion) (overlapStart overlapEnd rEnd : ℕ) :
    StepResult :=
  if overlapStart = r.base ∧ overlapEnd = rEnd then (c.setRegion i .zeroed, none)
  else if overlapStart = r.base then trimFront c i r overlapEnd rEnd
  else if overlapEnd = rEnd then (c.setRegion i { r with length := overlapStart - r.base }, none)
  else removeMiddle alloc c i r overlapStart overlapEnd rEnd

/-! ## Changing the protection -/

/-- `init_region_fragment`. -/
def initRegionFragment (template : MmRegion) (base length prot deltaBytes : ℕ) : Option MmRegion :=
  match checkedMoOffsetAdd template.moOffset deltaBytes with
  | none => none
  | some moOffset =>
    match checkedAdd template.backingFileOffset deltaBytes with
    | none => none
    | some backingFileOffset =>
      some { template with base, length, prot, active := true, moOffset, backingFileOffset }

/-- Rewrite a region as a fragment of itself. -/
def rewriteFragment (c : Client) (i : ℕ) (template : MmRegion) (base length prot : ℕ) :
    StepResult :=
  match initRegionFragment template base length prot 0 with
  | none => (c, some .invalidArgument)
  | some r => (c.setRegion i r, none)

/-- Add a fragment at the end. -/
def addFragment (c : Client) (template : MmRegion) (base length prot : ℕ) : StepResult :=
  match c.clientAddRegion alloc with
  | none => (c, some .outOfMemory)
  | some c' =>
    if c'.buffer ≠ c.buffer then (c', some .fault)
    else
      match initRegionFragment template base length prot (base - template.base) with
      | none => (c', some .outOfMemory)
      | some r => (c'.setRegion c.regions.length r, none)

/-- Continue with a function unless the step has returned. -/
def StepResult.andThen (s : StepResult) (f : Client → StepResult) : StepResult :=
  match s.2 with
  | none => f s.1
  | some _ => s

/-- The loop body of `mprotect_client_range` for a region that overlaps the range. -/
def protectOverlap (prot : ℕ) (c : Client) (i : ℕ) (r : MmRegion)
    (overlapStart overlapEnd rEnd : ℕ) : StepResult :=
  if overlapStart = r.base ∧ overlapEnd = rEnd then (c.setRegion i { r with prot }, none)
  else if overlapStart = r.base then
    (rewriteFragment c i r r.base (overlapEnd - r.base) prot).andThen fun c =>
      addFragment alloc c r overlapEnd (rEnd - overlapEnd) r.prot
  else if overlapEnd = rEnd then
    (rewriteFragment c i r r.base (overlapStart - r.base) r.prot).andThen fun c =>
      addFragment alloc c r overlapStart (rEnd - overlapStart) prot
  else
    ((rewriteFragment c i r r.base (overlapStart - r.base) r.prot).andThen fun c =>
      addFragment alloc c r overlapStart (overlapEnd - overlapStart) prot).andThen fun c =>
        addFragment alloc c r overlapEnd (rEnd - overlapEnd) r.prot

/-! ## The two functions -/

/-- One turn of the loop over the regions that both functions have: `body` is for a region that overlaps
the range. -/
def loopStep (body : Client → ℕ → MmRegion → ℕ → ℕ → ℕ → StepResult) (start stop : ℕ) (c : Client)
    (i : ℕ) : StepResult :=
  let r := c.regions.getD i .zeroed
  match liveEnd? r with
  | none => (c, none)
  | some none => (c, some .invalidArgument)
  | some (some rEnd) =>
    if r.base ≥ stop ∨ rEnd ≤ start then (c, none)
    else body c i r (max r.base start) (min rEnd stop) rEnd

/-- The loop over the regions from an index on. -/
def loopFrom (body : Client → ℕ → MmRegion → ℕ → ℕ → ℕ → StepResult) (start stop : ℕ) :
    (todo i : ℕ) → Client → Client × Status
  | 0, _, c => (c, .ok)
  | todo + 1, i, c =>
    match loopStep body start stop c i with
    | (c, none) => loopFrom body start stop todo (i + 1) c
    | (c, some status) => (c, status)

/-- `remove_client_range`. Writing back and unmapping do not change the regions. -/
def removeClientRange (c : Client) (start length reserveAdditional : ℕ) : Client × Status :=
  if length = 0 ∨ start % 4096 ≠ 0 ∨ length % 4096 ≠ 0 then (c, .invalidArgument)
  else
    match checkedAdd start length with
    | none => (c, .invalidArgument)
    | some stop =>
      match countSplitRegionsForRemoval start stop c.regions with
      | none => (c, .invalidArgument)
      | some extra =>
        match checkedAdd extra reserveAdditional with
        | none => (c, .outOfMemory)
        | some total =>
          match c.clientReserveRegions alloc total with
          | none => (c, .outOfMemory)
          | some c => loopFrom (removeOverlap alloc) start stop c.regions.length 0 c

/-- `mprotect_client_range`. `protects` says whether the kernel changes the mapped pages. -/
def mprotectClientRange (protects : Bool) (c : Client) (addr length prot : ℕ) : Client × Status :=
  match checkedAdd length 4095 with
  | none => (c, .invalidArgument)
  | some sum =>
    match checkedAdd addr (sum / 4096 * 4096) with
    | none => (c, .invalidArgument)
    | some stop =>
      match countSplitRegionsForMprotect addr stop c.regions with
      | none => (c, .invalidArgument)
      | some (_, false) => (c, .ok)
      | some (extra, true) =>
        match if extra = 0 then some c else c.clientReserveRegions alloc extra with
        | none => (c, .outOfMemory)
        | some c =>
          if protects then loopFrom (protectOverlap alloc prot) addr stop c.regions.length 0 c
          else (c, .invalidArgument)

end SaltyOS.Mmsrv
