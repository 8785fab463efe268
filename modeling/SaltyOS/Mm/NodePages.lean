import Mathlib.Data.Finset.Card
import Mathlib.Data.Finset.Range
import SaltyOS.Lib.Prog
import SaltyOS.Mm.Frame

/-!
# Pages of nodes

`PmmNodeAllocator` takes pages from the frame allocator and gives them back. A page from the emergency
reserve keeps the owner that it has in the reserve, and then it cannot be given back.
-/

namespace SaltyOS

open Function FrameAllocator

/-- The owner that the pages get, and whether the reserve may be used. -/
structure PmmNodeAllocator where
  owner : FrameOwner
  useReserve : Bool
  deriving DecidableEq

namespace PmmNodeAllocator

variable (a : PmmNodeAllocator) (pmm : FrameAllocator)

/-- `alloc_node`, with the physical address of the page. -/
def allocNode : Option (PhysAddr × FrameAllocator) :=
  match pmm.alloc with
  | some (phys, pmm) => some (phys, pmm.setOwner phys a.owner)
  | none => if a.useReserve then pmm.allocReserve else none

/-- `free_node`. There is no result when the kernel panics. -/
def freeNode (phys : PhysAddr) : Option FrameAllocator := pmm.freeOwned phys a.owner

/-- The reserve is not used: the allocator may not use it, or it is empty, or a frame is free. -/
def FromPool : Prop :=
  a.useReserve = false ∨ pmm.reserve = [] ∨ ∃ frame < pmm.total, pmm.bitmap frame = true

end PmmNodeAllocator

/-- The frame allocator and the pages that are held, with the allocators they came from. -/
structure NodePages where
  pmm : FrameAllocator
  held : List (PmmNodeAllocator × PhysAddr)

/-- The free frames. -/
def FrameAllocator.freeFrames (pmm : FrameAllocator) : Finset ℕ :=
  {frame ∈ Finset.range pmm.total | pmm.bitmap frame = true}

@[simp]
theorem FrameAllocator.mem_freeFrames {pmm : FrameAllocator} {frame : ℕ} :
  frame ∈ pmm.freeFrames ↔ frame < pmm.total ∧ pmm.bitmap frame = true
  := by
  rw [freeFrames, Finset.mem_filter, Finset.mem_range]

namespace NodePages

/-- A page is allocated, or a page that is held is freed. -/
inductive Step (C : PmmNodeAllocator → FrameAllocator → Prop) : NodePages → NodePages → Prop
  | alloc {s a phys pmm} : C a s.pmm → a.allocNode s.pmm = some (phys, pmm) →
      Step C s ⟨pmm, (a, phys) :: s.held⟩
  | free {s a phys pmm} : (a, phys) ∈ s.held → a.freeNode s.pmm phys = some pmm →
      Step C s ⟨pmm, s.held.erase (a, phys)⟩

/-- A page is in use, and its frame has the owner that its allocator gave it. -/
def Owned (pmm : FrameAllocator) (x : PmmNodeAllocator × PhysAddr) : Prop :=
  pageSize ∣ x.2 ∧ x.2 / pageSize < pmm.total ∧ pmm.bitmap (x.2 / pageSize) = false ∧
    (pmm.trackingReady (x.2 / pageSize) = true → pmm.owner (x.2 / pageSize) = x.1.owner)

/-- The pages that are held are disjoint, and `total` pages are held, free or in the reserve. -/
structure Sound (total : ℕ) (s : NodePages) : Prop where
  owned : ∀ x ∈ s.held, Owned s.pmm x
  disjoint : s.held.Pairwise fun x y => x.2 / pageSize ≠ y.2 / pageSize
  count : s.pmm.freeFrames.card + s.pmm.reserve.length + s.held.length = total

variable {s t : NodePages} {total : ℕ}

/-- An allocation takes a free frame, if there is one. -/
theorem alloc_cases (pmm : FrameAllocator) :
  (pmm.alloc = none ∧ ∀ frame < pmm.total, pmm.bitmap frame = false) ∨
    ∃ frame < pmm.total, pmm.bitmap frame = true ∧
      pmm.alloc = some (frame * pageSize, pmm.markFrameAllocated frame)
  := by
  obtain ⟨split, hsplit, hnext⟩ : ∃ split ≤ pmm.total, pmm.nextFrame =
      (List.range' split (pmm.total - split) ++ List.range' 0 split).find? pmm.bitmap := by
    refine ⟨min pmm.nextFree pmm.total, min_le_right .., ?_⟩
    rw [List.find?_append, nextFrame, findFreeFrameInRange, findFreeFrameInRange]
    split
    next h => rw [h, Option.some_or]
    next h => rw [h, Option.none_or]; rfl
  have hmem (frame : ℕ) :
      frame ∈ List.range' split (pmm.total - split) ++ List.range' 0 split ↔ frame < pmm.total := by
    rw [List.mem_append, List.mem_range'_1, List.mem_range'_1]
    omega
  unfold FrameAllocator.alloc
  cases hfind : pmm.nextFrame with
  | none =>
    rw [hnext, List.find?_eq_none] at hfind
    exact .inl ⟨rfl, fun frame hlt => eq_false_of_ne_true (hfind frame ((hmem frame).2 hlt))⟩
  | some frame =>
    rw [hnext] at hfind
    exact .inr ⟨frame, (hmem frame).1 (List.mem_of_find?_eq_some hfind), List.find?_some hfind, rfl⟩

/-- A frame changes hands. -/
def handOver (pmm : FrameAllocator) (frame : ℕ) (isFree : Bool) (owner : FrameOwner) (nextFree : ℕ) :
    FrameAllocator :=
  { pmm with
    bitmap := update pmm.bitmap frame isFree
    owner := if pmm.trackingReady frame then update pmm.owner frame owner else pmm.owner
    nextFree }

section

variable {pmm : FrameAllocator} {frame : ℕ}

/-- `pmm_alloc` sets the owner of the frame that it marks. -/
theorem setOwner_markFrameAllocated (hlt : frame < pmm.total) (owner : FrameOwner) :
  (pmm.markFrameAllocated frame).setOwner (frame * pageSize) owner =
    handOver pmm frame false owner (frame + 1)
  := by
  unfold setOwner markFrameAllocated handOver
  rw [Nat.mul_div_cancel _ (by decide)]
  by_cases htracked : frame < pmm.metaLen
  · simp [trackingReady, hlt, htracked]
  · simp [trackingReady, htracked]

/-- The pages that are held keep their owner when another frame changes hands. -/
theorem Owned.handOver {x : PmmNodeAllocator × PhysAddr} (h : Owned pmm x) (hne : x.2 / pageSize ≠ frame)
    (isFree : Bool) (owner : FrameOwner) (nextFree : ℕ) :
  Owned (handOver pmm frame isFree owner nextFree) x
  := by
  obtain ⟨haligned, hlt, hused, howner⟩ := h
  refine ⟨haligned, hlt, (update_of_ne hne ..).trans hused, fun htracked => ?_⟩
  unfold NodePages.handOver
  dsimp only
  split
  · rw [update_of_ne hne, howner htracked]
  · exact howner htracked

end

/-- A frame is handed out by the frame allocator. -/
theorem Sound.alloc (h : Sound total s) {frame : ℕ} (hlt : frame < s.pmm.total)
    (hfree : s.pmm.bitmap frame = true) (a : PmmNodeAllocator) :
  Sound total ⟨handOver s.pmm frame false a.owner (frame + 1), (a, frame * pageSize) :: s.held⟩
  := by
  have hframe : frame * pageSize / pageSize = frame := Nat.mul_div_cancel _ (by decide)
  have hne {x} (hx : x ∈ s.held) : x.2 / pageSize ≠ frame := by
    rintro rfl
    rw [(h.owned x hx).2.2.1] at hfree
    cases hfree
  have hcard : (handOver s.pmm frame false a.owner (frame + 1)).freeFrames =
      s.pmm.freeFrames.erase frame := by
    ext i
    rcases eq_or_ne i frame with rfl | hi <;> simp [handOver, *]
  have herase := Finset.card_erase_add_one (mem_freeFrames.2 ⟨hlt, hfree⟩)
  have hcount := h.count
  refine ⟨fun x hx => ?_, ?_, ?_⟩
  · obtain rfl | hx := List.mem_cons.1 hx
    · refine ⟨Nat.dvd_mul_left .., ?_⟩
      rw [hframe]
      exact ⟨hlt, update_self .., fun htracked => (congrFun (if_pos htracked) frame).trans (update_self ..)⟩
    · exact (h.owned x hx).handOver (hne hx) ..
  · refine List.pairwise_cons.2 ⟨fun x hx => ?_, h.disjoint⟩
    rw [hframe]
    exact (hne hx).symm
  · rw [hcard, List.length_cons]
    change _ + s.pmm.reserve.length + _ = _
    omega

/-- A page that is held can be freed. -/
theorem Sound.free (h : Sound total s) {a : PmmNodeAllocator} {phys : PhysAddr} (hmem : (a, phys) ∈ s.held) :
  ∃ pmm, a.freeNode s.pmm phys = some pmm ∧ Sound total ⟨pmm, s.held.erase (a, phys)⟩
  := by
  obtain ⟨haligned, hlt, hused, howner⟩ := h.owned _ hmem
  have hnode : a.freeNode s.pmm phys = some (handOver s.pmm (phys / pageSize) true .free
      (min (phys / pageSize) s.pmm.nextFree)) := by
    unfold PmmNodeAllocator.freeNode freeOwned
    rw [if_pos hlt, if_neg fun hbad => hbad.2 (howner hbad.1), freeInternal, if_neg (by simp [hused])]
    rfl
  have hne {x} (hx : x ∈ s.held.erase (a, phys)) : x.2 / pageSize ≠ phys / pageSize := by
    have hperm := (List.perm_cons_erase hmem).pairwise_iff (fun h => h.symm) |>.1 h.disjoint
    exact ((List.pairwise_cons.1 hperm).1 x hx).symm
  have hcard : (handOver s.pmm (phys / pageSize) true .free
      (min (phys / pageSize) s.pmm.nextFree)).freeFrames = insert (phys / pageSize) s.pmm.freeFrames := by
    ext i
    rcases eq_or_ne i (phys / pageSize) with rfl | hi <;> simp [handOver, *]
  have hinsert := Finset.card_insert_of_notMem (a := phys / pageSize) (s := s.pmm.freeFrames)
    (by simp [hused])
  have hcount := h.count
  refine ⟨_, hnode, fun x hx => ?_, ?_, ?_⟩
  · exact (h.owned x (List.mem_of_mem_erase hx)).handOver (hne hx) ..
  · exact h.disjoint.sublist List.erase_sublist
  · rw [hcard, List.length_erase_of_mem hmem]
    have hpos := List.length_pos_of_mem hmem
    change _ + s.pmm.reserve.length + _ = _
    omega

/-- A step that does not use the reserve. -/
theorem Sound.step (h : Sound total s) (hstep : Step PmmNodeAllocator.FromPool s t) :
  Sound total t
  := by
  cases hstep with
  | alloc hpool halloc =>
    unfold PmmNodeAllocator.allocNode at halloc
    obtain ⟨hnone, hused⟩ | ⟨frame, hlt, hfree, hsome⟩ := alloc_cases s.pmm
    · rw [hnone] at halloc
      obtain hno | hempty | ⟨frame, hlt, hfree⟩ := hpool
      · simp [hno] at halloc
      · simp [allocReserve, hempty] at halloc
      · rw [hused frame hlt] at hfree
        cases hfree
    · rw [hsome] at halloc
      cases halloc
      rw [setOwner_markFrameAllocated hlt]
      exact h.alloc hlt hfree _
  | free hmem hfree =>
    obtain ⟨pmm, hpmm, hsound⟩ := h.free hmem
    cases hpmm.symm.trans hfree
    exact hsound

/-- Three frames, the first of which is in use. -/
def threeFrames : FrameAllocator := ⟨fun frame => frame != 0, 0, 3, fun _ => .free, 3, []⟩

/-- The allocator of a fault handler. -/
def faultNodes : PmmNodeAllocator := ⟨.kernelPrivate .mapleNode, true⟩

end NodePages

end SaltyOS
