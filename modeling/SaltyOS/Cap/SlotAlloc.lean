import Mathlib.Algebra.GroupWithZero.Nat
import Mathlib.Order.Bounds.Basic
import SaltyOS.Cap.Footprint

/-!
# The slot allocator returns the lowest free slot

Along the calls of `alloc_slot` and `free_slot`, all slots below the hint are allocated. So the first pass
of the search finds the lowest free slot, and the second pass never finds any.
-/

namespace SaltyOS

open Function

namespace Kernel

variable (k : Kernel)

/-- `init_slots`. The boot code asks for at most 131072 slots. -/
def initSlots (numSlots : ℕ) : Kernel :=
  { k with
    cap := fun _ => Capability.null
    slotMeta := fun _ => CapSlotMeta.free
    bitmap := fun _ => false
    nextSlot := 0
    numSlots }

/-- `allocated_count`: the ones of all words of the bitmap. -/
def allocatedCount : ℕ :=
  ((List.range ((k.numSlots + 63) / 64)).map fun word =>
    (List.range 64).countP fun bit => k.bitmap (64 * word + bit)).sum

/-- `free_count`: what is left of the slots. -/
def freeCount : ℕ := k.numSlots - k.allocatedCount

/-- The bitmap and the metadata agree, and the hint is not above a free slot. -/
structure SlotsOk : Prop where
  next_le : k.nextSlot ≤ k.numSlots
  below : ∀ s < k.nextSlot, k.bitmap s = true
  outside : ∀ s, k.numSlots ≤ s → k.bitmap s = false
  state : ∀ s, (k.slotMeta s).state = .occupied ↔ k.bitmap s = true

variable {k}

theorem slotsOk_initSlots (n : ℕ) :
  (k.initSlots n).SlotsOk
  := ⟨n.zero_le, nofun, fun _ _ => rfl, fun _ => ⟨nofun, nofun⟩⟩

section

variable (h : k.SlotsOk)
include h

/-- The first pass of the search finds what a search from `0` finds, and the second pass nothing. -/
theorem SlotsOk.findSlot_eq :
  k.findSlot = (List.range k.numSlots).find? fun i => !k.bitmap i
  := by
  have hbelow : (List.range k.nextSlot).find? (fun i => !k.bitmap i) = none := by
    rw [List.find?_range_eq_none]
    intro i hi
    simp [h.below i hi]
  have hsplit : List.range k.numSlots =
      List.range k.nextSlot ++ List.range' k.nextSlot (k.numSlots - k.nextSlot) := by
    have := @List.range'_append 0 k.nextSlot (k.numSlots - k.nextSlot) 1
    rw [Nat.add_sub_cancel' h.next_le, Nat.one_mul, Nat.zero_add] at this
    rw [List.range_eq_range', List.range_eq_range', this]
  rw [hsplit, List.find?_append, hbelow, Option.none_or, findSlot, hbelow]
  split
  next hfind => rw [hfind]
  next hfind => rw [hfind]

theorem SlotsOk.takeSlot {s : CapSlot} (hs : k.findSlot = some s) :
  (k.takeSlot s).SlotsOk
  := by
  rw [h.findSlot_eq, List.find?_range_eq_some, List.mem_range] at hs
  obtain ⟨_, hlt, hleast⟩ := hs
  refine ⟨hlt, fun t ht => ?_, fun t ht => ?_, fun t => ?_⟩
  · rcases eq_or_ne t s with rfl | hts
    · exact update_self ..
    · have := hleast t (lt_of_le_of_ne (Nat.le_of_lt_succ ht) hts)
      simpa [Kernel.takeSlot, hts] using this
  · exact (update_of_ne (hlt.trans_le ht).ne' ..).trans (h.outside t ht)
  · rcases eq_or_ne t s with rfl | hts
    · simp [Kernel.takeSlot, CapSlotMeta.occupied, CapSlotMeta.unlinked]
    · simpa [Kernel.takeSlot, hts] using h.state t

theorem SlotsOk.freeSlot (s : CapSlot) :
  (k.freeSlot s).SlotsOk
  := by
  unfold Kernel.freeSlot
  split
  · refine ⟨(min_le_right ..).trans h.next_le, fun t ht => ?_, fun t ht => ?_, fun t => ?_⟩
    · obtain ⟨hts, hnext⟩ := Nat.lt_min.1 ht
      exact (update_of_ne hts.ne ..).trans (h.below t hnext)
    · simp only [update_apply, h.outside t ht, ite_self]
    · rcases eq_or_ne t s with rfl | hts
      · simp [CapSlotMeta.free, CapSlotMeta.unlinked]
      · simpa [hts] using h.state t
  · exact h

/-- The words of the bitmap have no other ones than those of the slots. -/
theorem SlotsOk.allocatedCount_eq :
  k.allocatedCount = (List.range k.numSlots).countP k.bitmap
  := by
  have hwords (words : ℕ) : ((List.range words).map fun word =>
      (List.range 64).countP fun bit => k.bitmap (64 * word + bit)).sum =
      (List.range (64 * words)).countP k.bitmap := by
    induction words with
    | zero => rfl
    | succ words ih =>
      have hword : List.range (64 * words + 64) = _ := List.range_add
      rw [@List.range_succ words, List.map_append, List.sum_append, ih, Nat.mul_succ, hword,
        List.countP_append, List.countP_map, List.map_singleton, List.sum_singleton]
      rfl
  have hle : k.numSlots ≤ 64 * ((k.numSlots + 63) / 64) := by omega
  obtain ⟨extra, hextra⟩ := Nat.exists_eq_add_of_le hle
  rw [allocatedCount, hwords, hextra, List.range_add, List.countP_append, List.countP_map]
  simp [comp_def, h.outside]

end

end Kernel

open Kernel

/-- A call of the allocator. -/
inductive SlotOp where
  | alloc
  | free (slot : CapSlot)

/-- The kernel after a call. An allocation without a free slot changes nothing. -/
def SlotOp.exec (k : Kernel) : SlotOp → Kernel
  | alloc => ((allocSlot k).state?).getD k
  | free slot => k.freeSlot slot

theorem allocSlot_eq (k : Kernel) :
  allocSlot k = match k.findSlot with
    | some s => .ok s (k.takeSlot s)
    | none => .err .outOfSlots k
  := by
  unfold allocSlot
  change (match k.findSlot with | some s => _ | none => _ : KProg CapSlot) k = _
  cases k.findSlot <;> rfl

theorem SlotOp.exec_ok {k : Kernel} (h : k.SlotsOk) (op : SlotOp) :
  (exec k op).SlotsOk ∧ (exec k op).numSlots = k.numSlots
  := by
  cases op with
  | alloc =>
    rw [exec, allocSlot_eq]
    split
    next s hs => exact ⟨h.takeSlot hs, rfl⟩
    next => exact ⟨h, rfl⟩
  | free slot => exact ⟨h.freeSlot slot, freeSlot_numSlots ..⟩

/-- In every run the bitmap, the metadata and the count agree, the slots below the hint are allocated, and
an allocation takes the lowest free slot if there is one. -/
theorem lowest_slot_of_run (k : Kernel) (numSlots : ℕ) (ops : List SlotOp) :
  let k' := ops.foldl SlotOp.exec (k.initSlots numSlots)
  (∀ s < numSlots, (k'.slotMeta s).state = .occupied ↔ k'.bitmap s = true) ∧
  k'.allocatedCount = (List.range numSlots).countP (fun s => (k'.slotMeta s).state = .occupied) ∧
  k'.freeCount = (List.range numSlots).countP (fun s => (k'.slotMeta s).state = .free) ∧
  (∀ s < k'.nextSlot, s < numSlots ∧ k'.bitmap s = true) ∧
  (∀ s, allocSlot k' = .ok s (k'.takeSlot s) ↔ IsLeast {i | i < numSlots ∧ k'.bitmap i = false} s) ∧
  (allocSlot k' = .err .outOfSlots k' ↔ ∀ s < numSlots, k'.bitmap s = true)
  := by
  intro k'
  have hok : k'.SlotsOk ∧ k'.numSlots = numSlots := by
    refine List.foldlRecOn ops _ (motive := fun k' : Kernel => k'.SlotsOk ∧ k'.numSlots = numSlots)
      ⟨slotsOk_initSlots numSlots, rfl⟩ fun k₁ hk₁ op _ => ?_
    obtain ⟨hexec, hnum⟩ := SlotOp.exec_ok hk₁.1 op
    exact ⟨hexec, hnum.trans hk₁.2⟩
  clear_value k'
  obtain ⟨h, rfl⟩ := hok
  have hfree (s : CapSlot) : (k'.slotMeta s).state = .free ↔ ¬ k'.bitmap s = true := by
    rw [← h.state]
    cases (k'.slotMeta s).state <;> simp
  refine ⟨fun s _ => h.state s, ?_, ?_, fun s hs => ⟨hs.trans_le h.next_le, h.below s hs⟩, fun s => ?_, ?_⟩
  · rw [h.allocatedCount_eq]
    simp [h.state]
  · have := List.length_eq_countP_add_countP k'.bitmap (l := List.range k'.numSlots)
    rw [List.length_range] at this
    rw [freeCount, h.allocatedCount_eq]
    simp only [hfree]
    omega
  · have hsome : allocSlot k' = .ok s (k'.takeSlot s) ↔ k'.findSlot = some s := by
      rw [allocSlot_eq]
      cases k'.findSlot <;> simp +contextual
    rw [hsome, h.findSlot_eq, List.find?_range_eq_some]
    refine ⟨fun ⟨hs, hlt, hleast⟩ => ⟨⟨List.mem_range.1 hlt, by simpa using hs⟩, fun t ht => ?_⟩,
      fun hs => ⟨by simp [hs.1.2], List.mem_range.2 hs.1.1, fun t ht => ?_⟩⟩
    · by_contra hts
      simpa [ht.2] using hleast t (not_le.1 hts)
    · by_contra hfree
      exact absurd (hs.2 ⟨ht.trans hs.1.1, by simpa using hfree⟩) (not_le.2 ht)
  · have hnone : allocSlot k' = .err .outOfSlots k' ↔ k'.findSlot = none := by
      rw [allocSlot_eq]
      cases k'.findSlot <;> simp
    rw [hnone, h.findSlot_eq, List.find?_range_eq_none]
    simp

end SaltyOS
