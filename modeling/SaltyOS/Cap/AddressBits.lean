import SaltyOS.Cap.Address

/-!
# The arithmetic of capability addresses

An address is shifted by amounts that are computed from the bits that remain of it. These are at most 64
for all callers but one: a receiver of capabilities looks up its node at a depth that is the low byte of a
word of its IPC buffer.
-/

open Function

namespace SaltyOS.Kernel

variable (k : Kernel)

/-- `CNODE_SET_GUARD` -/
def cnodeSetGuard (slot : CapSlot) (guard guardBits : ℕ) : Except SyscallError Kernel :=
  let cnode := (k.cap slot).object
  if (k.cap slot).hasRight CapRights.write = false then .error .insufficientRights
  else if guardBits > 64 then .error .invalidArgument
  else if (List.range (k.numRefs cnode)).all (k.isSlotEmpty cnode) then
    .ok { k with cnode := update k.cnode cnode { k.cnode cnode with guard, guardBits } }
  else .error .invalidOperation

/-- `lookup_cspace_cap_for_ipc` -/
def lookupCspaceCapForIpc (cspace : ObjPtr) (capPtr depth : ℕ) : Except SyscallError CapSlot :=
  if depth ≠ 0 then (k.resolveAddress cspace capPtr (depth % 2 ^ 8)).mapError fun _ => .invalidCapability
  else k.lookupCapability cspace 0 capPtr

/-- There is a capability for the node. -/
def NodeCap (node : ObjPtr) : Prop :=
  ∃ slot, k.isCNodeCap slot = true ∧ (k.cap slot).object = node

/-- The graphs of nodes that `UNTYPED_RETYPE` and `CNODE_SET_GUARD` make. References and capabilities may
be changed in any way in between. -/
inductive NodeGraph : Kernel → Prop
  | empty {k : Kernel} (h : ∀ node, ¬ k.NodeCap node) : NodeGraph k
  | retype {k : Kernel} (h : NodeGraph k) {sizeBits size : ℕ}
      (hsize : k.objectSize .cnode sizeBits = some size) (slot : CapSlot) (cap : Capability)
      (isDevice : Bool) (addr : PhysAddr) :
      NodeGraph ((k.createObject cap.object .cnode sizeBits isDevice addr).setCap slot cap)
  | setGuard {k k' : Kernel} (h : NodeGraph k) {slot : CapSlot} {guard guardBits : ℕ}
      (hguard : k.cnodeSetGuard slot guard guardBits = .ok k') : NodeGraph k'
  | edit {k k' : Kernel} (h : NodeGraph k) (hheader : k'.header = k.header)
      (hcaps : ∀ node, k'.NodeCap node → k.NodeCap node) : NodeGraph k'

/-! ## What an address selects -/

/-- The bits of an address above its lowest ones. -/
def field (capAddr low width : ℕ) : ℕ := capAddr / 2 ^ low % 2 ^ width

/-- The index that the lowest bits of an address select in a node, after its guard. -/
def selectIndex (cnode : ObjPtr) (capAddr bits : ℕ) : Except CapError (ℕ × ℕ) :=
  let guardBits := (k.cnode cnode).guardBits
  let radix := (k.header cnode).sizeBits
  if bits < guardBits + radix then .error .invalidSlot
  else if 0 < guardBits ∧ field capAddr (bits - guardBits) guardBits ≠ (k.cnode cnode).guard then
    .error .guardMismatch
  else .ok (field capAddr (bits - guardBits - radix) radix, bits - guardBits - radix)

/-- The reference that the lowest bits of an address select, with the number of nodes that may still be
visited. -/
def selectSlot (capAddr : ℕ) : ℕ → ObjPtr → ℕ → Except CapError (ObjPtr × ℕ)
  | 0, _, _ => .error .depthExceeded
  | n + 1, cnode, bits => do
    let (index, low) ← k.selectIndex cnode capAddr bits
    if low = 0 then .ok (cnode, index)
    else
      match k.getRef cnode index with
      | none => .error .slotEmpty
      | some slot =>
        if k.isCNodeCap slot then selectSlot capAddr n (k.cap slot).object low else .error .invalidSlot

/-- The nodes that an address leads through, with the bits that remain. -/
inductive Visits (root : ObjPtr) (capAddr depth : ℕ) : ObjPtr → ℕ → Prop
  | root : Visits root capAddr depth root depth
  | next {cnode : ObjPtr} {bits index left : ℕ} {slot : CapSlot} (h : Visits root capAddr depth cnode bits)
      (hindex : k.addressIndex cnode capAddr bits = .ok (index, left))
      (href : k.getRef cnode index = some slot) (hcnode : k.isCNodeCap slot = true) :
      Visits root capAddr depth (k.cap slot).object left

/-- The amounts of the shifts of an address are below 64 at a node: those for its guard and the one for its
index. -/
def Narrow (cnode : ObjPtr) (bits : ℕ) : Prop :=
  let guardBits := (k.cnode cnode).guardBits
  let radix := (k.header cnode).sizeBits
  guardBits + radix ≤ bits →
    (0 < guardBits → bits - guardBits < 64 ∧ guardBits < 64) ∧ bits - guardBits - radix < 64

/-- The amounts of all shifts at a node are below 64, and the index is one of the node. -/
def InRange (capAddr : ℕ) (cnode : ObjPtr) (bits : ℕ) : Prop :=
  k.Narrow cnode bits ∧ (k.header cnode).sizeBits < 64 ∧
    ∀ index left, k.addressIndex cnode capAddr bits = .ok (index, left) → index < k.numRefs cnode

variable {k} {root cnode : ObjPtr} {capAddr bits depth n : ℕ}

/-- The size of a node is what `effective_cnode_bits` allows. -/
theorem NodeGraph.radix (h : NodeGraph k) {node : ObjPtr} (hnode : k.NodeCap node) :
  4 ≤ (k.header node).sizeBits ∧ (k.header node).sizeBits ≤ 16
  := by
  induction h with
  | empty h => exact absurd hnode (h node)
  | @retype k _ sizeBits _ hsize slot cap isDevice addr ih =>
    obtain ⟨t, ht, hobject⟩ := hnode
    change 4 ≤ (update k.header cap.object _ node).sizeBits ∧ (update k.header cap.object _ node).sizeBits ≤ _
    by_cases heq : node = cap.object
    · obtain ⟨bits, hbits, -⟩ := Option.map_eq_some_iff.mp hsize
      rw [heq, update_self, objectHeader, KernelObject.new, hbits]
      unfold effectiveCnodeBits at hbits
      split_ifs at hbits <;> cases hbits <;> dsimp only [Option.getD_some] <;> omega
    rw [update_of_ne heq]
    refine ih ⟨t, ?_⟩
    have hcap : ((k.createObject cap.object .cnode sizeBits isDevice addr).setCap slot cap).cap t =
        k.cap t := by
      apply update_of_ne
      rintro rfl
      apply heq
      rw [← hobject]
      exact congrArg Capability.object (update_self ..)
    unfold isCNodeCap at ht ⊢
    rw [hcap] at ht hobject
    exact ⟨ht, hobject⟩
  | setGuard _ hguard ih =>
    unfold cnodeSetGuard at hguard
    dsimp only at hguard
    split_ifs at hguard
    cases hguard
    exact ih hnode
  | edit _ hheader hcaps ih =>
    rw [hheader]
    exact ih (hcaps node hnode)

theorem shl64_of_lt (h : n < 64) :
  shl64 n = 2 ^ n
  := by
  rw [shl64, Nat.mod_eq_of_lt h]

section

variable (hradix : 4 ≤ (k.header cnode).sizeBits ∧ (k.header cnode).sizeBits ≤ 16)
include hradix

theorem narrow_of_le (hbits : bits ≤ 64) :
  k.Narrow cnode bits
  := by
  intro hle
  omega

variable (hnarrow : k.Narrow cnode bits)
include hnarrow

theorem inRange_of_narrow :
  k.InRange capAddr cnode bits
  := by
  refine ⟨hnarrow, by omega, fun index left hindex => ?_⟩
  unfold addressIndex at hindex
  dsimp only at hindex
  split_ifs at hindex
  cases hindex
  apply Nat.mod_lt
  apply Nat.two_pow_pos

/-- Shifts by less than 64 are not masked. -/
theorem addressIndex_eq :
  k.addressIndex cnode capAddr bits = k.selectIndex cnode capAddr bits
  := by
  unfold addressIndex selectIndex field
  dsimp only
  by_cases hlt : bits < (k.cnode cnode).guardBits + (k.header cnode).sizeBits
  · rw [if_pos hlt, if_pos hlt]
  obtain ⟨hguard, hindex⟩ := hnarrow (not_lt.mp hlt)
  rw [if_neg hlt, if_neg hlt, shl64_of_lt hindex, shl64_of_lt (n := (k.header cnode).sizeBits) (by omega)]
  by_cases hpos : 0 < (k.cnode cnode).guardBits
  · rw [shl64_of_lt (hguard hpos).1, shl64_of_lt (hguard hpos).2]
  · simp only [hpos, false_and, if_false]

omit hradix in
/-- What a node leaves of an address is less than 64 bits. -/
theorem lt_of_addressIndex {index left : ℕ} (h : k.addressIndex cnode capAddr bits = .ok (index, left)) :
  left < 64
  := by
  unfold addressIndex at h
  dsimp only at h
  split_ifs at h with hlt
  cases h
  exact (hnarrow (not_lt.mp hlt)).2

end

section

variable (hgraph : NodeGraph k) (hnode : k.NodeCap root) (hnarrow : k.Narrow root depth)
include hgraph hnode hnarrow

omit hnode in
/-- Below the root, fewer than 64 bits of the address remain. -/
theorem narrow_of_addressIndex {index left : ℕ} {slot : CapSlot}
    (hindex : k.addressIndex root capAddr depth = .ok (index, left)) (hcnode : k.isCNodeCap slot = true) :
  k.NodeCap (k.cap slot).object ∧ k.Narrow (k.cap slot).object left
  := by
  have hnext : k.NodeCap (k.cap slot).object := ⟨slot, hcnode, rfl⟩
  exact ⟨hnext, narrow_of_le (hgraph.radix hnext) (lt_of_addressIndex hnarrow hindex).le⟩

theorem inRange_of_visits (h : k.Visits root capAddr depth cnode bits) :
  k.InRange capAddr cnode bits
  := by
  have hvisit : k.NodeCap cnode ∧ k.Narrow cnode bits := by
    induction h with
    | root => exact ⟨hnode, hnarrow⟩
    | next _ hindex _ hcnode ih => exact narrow_of_addressIndex hgraph ih.2 hindex hcnode
  exact inRange_of_narrow (hgraph.radix hvisit.1) hvisit.2

theorem resolveForSlotInner_eq_selectSlot (capAddr n : ℕ) :
  k.resolveForSlotInner capAddr n root depth = k.selectSlot capAddr n root depth
  := by
  induction n generalizing root depth with
  | zero => rfl
  | succ n ih =>
    unfold resolveForSlotInner selectSlot
    rw [← addressIndex_eq (hgraph.radix hnode) hnarrow]
    rcases hindex : k.addressIndex root capAddr depth with e | p
    · rfl
    obtain ⟨index, left⟩ := p
    change (if left = 0 then _ else _) = if left = 0 then _ else _
    obtain _ | slot := k.getRef root index
    · rfl
    cases hcnode : k.isCNodeCap slot with
    | true =>
      obtain ⟨hnext, hleft⟩ := narrow_of_addressIndex hgraph hnarrow hindex hcnode
      simp only [hcnode, ih hnext hleft]
    | false => simp only [hcnode, Bool.false_eq_true, if_false]

end

/-- All shifts are by less than 64, indices are in range, and the address leads to what its lowest bits
select, exactly if the shifts at the root are by less than 64. This is so at every depth of at most 64. -/
theorem resolve_in_range_iff (hgraph : NodeGraph k) (hnode : k.NodeCap root) (capAddr depth : ℕ) :
  (((∀ cnode bits, k.Visits root capAddr depth cnode bits → k.InRange capAddr cnode bits) ∧
      k.resolveAddressForSlot root capAddr depth = k.selectSlot capAddr (maxResolveDepth + 1) root depth ∧
      k.resolveAddress root capAddr depth =
        (k.selectSlot capAddr (maxResolveDepth + 1) root depth).bind fun p => k.readRef p.1 p.2) ↔
    k.Narrow root depth) ∧ (depth ≤ 64 → k.Narrow root depth)
  := by
  refine ⟨⟨fun h => (h.1 root depth .root).1, fun hnarrow => ?_⟩, narrow_of_le (hgraph.radix hnode)⟩
  have hselect := resolveForSlotInner_eq_selectSlot hgraph hnode hnarrow capAddr (maxResolveDepth + 1)
  use fun _ _ => inRange_of_visits hgraph hnode hnarrow, hselect
  rw [← hselect]
  exact resolveAddressInner_eq.trans resolveSlotInner_eq

/-- A capability for a node. -/
def sampleCap (i : ℕ) : Capability :=
  { object := .static i, objType := .cnode, rights := CapRights.write, badge := 0, depth := 0 }

/-- A node is made. -/
def withNode (k : Kernel) (i sizeBits : ℕ) : Kernel :=
  (k.createObject (.static i) .cnode sizeBits false 0).setCap i (sampleCap i)

/-- A node with 256 references, of which the one at 18 is for a node with 16 references and a guard. -/
def guardedSample : Kernel :=
  let k := ((Kernel.blank 16).withNode 0 8).withNode 1 4
  let node := { k.cnode (.static 1) with guard := 1, guardBits := 60 }
  let k := { k with cnode := update k.cnode (.static 1) node }
  (k.setRef (.static 0) 18 1).setRef (.static 1) 2 0

theorem nodeGraph_guardedSample :
  NodeGraph guardedSample ∧ guardedSample.NodeCap (.static 0)
  := by
  have hblank : NodeGraph (Kernel.blank 16) := .empty fun _ ⟨_, h, _⟩ => by cases h
  have hnode : NodeGraph ((Kernel.blank 16).withNode 0 8) := hblank.retype rfl 0 (sampleCap 0) _ _
  have hnodes : NodeGraph (((Kernel.blank 16).withNode 0 8).withNode 1 4) :=
    hnode.retype rfl 1 (sampleCap 1) _ _
  have hguard : (((Kernel.blank 16).withNode 0 8).withNode 1 4).cnodeSetGuard 1 1 60 = .ok _ := rfl
  exact ⟨(hnodes.setGuard hguard).edit rfl fun _ => id, 0, rfl, rfl⟩

/-- The depths 8 and 70 are both admitted at a root without a guard. -/
theorem resolve_in_range_sample :
  guardedSample.resolveAddressForSlot (.static 0) 18 8 =
      guardedSample.selectSlot 18 (maxResolveDepth + 1) (.static 0) 8 ∧
    guardedSample.resolveAddressForSlot (.static 0) 18 70 =
      guardedSample.selectSlot 18 (maxResolveDepth + 1) (.static 0) 70
  := by
  have hiff := resolve_in_range_iff nodeGraph_guardedSample.1 nodeGraph_guardedSample.2 18
  exact ⟨((hiff 8).1.mpr ((hiff 8).2 (by decide))).2.1,
    ((hiff 70).1.mpr fun _ => ⟨fun h => absurd h (by decide), by decide⟩).2.1⟩

/-- At the depth 72, the first shift is by 64 and does nothing: the lowest bits are taken for the highest,
and a capability is found where the address selects nothing. -/
theorem wide_shift :
  NodeGraph guardedSample ∧ guardedSample.NodeCap (.static 0) ∧ ¬ guardedSample.InRange 18 (.static 0) 72 ∧
    guardedSample.lookupCspaceCapForIpc (.static 0) 18 72 = .ok 0 ∧
    guardedSample.selectSlot 18 (maxResolveDepth + 1) (.static 0) 72 = .error .slotEmpty
  := by
  refine ⟨nodeGraph_guardedSample.1, nodeGraph_guardedSample.2, fun h => ?_, ?_, ?_⟩
  · exact absurd (h.1 (by decide)).2 (by decide)
  · decide +kernel
  · decide +kernel

end SaltyOS.Kernel
