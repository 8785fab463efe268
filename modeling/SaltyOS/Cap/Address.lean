import SaltyOS.Cap.Boot

/-!
# Capability addresses

A capability address is resolved from the root node of a thread. With an address depth, the bits of the
address are consumed from the top: each node on the way takes its guard and then the index of one of its
references. Without a depth, an address is the index of a reference of the root node; if this does not
lead to a capability, the address is tried as an index of the root node followed by an index of a node
below it.

The operations that write a reference and those that read one resolve addresses with different
functions. The file compares them. A reference to a capability in the slot array is given by the index of
the slot.
-/

namespace SaltyOS

/-- The errors of the system calls. -/
inductive SyscallError where
  | invalidCapability
  | invalidOperation
  | insufficientRights
  | invalidArgument
  | outOfMemory
  | notFound
  | busy
  | alreadyExists
  | wouldBlock
  | badAddress
  | outOfRange
  | cancelled
  | restart
  | deadlock
  | interrupted
  | slotOccupied
  | alreadyMapped
  | alreadyBound
  deriving DecidableEq, Repr

/-- The maximal number of nodes below the root that an address leads through. -/
def maxResolveDepth : ℕ := 8

namespace Kernel

variable (k : Kernel)

/-- A capability leads to a capability node. -/
def isCNodeCap (slot : CapSlot) : Bool :=
  (k.cap slot).objType = .cnode && (k.cap slot).object ≠ .null

/-- Match the guard of a node and take an index of it from an address of which some bits remain. The
result is the index and the number of bits left. -/
def addressIndex (cnode : ObjPtr) (capAddr bitsRemaining : ℕ) : Except CapError (ℕ × ℕ) :=
  let guardBits := (k.cnode cnode).guardBits
  let radix := (k.header cnode).sizeBits
  if bitsRemaining < guardBits + radix then .error .invalidSlot
  else if 0 < guardBits ∧
      capAddr / shl64 (bitsRemaining - guardBits) % shl64 guardBits ≠ (k.cnode cnode).guard then
    .error .guardMismatch
  else
    let bitsLeft := bitsRemaining - guardBits - radix
    .ok (capAddr / shl64 bitsLeft % shl64 radix, bitsLeft)

/-- `resolve_for_slot_inner`, with the number of nodes that may still be visited: the node and the index
an address leads to. -/
def resolveForSlotInner (capAddr : ℕ) : ℕ → ObjPtr → ℕ → Except CapError (ObjPtr × ℕ)
  | 0, _, _ => .error .depthExceeded
  | n + 1, cnode, bitsRemaining => do
    let (index, bitsLeft) ← k.addressIndex cnode capAddr bitsRemaining
    if bitsLeft = 0 then .ok (cnode, index)
    else
      match k.getRef cnode index with
      | none => .error .slotEmpty
      | some slot =>
        if k.isCNodeCap slot then resolveForSlotInner capAddr n (k.cap slot).object bitsLeft
        else .error .invalidSlot

/-- `resolve_address_inner`: the capability an address leads to. -/
def resolveAddressInner (capAddr : ℕ) : ℕ → ObjPtr → ℕ → Except CapError CapSlot
  | 0, _, _ => .error .depthExceeded
  | n + 1, cnode, bitsRemaining => do
    let (index, bitsLeft) ← k.addressIndex cnode capAddr bitsRemaining
    match k.getRef cnode index with
    | none => .error .slotEmpty
    | some slot =>
      if bitsLeft = 0 then .ok slot
      else if k.isCNodeCap slot then resolveAddressInner capAddr n (k.cap slot).object bitsLeft
      else .error .invalidSlot

/-- `resolve_slot_inner`: the slot an address leads to. -/
def resolveSlotInner (capAddr : ℕ) : ℕ → ObjPtr → ℕ → Except CapError CapSlot
  | 0, _, _ => .error .depthExceeded
  | n + 1, cnode, bitsRemaining => do
    let (index, bitsLeft) ← k.addressIndex cnode capAddr bitsRemaining
    if bitsLeft = 0 then
      match k.getRef cnode index with
      | none => .error .slotEmpty
      | some slot => .ok slot
    else
      match k.getRef cnode index with
      | none => .error .slotEmpty
      | some slot =>
        if k.isCNodeCap slot then resolveSlotInner capAddr n (k.cap slot).object bitsLeft
        else .error .invalidSlot

/-- `resolve_address_for_slot` -/
def resolveAddressForSlot (root : ObjPtr) (capAddr addrBits : ℕ) : Except CapError (ObjPtr × ℕ) :=
  k.resolveForSlotInner capAddr (maxResolveDepth + 1) root addrBits

/-- `resolve_address` -/
def resolveAddress (root : ObjPtr) (capAddr addrBits : ℕ) : Except CapError CapSlot :=
  k.resolveAddressInner capAddr (maxResolveDepth + 1) root addrBits

/-- `resolve_address_slot` -/
def resolveAddressSlot (root : ObjPtr) (capAddr addrBits : ℕ) : Except CapError CapSlot :=
  k.resolveSlotInner capAddr (maxResolveDepth + 1) root addrBits

/-! ## Addresses without a depth -/

/-- The root node refers to a node of the given size at the index that is left of the address when the
index of that node is taken away. -/
def isExpanded (cspace : ObjPtr) (capPtr subBits : ℕ) : Bool :=
  match k.getRef cspace (capPtr / 2 ^ subBits) with
  | none => false
  | some slot => k.isCNodeCap slot && (k.header (k.cap slot).object).sizeBits == subBits

/-- The size of the node below the root that an address is tried with: the first that fits. -/
def expandedBits (cspace : ObjPtr) (capPtr : ℕ) : Option ℕ :=
  (List.range' 4 13).find? (k.isExpanded cspace capPtr)

/-- Resolve an address as an index of the root node followed by an index of a node below it. -/
def lookupExpandedWith {α : Type} (resolve : ObjPtr → ℕ → ℕ → Except CapError α) (cspace : ObjPtr)
    (capPtr : ℕ) : Except SyscallError α :=
  match k.expandedBits cspace capPtr with
  | none => .error .invalidCapability
  | some subBits =>
    let totalDepth := ((k.header cspace).sizeBits + subBits) % 2 ^ 8
    (resolve cspace capPtr totalDepth).mapError fun _ => .invalidCapability

/-- `lookup_expanded` -/
def lookupExpanded (cspace : ObjPtr) (capPtr : ℕ) : Except SyscallError CapSlot :=
  k.lookupExpandedWith k.resolveAddress cspace capPtr

/-- `lookup_expanded_slot` -/
def lookupExpandedSlot (cspace : ObjPtr) (capPtr : ℕ) : Except SyscallError CapSlot :=
  k.lookupExpandedWith k.resolveAddressSlot cspace capPtr

/-- `lookup_expanded_for_slot` -/
def lookupExpandedForSlot (cspace : ObjPtr) (capPtr : ℕ) : Except SyscallError (ObjPtr × ℕ) :=
  k.lookupExpandedWith k.resolveAddressForSlot cspace capPtr

/-- `lookup_capability`, for a thread with the given root node and depth. -/
def lookupCapability (cspace : ObjPtr) (depth capPtr : ℕ) : Except SyscallError CapSlot :=
  if depth = 0 then
    match k.getRef cspace capPtr with
    | some slot => .ok slot
    | none => k.lookupExpanded cspace capPtr
  else (k.resolveAddress cspace capPtr depth).mapError fun _ => .invalidCapability

/-- `resolve_current_cspace_cap_slot` -/
def resolveCurrentCspaceCapSlot (cspace : ObjPtr) (depth capPtr : ℕ) :
    Except SyscallError CapSlot :=
  if depth = 0 then
    match k.getRef cspace capPtr with
    | some slot => .ok slot
    | none => k.lookupExpandedSlot cspace capPtr
  else (k.resolveAddressSlot cspace capPtr depth).mapError fun _ => .invalidCapability

/-- The node and the index at which `UNTYPED_RETYPE` puts the new capability. -/
def retypeDest (cspace : ObjPtr) (destDepth destOffset : ℕ) : Except SyscallError (ObjPtr × ℕ) :=
  if 0 < destDepth then
    (k.resolveAddressForSlot cspace destOffset destDepth).mapError fun _ => .invalidCapability
  else if destOffset < k.numRefs cspace then .ok (cspace, destOffset)
  else k.lookupExpandedForSlot cspace destOffset

/-! ## Where an address leads -/

/-- An address leads from a node, with some bits of it remaining, to a reference of a node, through at
most the given number of nodes. -/
inductive Leads (capAddr : ℕ) : ℕ → ObjPtr → ℕ → ObjPtr → ℕ → Prop
  | leaf {n : ℕ} {cnode : ObjPtr} {bits index : ℕ}
      (hindex : k.addressIndex cnode capAddr bits = .ok (index, 0)) :
      Leads capAddr (n + 1) cnode bits cnode index
  | node {n : ℕ} {cnode target : ObjPtr} {bits index left i : ℕ} {slot : CapSlot}
      (hindex : k.addressIndex cnode capAddr bits = .ok (index, left)) (hleft : left ≠ 0)
      (href : k.getRef cnode index = some slot) (hcnode : k.isCNodeCap slot = true)
      (hnext : Leads capAddr n (k.cap slot).object left target i) :
      Leads capAddr (n + 1) cnode bits target i

variable {k} {capAddr n bits : ℕ} {cnode target : ObjPtr} {i : ℕ}

/-- The function for writing finds the reference an address leads to. -/
theorem resolveForSlotInner_eq_ok :
  k.resolveForSlotInner capAddr n cnode bits = .ok (target, i) ↔ k.Leads capAddr n cnode bits target i
  := by
  constructor
  · intro h
    induction n generalizing cnode bits with
    | zero => cases h
    | succ n ih =>
      unfold resolveForSlotInner at h
      cases hindex : k.addressIndex cnode capAddr bits with
      | error e =>
        rw [hindex] at h
        cases h
      | ok p =>
        obtain ⟨index, left⟩ := p
        rw [hindex] at h
        change (if left = 0 then _ else _) = _ at h
        split_ifs at h with hleft
        · subst hleft
          cases h
          exact .leaf hindex
        split at h
        · cases h
        rename_i slot href
        split_ifs at h with hcnode
        exact .node hindex hleft href hcnode (ih h)
  · intro h
    induction h with
    | leaf hindex =>
      unfold resolveForSlotInner
      rw [hindex]
      rfl
    | node hindex hleft href hcnode hnext ih =>
      unfold resolveForSlotInner
      rw [hindex]
      change (if _ = 0 then _ else _) = _
      rw [if_neg hleft, href]
      dsimp only
      rw [if_pos hcnode, ih]

/-- The two functions for reading find the same. -/
theorem resolveAddressInner_eq :
  k.resolveAddressInner capAddr n cnode bits = k.resolveSlotInner capAddr n cnode bits
  := by
  induction n generalizing cnode bits with
  | zero => rfl
  | succ n ih =>
    unfold resolveAddressInner resolveSlotInner
    congr 1
    funext p
    obtain ⟨index, left⟩ := p
    dsimp only
    split_ifs with hleft
    · cases k.getRef cnode index with
      | none => rfl
      | some slot => simp
    · cases k.getRef cnode index with
      | none => rfl
      | some slot => simp only [ih]

/-- What is read at a reference. -/
def readRef (k : Kernel) (target : ObjPtr) (i : ℕ) : Except CapError CapSlot :=
  match k.getRef target i with
  | none => .error .slotEmpty
  | some slot => .ok slot

theorem readRef_eq_ok {slot : CapSlot} :
  k.readRef target i = .ok slot ↔ k.getRef target i = some slot
  := by
  unfold readRef
  cases k.getRef target i with
  | none => simp
  | some slot' => simp

/-- The functions for reading read the reference that the function for writing finds. -/
theorem resolveSlotInner_eq :
  k.resolveSlotInner capAddr n cnode bits =
    (k.resolveForSlotInner capAddr n cnode bits).bind fun p => k.readRef p.1 p.2
  := by
  induction n generalizing cnode bits with
  | zero => rfl
  | succ n ih =>
    unfold resolveSlotInner resolveForSlotInner
    obtain e | p := k.addressIndex cnode capAddr bits
    · rfl
    obtain ⟨index, left⟩ := p
    change (if left = 0 then _ else _) = Except.bind (if left = 0 then _ else _) _
    split_ifs with hleft
    · rfl
    obtain _ | slot := k.getRef cnode index
    · rfl
    dsimp only
    split_ifs with hcnode
    · exact ih
    · rfl

/-- A capability is read exactly if the address leads to a reference to it. -/
theorem resolveSlotInner_eq_ok {slot : CapSlot} :
  k.resolveSlotInner capAddr n cnode bits = .ok slot ↔
    ∃ target i, k.resolveForSlotInner capAddr n cnode bits = .ok (target, i)
      ∧ k.getRef target i = some slot
  := by
  rw [resolveSlotInner_eq]
  cases k.resolveForSlotInner capAddr n cnode bits with
  | error e => simp [Except.bind]
  | ok p =>
    obtain ⟨target, i⟩ := p
    simp [Except.bind, readRef_eq_ok]

/-- The resolvers agree. The one for the slot succeeds exactly if the one for writing finds a reference
that is not empty, and then it returns this reference. The one for the capability returns the capability
of the reference, or else the same error. -/
theorem resolvers_agree (k : Kernel) (root : ObjPtr) (capAddr addrBits : ℕ) :
  (∀ slot, k.resolveAddressSlot root capAddr addrBits = .ok slot ↔
      ∃ target i, k.resolveAddressForSlot root capAddr addrBits = .ok (target, i)
        ∧ k.getRef target i = some slot)
    ∧ (∀ e, k.resolveAddressForSlot root capAddr addrBits = .error e →
      k.resolveAddressSlot root capAddr addrBits = .error e)
    ∧ (k.resolveAddress root capAddr addrBits).map k.cap =
      (k.resolveAddressSlot root capAddr addrBits).map k.cap
  := by
  refine ⟨fun slot => resolveSlotInner_eq_ok, ?_, ?_⟩
  · intro e he
    apply resolveSlotInner_eq.trans
    rw [← resolveAddressForSlot, he]
    rfl
  · exact congrArg (Except.map k.cap) resolveAddressInner_eq

/-! ## Reading and writing -/

variable (k)

/-- What is read is the capability at a reference, or nothing if the reference is empty. -/
def ReadsBack (target : ObjPtr) (i : ℕ) (result : Except SyscallError CapSlot) : Prop :=
  match k.getRef target i with
  | none => result = .error .invalidCapability
  | some slot => result = .ok slot

/-- The address of an empty reference of the root node also leads, through a node below the root, to a
reference that is not empty. -/
def Aliased (cspace : ObjPtr) (capPtr : ℕ) : Prop :=
  ∃ subBits target i slot, k.expandedBits cspace capPtr = some subBits
    ∧ k.Leads capPtr (maxResolveDepth + 1) cspace (((k.header cspace).sizeBits + subBits) % 2 ^ 8)
      target i
    ∧ k.getRef target i = some slot

variable {k} {cspace : ObjPtr} {depth a : ℕ}

/-- The two ways of reading find the same. -/
theorem lookupCapability_eq :
  k.lookupCapability cspace depth a = k.resolveCurrentCspaceCapSlot cspace depth a
  := by
  have hresolve : k.resolveAddress = k.resolveAddressSlot := by
    funext root capAddr addrBits
    exact resolveAddressInner_eq
  unfold lookupCapability resolveCurrentCspaceCapSlot lookupExpanded lookupExpandedSlot
  rw [hresolve]

theorem eq_ok_of_mapError {α : Type} {x : Except CapError α} {y : α}
    (h : (x.mapError fun _ => SyscallError.invalidCapability) = .ok y) :
  x = .ok y
  := by
  cases x with
  | error e => cases h
  | ok z =>
    cases h
    rfl

/-- With a depth, the reference that is written can be read back. -/
theorem readsBack_of_resolveAddressForSlot {root : ObjPtr} {addrBits : ℕ}
    (h : k.resolveAddressForSlot root a addrBits = .ok (target, i)) :
  k.ReadsBack target i ((k.resolveAddress root a addrBits).mapError fun _ => .invalidCapability)
  := by
  unfold resolveAddressForSlot at h
  unfold ReadsBack resolveAddress
  rw [resolveAddressInner_eq, resolveSlotInner_eq, h]
  change match k.getRef target i with
    | none => (k.readRef target i).mapError _ = _
    | some slot => (k.readRef target i).mapError _ = _
  unfold readRef
  cases k.getRef target i with
  | none => rfl
  | some slot => rfl

/-- The reference that is written through a node below the root can be read back. -/
theorem readsBack_of_lookupExpandedForSlot (h : k.lookupExpandedForSlot cspace a = .ok (target, i)) :
  k.ReadsBack target i (k.lookupExpanded cspace a)
  := by
  unfold lookupExpandedForSlot lookupExpandedWith at h
  unfold lookupExpanded lookupExpandedWith
  cases hbits : k.expandedBits cspace a with
  | none =>
    rw [hbits] at h
    cases h
  | some subBits =>
    rw [hbits] at h
    exact readsBack_of_resolveAddressForSlot (eq_ok_of_mapError h)

/-- An address without a depth is read through a node below the root exactly if it leads to a capability
there. -/
theorem lookupExpanded_eq_error_iff :
  k.lookupExpanded cspace a = .error .invalidCapability ↔ ¬ k.Aliased cspace a
  := by
  unfold lookupExpanded lookupExpandedWith
  cases hbits : k.expandedBits cspace a with
  | none =>
    apply iff_of_true rfl
    rintro ⟨subBits, target, i, slot, hsome, -⟩
    rw [hbits] at hsome
    cases hsome
  | some subBits =>
    dsimp only
    cases hread : k.resolveAddress cspace a (((k.header cspace).sizeBits + subBits) % 2 ^ 8) with
    | error e =>
      apply iff_of_true rfl
      rintro ⟨subBits', target, i, slot, hsome, hleads, href⟩
      cases hbits.symm.trans hsome
      have hok := resolveSlotInner_eq_ok.mpr ⟨target, i, resolveForSlotInner_eq_ok.mpr hleads, href⟩
      cases hread.symm.trans (resolveAddressInner_eq.trans hok)
    | ok slot =>
      refine iff_of_false nofun (not_not.mpr ?_)
      obtain ⟨target, i, hfound, href⟩ :=
        resolveSlotInner_eq_ok.mp (resolveAddressInner_eq.symm.trans hread)
      exact ⟨subBits, target, i, slot, hbits, resolveForSlotInner_eq_ok.mp hfound, href⟩

/-- The reference at which `UNTYPED_RETYPE` puts a capability can be read back exactly if it is not an
empty reference of the root node that is hidden by a node below the root. -/
theorem retypeDest_readsBack_iff (h : k.retypeDest cspace depth a = .ok (target, i)) :
  (k.ReadsBack target i (k.lookupCapability cspace depth a)
      ∧ k.ReadsBack target i (k.resolveCurrentCspaceCapSlot cspace depth a))
    ↔ ¬ (depth = 0 ∧ a < k.numRefs cspace ∧ k.getRef cspace a = none ∧ k.Aliased cspace a)
  := by
  rw [← lookupCapability_eq, and_self]
  unfold retypeDest at h
  unfold lookupCapability
  split_ifs at h with hdepth hflat
  · have hne : depth ≠ 0 := by omega
    rw [if_neg hne]
    refine iff_of_true ?_ fun hall => hne hall.1
    exact readsBack_of_resolveAddressForSlot (eq_ok_of_mapError h)
  · obtain rfl : depth = 0 := by omega
    cases h
    unfold ReadsBack
    cases href : k.getRef target i with
    | none => simpa [hflat] using lookupExpanded_eq_error_iff
    | some slot => simp
  · obtain rfl : depth = 0 := by omega
    have hnone : k.getRef cspace a = none := by
      unfold getRef
      rw [if_neg fun hlt => hflat hlt.1]
    rw [if_pos rfl, hnone]
    refine iff_of_true ?_ fun hall => hflat hall.2.1
    exact readsBack_of_lookupExpandedForSlot h

/-- A root node with `256` references, of which the one at `1` refers to a node with `16` references. The
first capability is for this node, the second one for an endpoint and in the node below at `2`. -/
def addressSample : Kernel :=
  { Kernel.blank 16 with
    cap := fun
      | 0 => { Capability.null with object := .static 1, objType := .cnode }
      | _ => { Capability.null with object := .static 2, objType := .endpoint }
    header := fun
      | .static 0 => { objType := .cnode, sizeBits := 8, refCount := 1 }
      | .static 1 => { objType := .cnode, sizeBits := 4, refCount := 1 }
      | _ => { objType := .null, sizeBits := 0, refCount := 0 }
    cnode := fun
      | .static 0 => { CNode.empty with slots := Function.update (fun _ => invalidSlot) 1 0 }
      | .static 1 => { CNode.empty with slots := Function.update (fun _ => invalidSlot) 2 1 }
      | _ => CNode.empty }

/-- The address `3` leads to an empty reference of the root node only. -/
theorem retypeDest_readsBack_empty :
  addressSample.retypeDest (.static 0) 0 3 = .ok (.static 0, 3)
    ∧ (addressSample.ReadsBack (.static 0) 3 (addressSample.lookupCapability (.static 0) 0 3)
      ∧ addressSample.ReadsBack (.static 0) 3
        (addressSample.resolveCurrentCspaceCapSlot (.static 0) 0 3))
  := by
  have hdest : addressSample.retypeDest (.static 0) 0 3 = .ok (.static 0, 3) := by decide +kernel
  refine ⟨hdest, (retypeDest_readsBack_iff hdest).mpr ?_⟩
  rintro ⟨-, -, -, subBits, -, -, -, hbits, -⟩
  cases hbits

/-- The address `18` is for an empty reference of the root node when it is written to, and leads to the
endpoint in the node below when it is read. -/
theorem alias_of_empty_reference :
  addressSample.retypeDest (.static 0) 0 18 = .ok (.static 0, 18)
    ∧ addressSample.getRef (.static 0) 18 = none
    ∧ addressSample.lookupCapability (.static 0) 0 18 = .ok 1
    ∧ addressSample.resolveCurrentCspaceCapSlot (.static 0) 0 18 = .ok 1
  := by
  decide +kernel

end Kernel

end SaltyOS
