import SaltyOS.Cap.Slot

/-!
# Deletion, revocation and destruction

Deleting a capability releases its object, and releasing the last reference to an object destroys
it. Destroying a capability node deletes the capabilities it refers to, and destroying a thread, an
address space or a memory object releases further objects. The procedures are therefore mutually
recursive. Each of them is a constructor of `Call`, and so are the loops that walk a linked list.
-/

namespace SaltyOS

open Function Prog

/-- The mutually recursive procedures. -/
inductive Call where
  /-- `CDT::revoke` -/
  | revoke (slot : CapSlot)
  /-- `CDT::delete_capability` -/
  | deleteCapability (slot : CapSlot)
  /-- The loop of `UntypedTracker::remove_child`, at the element `current` after `prev`. -/
  | removeUtChild (untypedSlot child prev current : CapSlot)
  /-- `release_object` -/
  | releaseObject (obj : ObjPtr) (objType : ObjectType)
  /-- `destroy_object` -/
  | destroyObject (obj : ObjPtr) (objType : ObjectType)
  /-- `MemoryObject::destroy` -/
  | moDestroy (mo : ObjPtr)
  /-- The loop of `MemoryObject::remove_from_child_list`, at the element `prev`. -/
  | removeSibling (child prev : ObjPtr)
  deriving DecidableEq, Repr

variable (k : Kernel) (mo : ObjPtr)

/-- The init untyped region that contains a physical address, or the null pointer. The init regions
are found in static storage, whether or not a capability to them is left. -/
def Kernel.findUntypedForPhys (phys : PhysAddr) : ObjPtr :=
  match k.initUntypeds.find? fun ut => decide ((k.untyped ut).physAddr ≤ phys ∧
        phys < (k.untyped ut).physAddr + (k.untyped ut).sizeBytes) with
  | some ut => ut
  | none => .null

/-- Push a page to the free list of the init untyped region that contains it. -/
def Kernel.pushFreePage (phys : PhysAddr) : Kernel :=
  if k.findUntypedForPhys phys = .null then k
  else k.setUntyped (k.findUntypedForPhys phys) fun ut => { ut with freeList := phys :: ut.freeList }

/-- Give back the page of an entry of a memory object: to the free list of an untyped region, or to
the physical memory manager. -/
def freeEntry {ε : Type} (mo : ObjPtr) (index entry : ℕ) : Prog Kernel ε Unit :=
  when (entryPage entry) <|
    if entryUntyped entry then Prog.modify fun k => k.pushFreePage (entryPhys entry)
    else pmmFree (entryPhys entry) (.moData mo index)

/-- Clear the page table entry of an address space for an address, if a page is present there. -/
def Kernel.clearPte (vspace : ObjPtr) (vaddr : VirtAddr) : Kernel :=
  match (k.vspace vspace).readEntry vaddr with
  | some pte =>
    if pte.present then
      k.setVSpace vspace fun vs => (vs.writeEntry vaddr Pte.zero).getD vs
    else k
  | none => k

/-- The frames of a region of physical memory. -/
def framesOf (base : PhysAddr) (count : ℕ) : List PhysAddr :=
  (List.range count).map fun i => base + i * pageSize

/-- The frames of an untyped region. -/
def UntypedMemory.frames (self : UntypedMemory) : List PhysAddr :=
  framesOf self.physAddr ((self.sizeBytes + (pageSize - 1)) / pageSize)

/-- The frames of a frame object. -/
def FrameObject.frames (self : FrameObject) : List PhysAddr :=
  framesOf self.physAddr (shl64 ((if self.sizeBits < 12 then 12 else self.sizeBits) - 12))

section Body

variable (call : Call → KProc Unit)

/-- Remove a slot from the tree, from the child list of its untyped region, release its object and
free it. The common part of `CDT::delete_capability` and `CNode::delete`. -/
def dropCapability (slot : CapSlot) : KProc Unit := do
  Prog.modify fun k => k.remove slot
  let k ← Prog.get
  let utParent := (k.slotMeta slot).utParent
  when (utParent ≠ invalidSlot)
    (call (.removeUtChild utParent slot invalidSlot (k.slotMeta utParent).utFirstChild))
  let k ← Prog.get
  let cap := k.cap slot
  when (cap.isNull = false) (call (.releaseObject cap.object cap.objType))
  Prog.modify fun k => k.dropSlot slot

/-- Free the kernel stacks of a thread. -/
def freeStacks (tcb : ObjPtr) : KProc Unit := do
  let k ← Prog.get
  when ((k.tcb tcb).kernelStack ≠ 0) do
    forEach (framesOf (k.tcb tcb).kernelStack 4) fun addr => pmmFree addr (.kernelPrivate .kernelStack)
    Prog.modify fun k => k.setTcb tcb fun t => { t with kernelStack := 0 }
  when ((k.tcb tcb).trampolineStack ≠ 0) do
    pmmFree (k.tcb tcb).trampolineStack (.kernelPrivate .kernelStack)
    Prog.modify fun k => k.setTcb tcb fun t => { t with trampolineStack := 0 }

/-- Take the bound notification, the donation of priority and the scheduling context from a thread. -/
def unbindThread (tcb : ObjPtr) : KProc Unit := do
  let k ← Prog.get
  let notification := (k.tcb tcb).boundNotification
  when (notification ≠ .null) do
    Prog.modify fun k =>
      { k with notificationTcb := update k.notificationTcb notification .null }
    Prog.modify fun k => k.setTcb tcb fun t => { t with boundNotification := .null }
    call (.releaseObject notification .notification)
  let k ← Prog.get
  let holder := (k.tcb tcb).pipDonatingTo
  when (holder ≠ .null) do
    Prog.modify fun k => k.setTcb tcb fun t => { t with pipDonatingTo := .null }
    call (.releaseObject holder .tcb)
  let k ← Prog.get
  let schedContext := (k.tcb tcb).schedContext
  when (schedContext ≠ .null) do
    Prog.modify fun k =>
      { k with schedContextTcb := update k.schedContextTcb schedContext .null }
    Prog.modify fun k => k.setTcb tcb fun t => { t with schedContext := .null }
    call (.releaseObject schedContext .schedContext)

/-- `Tcb::cleanup`, without the wait queues and the scheduling state of the thread. -/
def tcbCleanup (tcb : ObjPtr) : KProc Unit := do
  let k ← Prog.get
  call (.releaseObject (k.tcb tcb).replyTcb .tcb)
  Prog.modify fun k => k.setTcb tcb fun t => { t with replyTcb := .null }
  let k ← Prog.get
  call (.releaseObject (k.tcb tcb).faultHandler .endpoint)
  Prog.modify fun k => k.setTcb tcb fun t => { t with faultHandler := .null }
  freeStacks tcb
  unbindThread call tcb
  let k ← Prog.get
  call (.releaseObject (k.tcb tcb).vspaceRoot .vspace)
  Prog.modify fun k => k.setTcb tcb fun t => { t with vspaceRoot := .null }
  let k ← Prog.get
  call (.releaseObject (k.tcb tcb).cspaceRoot .cnode)
  Prog.modify fun k => k.setTcb tcb fun t => { t with cspaceRoot := .null }

/-- `VSpace::cleanup`: drop the reverse maps and the references of all mappings. The page tables
stay in memory. -/
def vspaceCleanup (vspace : ObjPtr) : KProc Unit := do
  let k ← Prog.get
  when ((k.vspace vspace).root ≠ k.kernelRoot) do
    forEach (k.vspace vspace).mappings fun mapping => when (mapping.2.mo ≠ .null) do
        Prog.modify fun k => k.setMo mapping.2.mo fun mo =>
          { mo with reverseMaps := mo.reverseMaps.remove vspace mapping.1 }
        call (.releaseObject mapping.2.mo .memoryObject)
    Prog.modify fun k => k.setVSpace vspace fun vs => { vs with mappings := [], tracking := false }

end Body

/-! ## Destruction of a memory object -/

/-- Clear the page table entries of all mappings in the reverse maps of a memory object. -/
def unmapObservers : KProc Unit := do
  let k ← Prog.get
  forEach (k.mo mo).reverseMaps.entries fun entry => forEach (List.range entry.pageCount) fun i =>
      Prog.modify fun k => k.clearPte entry.vspace (entry.vaStart + i * pageSize)

/-- Give back all pages of a memory object. -/
def freePages : KProc Unit := do
  let k ← Prog.get
  forEach (k.mo mo).pages.forEach fun visit => freeEntry mo visit.1 visit.2

/-- Free the frames in which a memory object keeps its tree and its reverse maps. -/
def freeMetadata : KProc Unit := do
  let k ← Prog.get
  forEach (k.mo mo).pages.destroyed fun addr => pmmFree addr (.moMeta mo .radix)
  Prog.modify fun k => k.setMo mo fun m => { m with pages := .empty }
  forEach (k.mo mo).reverseMaps.overflow fun page => pmmFree page.phys (.moMeta mo .rmap)
  Prog.modify fun k => k.setMo mo fun m =>
    { m with reverseMaps := { m.reverseMaps with overflow := [] } }

/-- Unmap a memory object and give back all its memory. -/
def reclaim : KProc Unit := do
  unmapObservers mo
  freePages mo
  freeMetadata mo

/-- The tree of a memory object has a value. -/
def Kernel.hasLocal : Bool := (k.mo mo).pages.forEach.any fun visit => visit.2 != 0

/-- Give the private slot of an intermediate memory object to its child and free the slot that the
child had before. -/
def Kernel.handOver (parent remaining : ObjPtr) : Kernel :=
  let oldChildCap := (k.mo remaining).cowParent
  let grandparentSlot := (k.mo parent).cowParent
  let k := k.setMo remaining fun m => { m with cowParent := grandparentSlot }
  let k := k.setMo parent fun m => { m with cowParent := 0 }
  let k := if oldChildCap ≠ 0 then k.freeSlot oldChildCap else k
  let k := k.setMo parent fun m => { m with firstChild := .null }
  k.setMo remaining fun m => { m with nextSibling := .null }

/-- Put a memory object on the list of children of the object that its private slot names. -/
def Kernel.adopt (remaining : ObjPtr) : Kernel :=
  let grandparent := (k.cap (k.mo remaining).cowParent).object
  if (k.mo remaining).cowParent ≠ 0 ∧ grandparent ≠ .null then
    let k := k.setMo remaining fun m => { m with nextSibling := (k.mo grandparent).firstChild }
    k.setMo grandparent fun m => { m with firstChild := remaining }
  else k

/-- Make the only child of an intermediate memory object that is about to be destroyed a child of the
grandparent. -/
def Kernel.collapse (parent : ObjPtr) : Kernel :=
  let remaining := (k.mo parent).firstChild
  (k.handOver parent remaining).adopt remaining

section MoDestroy

variable (call : Call → KProc Unit)

/-- Take a memory object out of the list of children of its parent. -/
def removeFromChildList (parent child : ObjPtr) : KProc Unit := do
  let k ← Prog.get
  if (k.mo parent).firstChild = child then do
    Prog.modify fun k => k.setMo parent fun m => { m with firstChild := (k.mo child).nextSibling }
    Prog.modify fun k => k.setMo child fun m => { m with nextSibling := .null }
  else call (.removeSibling child (k.mo parent).firstChild)

/-- Drop the reference of a memory object to its parent, which destroys the parent when that was the
last reference, or when the parent is an intermediate object with no pages and one child left. -/
def detachFromParent (mo parent : ObjPtr) : KProc Unit := do
  removeFromChildList call parent mo
  let k ← Prog.get
  let oldCount := (k.header parent).refCount
  Prog.modify fun k => k.setRefCount parent ((oldCount + (2 ^ 32 - 1)) % 2 ^ 32)
  when (oldCount = 1) (call (.moDestroy parent))
  let k ← Prog.get
  when (oldCount = 2 ∧ (k.mo parent).kind = .cowChild ∧ (k.mo parent).cowParent ≠ 0 ∧
      k.hasLocal parent = false ∧ (k.mo parent).firstChild ≠ .null) do
    Prog.modify fun k => k.collapse parent
    call (.moDestroy parent)

/-- `MemoryObject::destroy` -/
def moDestroy (mo : ObjPtr) : KProc Unit := do
  Prog.modify fun k => k.kill mo
  reclaim mo
  let k ← Prog.get
  let parentSlot := (k.mo mo).cowParent
  when (parentSlot ≠ 0) do
    when ((k.cap parentSlot).object ≠ .null) (detachFromParent call mo (k.cap parentSlot).object)
    Prog.modify fun k => k.freeSlot parentSlot
    Prog.modify fun k => k.setMo mo fun m => { m with cowParent := 0 }

/-- The loop of `MemoryObject::remove_from_child_list`. -/
def removeSibling (child prev : ObjPtr) : KProc Unit := do
  let k ← Prog.get
  if prev = .null then pure ()
  else if (k.mo prev).nextSibling = child then do
    Prog.modify fun k => k.setMo prev fun m => { m with nextSibling := (k.mo child).nextSibling }
    Prog.modify fun k => k.setMo child fun m => { m with nextSibling := .null }
  else call (.removeSibling child (k.mo prev).nextSibling)

end MoDestroy

/-! ## The procedures -/

section Body

variable (call : Call → KProc Unit)

/-- `CDT::revoke`, where the loop over the children is a call to itself. -/
def cdtRevoke (slot : CapSlot) : KProc Unit := do
  let k ← Prog.get
  if k.hasChildren slot then do
    call (.revoke (k.slotMeta slot).cdtFirstChild)
    call (.revoke slot)
  else call (.deleteCapability slot)

/-- `CDT::delete_capability` -/
def deleteCapability (slot : CapSlot) : KProc Unit := do
  let k ← Prog.get
  when ((k.slotMeta slot).state ≠ .free) (dropCapability call slot)

/-- The loop of `UntypedTracker::remove_child`. -/
def removeUtChild (untypedSlot child prev current : CapSlot) : KProc Unit := do
  let k ← Prog.get
  if current = invalidSlot then pure ()
  else if current = child then Prog.modify fun k => k.unlinkUtChild untypedSlot child prev
  else call (.removeUtChild untypedSlot child current (k.slotMeta current).utNext)

/-- `release_object`. A thread that a processor still runs is destroyed later. -/
def releaseObject (obj : ObjPtr) (objType : ObjectType) : KProc Unit := do
  let k ← Prog.get
  when (obj ≠ .null) do
    let oldCount := (k.header obj).refCount
    Prog.modify fun k => k.setRefCount obj ((oldCount + (2 ^ 32 - 1)) % 2 ^ 32)
    when (oldCount = 1) <|
      if objType = .tcb ∧ 0 < (k.tcb obj).schedRef then
        Prog.modify fun k => k.setTcb obj fun t => { t with pendingDestroy := true }
      else call (.destroyObject obj objType)

/-- `destroy_object` -/
def destroyObject (obj : ObjPtr) (objType : ObjectType) : KProc Unit := do
  Prog.modify fun k => k.kill obj
  let k ← Prog.get
  match objType with
  | .null | .endpoint | .ioPort => pure ()
  | .notification =>
    when (k.notificationTcb obj ≠ .null) do
      Prog.modify fun k' =>
        k'.setTcb (k.notificationTcb obj) fun t => { t with boundNotification := .null }
      Prog.modify fun k =>
        { k with notificationTcb := update k.notificationTcb obj .null }
  | .untyped =>
    forEach (k.untyped obj).frames fun addr => pmmFree addr (.kernelPrivate .general)
  | .frame => forEach (k.frame obj).frames fun addr => pmmFree addr (.kernelPrivate .general)
  | .memoryObject => call (.moDestroy obj)
  | .cnode =>
    forEach (List.range (k.numRefs obj)) fun i => do
      let k ← Prog.get
      when ((k.cnode obj).slots i ≠ invalidSlot) (call (.deleteCapability ((k.cnode obj).slots i)))
  | .vspace => vspaceCleanup call obj
  | .tcb => tcbCleanup call obj
  | .irqHandler => do
    Prog.modify fun k =>
      { k with irqNotification := update k.irqNotification obj .null }
    call (.releaseObject (k.irqNotification obj) .notification)
  | .schedContext =>
    let tcb := k.schedContextTcb obj
    when (tcb ≠ .null ∧ (k.tcb tcb).schedContext = obj)
      (Prog.modify fun k => k.setTcb tcb fun t => { t with schedContext := .null })
    Prog.modify fun k => { k with schedContextTcb := update k.schedContextTcb obj .null }

/-- The body of each procedure, given the procedures it calls. -/
def callBody : Call → KProc Unit
  | .revoke slot => cdtRevoke call slot
  | .deleteCapability slot => deleteCapability call slot
  | .removeUtChild untypedSlot child prev current =>
    removeUtChild call untypedSlot child prev current
  | .releaseObject obj objType => releaseObject call obj objType
  | .destroyObject obj objType => destroyObject call obj objType
  | .moDestroy mo => moDestroy call mo
  | .removeSibling child prev => removeSibling call child prev

end Body

/-- The procedures with a fuel bound, where `allow` says which calls may be made in which states. The
procedures of the kernel allow every call. -/
def invoke (allow : Call → Kernel → Bool) (fuel : ℕ) (c : Call) : KProc Unit :=
  fixpoint allow callBody fuel c

end SaltyOS
