import SaltyOS.Cap.CNode

/-!
# The state at boot

At boot the kernel creates its static objects and installs capabilities to them in the capability
node of the initial thread.
-/

namespace SaltyOS

/-- `insert_static_cap_with_rights`: install a capability to a static object. A failure is fatal. -/
def insertStaticCapWithRights (cnode : ObjPtr) (cnodeIndex : ℕ) (object : ObjPtr)
    (objType : ObjectType) (rights : CapRights) : KProg Unit := do
  let slot ← allocSlot
  Prog.modify fun k => k.setCap slot { object, objType, rights, depth := 0, badge := 0 }
  insertRef cnode cnodeIndex slot

/-- No capability has been installed yet, no capability node refers to a slot and no memory object
has a parent or a child. -/
structure AtBoot (k : Kernel) : Prop where
  numSlots : k.numSlots ≤ invalidSlot
  nextSlot : k.nextSlot = 0
  cap : ∀ s, k.cap s = Capability.null
  slotMeta : ∀ s, k.slotMeta s = CapSlotMeta.free
  cnode : ∀ p i, (k.cnode p).slots i = invalidSlot
  cowParent : ∀ m, (k.mo m).cowParent = 0
  firstChild : ∀ m, (k.mo m).firstChild = .null
  nextSibling : ∀ m, (k.mo m).nextSibling = .null

/-- One capability to a static object is installed. -/
def InstallStep (k k' : Kernel) : Prop :=
  ∃ cnode cnodeIndex index objType rights,
    (insertStaticCapWithRights cnode cnodeIndex (.static index) objType rights k).state? = some k'

/-- A state after the capabilities to static objects have been installed. -/
def Booted (k : Kernel) : Prop :=
  ∃ k₀, AtBoot k₀ ∧ Relation.ReflTransGen InstallStep k₀ k

/-- A state with no objects. -/
def Kernel.blank (numSlots : ℕ) : Kernel where
  cap _ := Capability.null
  slotMeta _ := CapSlotMeta.free
  bitmap _ := false
  nextSlot := 0
  numSlots := numSlots
  header _ := { objType := .null, sizeBits := 0, refCount := 0 }
  cnode _ := CNode.empty
  untyped _ := UntypedMemory.new 0 0 false
  frame _ := { physAddr := 0, sizeBits := 0 }
  tcb _ := Tcb.empty
  notificationTcb _ := .null
  irqNotification _ := .null
  schedContextTcb _ := .null
  vspace _ := VSpace.new 0
  mo _ := MemoryObject.new 0 0
  pmm :=
    { bitmap := fun _ => false, nextFree := 0, total := 0, owner := fun _ => .free, metaLen := 0,
      reserve := [] }
  initUntypeds := []
  kernelRoot := 0
  sizeOf _ := 64
  live _ := false

/-- Add a static object. -/
def Kernel.withObject (k : Kernel) (obj : ObjPtr) (header : KernelObject) : Kernel :=
  { k with
    header := Function.update k.header obj header
    live := Function.update k.live obj true }

theorem atBoot_blank {numSlots : ℕ} (h : numSlots ≤ invalidSlot) :
  AtBoot (Kernel.blank numSlots)
  := ⟨h, rfl, fun _ => rfl, fun _ => rfl, fun _ _ => rfl, fun _ => rfl, fun _ => rfl, fun _ => rfl⟩

theorem AtBoot.withObject {k : Kernel} (h : AtBoot k) (obj : ObjPtr) (header : KernelObject) :
  AtBoot (k.withObject obj header)
  := ⟨h.numSlots, h.nextSlot, h.cap, h.slotMeta, h.cnode, h.cowParent, h.firstChild, h.nextSibling⟩

/-- The state after a capability has been installed. -/
def Kernel.install (k : Kernel) (cnode : ObjPtr) (cnodeIndex index : ℕ) (objType : ObjectType)
    (rights : CapRights) : Kernel :=
  ((insertStaticCapWithRights cnode cnodeIndex (.static index) objType rights k).state?).getD k

theorem Booted.install {k : Kernel} (h : Booted k) {cnode : ObjPtr} {cnodeIndex index : ℕ}
    {objType : ObjectType} {rights : CapRights} :
  Booted (k.install cnode cnodeIndex index objType rights)
  := by
  obtain ⟨k₀, hk₀, hrun⟩ := h
  simp only [Kernel.install]
  cases hinsert : (insertStaticCapWithRights cnode cnodeIndex (.static index) objType rights k).state? with
  | none => exact ⟨k₀, hk₀, hrun⟩
  | some k' => exact ⟨k₀, hk₀, hrun.tail ⟨_, _, _, _, _, hinsert⟩⟩

/-- A small system: a capability node, an endpoint with a capability to it at index `0`, and a
second capability node with a capability to it at index `1`. -/
def Kernel.sample : Kernel :=
  let k := (Kernel.blank 8).withObject (.static 0) (KernelObject.new .cnode 4)
  let k := k.withObject (.static 1) (KernelObject.new .endpoint 0)
  let k := k.withObject (.static 2) (KernelObject.new .cnode 4)
  let k := k.install (.static 0) 0 1 .endpoint CapRights.all
  k.install (.static 0) 1 2 .cnode CapRights.all

theorem booted_sample :
  Booted Kernel.sample
  := by
  apply Booted.install
  apply Booted.install
  refine ⟨_, ?_, .refl⟩
  apply AtBoot.withObject
  apply AtBoot.withObject
  apply AtBoot.withObject
  apply atBoot_blank
  decide

end SaltyOS
