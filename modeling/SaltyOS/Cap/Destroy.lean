import SaltyOS.Cap.MoDestroy

/-!
# A rule for the procedures of deletion and destruction

An invariant of the kernel survives deletion, revocation and destruction if it survives the steps
these procedures consist of. `DeletionSpec` collects what is to be shown of the procedures,
`DeletionSpec.Sound` lists the steps, and `DeletionSpec.invoke_sat` is the rule. Most steps only keep
books about threads, reference counts and mappings. They are the constructors of `BookStep`.
-/

namespace SaltyOS

open Prog

/-! ## Bookkeeping -/

/-- A step that changes threads, reference counts, mappings or who is alive. -/
inductive BookStep (k : Kernel) : Kernel → Prop where
  | tcb (obj : ObjPtr) (f : Tcb → Tcb) (hstack : ∀ t, (f t).kernelStack = t.kernelStack)
      (htrampoline : ∀ t, (f t).trampolineStack = t.trampolineStack) : BookStep k (k.setTcb obj f)
  | notificationTcb (f : ObjPtr → ObjPtr) : BookStep k { k with notificationTcb := f }
  | irqNotification (f : ObjPtr → ObjPtr) : BookStep k { k with irqNotification := f }
  | schedContextTcb (f : ObjPtr → ObjPtr) : BookStep k { k with schedContextTcb := f }
  | refCount (obj : ObjPtr) (count : ℕ) : BookStep k (k.setRefCount obj count)
  | kill (obj : ObjPtr) : BookStep k (k.kill obj)
  | reverseMaps (obj : ObjPtr) (f : ReverseMaps → ReverseMaps) :
      BookStep k (k.setMo obj fun m => { m with reverseMaps := f m.reverseMaps })
  | mappings (obj : ObjPtr) (mappings : List (VirtAddr × VmArea)) (tracking : Bool) :
      BookStep k (k.setVSpace obj fun vs => { vs with mappings, tracking })

/-- Bookkeeping is quiet. -/
theorem BookStep.sameSlots {k k' : Kernel} (h : BookStep k k') :
  SameSlots k k'
  := by
  cases h with
  | tcb obj f _ _ => apply SameSlots.setTcb
  | notificationTcb f => apply SameSlots.of_eq <;> rfl
  | irqNotification f => apply SameSlots.of_eq <;> rfl
  | schedContextTcb f => apply SameSlots.of_eq <;> rfl
  | refCount obj count => apply SameSlots.setRefCount
  | kill obj => apply SameSlots.kill
  | reverseMaps obj f => apply SameSlots.setMo <;> intro m <;> rfl
  | mappings obj mappings tracking => apply SameSlots.setVSpace

/-! ## Specifications -/

/-- What is to be shown of the procedures: an invariant, how the state moves, why a procedure may
halt, and which slots may be deleted, dropped and revoked. A slot is being `dropped` from the time it
is out of the derivation tree. The destruction of memory objects has an invariant and relations of
its own. -/
structure DeletionSpec where
  inv : Kernel → Prop
  rel : Kernel → Kernel → Prop
  halts : Halt → Prop
  deletable : CapSlot → Kernel → Prop
  droppable : CapSlot → Kernel → Prop
  dropped : CapSlot → Kernel → Prop
  revocable : CapSlot → Kernel → Prop
  moInv : Kernel → Prop
  moRel : ObjPtr → Kernel → Kernel → Prop
  siblingRel : Kernel → Kernel → Prop

namespace DeletionSpec

/-- The precondition of each procedure. -/
def pre (S : DeletionSpec) : Call → Kernel → Prop
  | .revoke s, k => S.inv k ∧ S.revocable s k
  | .deleteCapability s, k => S.inv k ∧ S.deletable s k
  | .removeUtChild .., k => S.inv k
  | .releaseObject _ _, k => S.inv k
  | .destroyObject obj _, k => S.inv k ∧ obj ≠ .null
  | .moDestroy mo, k => S.moInv k ∧ mo ≠ .null
  | .removeSibling child _, k => S.moInv k ∧ child ≠ .null

/-- The postcondition of each procedure. -/
def post (S : DeletionSpec) : Call → Kernel → Kernel → Prop
  | .moDestroy mo, k, k' => S.moInv k' ∧ S.moRel mo k k'
  | .removeSibling _ _, k, k' => S.moInv k' ∧ S.siblingRel k k'
  | _, k, k' => S.inv k' ∧ S.rel k k'

/-- The calls meet their specification. -/
def Meets (S : DeletionSpec) (call : Call → KProc Unit) : Prop :=
  ∀ c k, S.pre c k → (call c k).Sat (fun _ => S.post c k) (fun _ => S.post c k) S.halts

/-- From the state `k`, a program restores the invariant and moves the state as the specification
says. -/
abbrev KeepsAt (S : DeletionSpec) (k : Kernel) {α : Type} (m : KProc α) : Prop :=
  (m k).Sat (fun _ k' => S.inv k' ∧ S.rel k k') (fun _ k' => S.inv k' ∧ S.rel k k') S.halts

/-- A program keeps the invariant and moves the state as the specification says. -/
abbrev Keeps (S : DeletionSpec) {α : Type} (m : KProc α) : Prop :=
  Prog.Keeps S.inv S.rel S.halts m

/-- The steps that concern slots and references are as the specification says, if the only calls made
are those that `allow` accepts. -/
structure SlotSound (S : DeletionSpec) (allow : Call → Kernel → Bool) : Prop where
  unlinkUtChild : ∀ {k} ut child prev, S.inv k →
    S.inv (k.unlinkUtChild ut child prev) ∧ S.rel k (k.unlinkUtChild ut child prev)
  droppable : ∀ {k s}, S.inv k → S.deletable s k → allow (.deleteCapability s) k = true →
    (k.slotMeta s).state ≠ .free → S.droppable s k
  remove : ∀ {k s}, S.inv k → S.droppable s k → S.inv (k.remove s) ∧ S.dropped s (k.remove s)
  dropped_rel : ∀ {k k' s}, S.inv k → S.dropped s k → S.inv k' → S.rel k k' → S.dropped s k'
  drop : ∀ {k k' s}, S.inv k → S.droppable s k → S.inv k' → S.rel (k.remove s) k' →
    S.dropped s k' → S.inv (k'.dropSlot s) ∧ S.rel k (k'.dropSlot s)
  revocable_child : ∀ {k s}, S.inv k → S.revocable s k → k.hasChildren s = true →
    S.revocable (k.slotMeta s).cdtFirstChild k
  revocable_rel : ∀ {k k' s}, S.inv k → S.revocable s k → k.hasChildren s = true → S.inv k' →
    S.rel k k' → S.revocable s k'
  deletable : ∀ {k s}, S.inv k → S.revocable s k → k.hasChildren s = false → S.deletable s k
  reference : ∀ {k k' obj i}, S.inv k → allow (.destroyObject obj .cnode) k = true →
    S.rel (k.kill obj) k' → S.inv k' → i < k.numRefs obj →
    (k'.cnode obj).slots i ≠ invalidSlot → S.deletable ((k'.cnode obj).slots i) k'

/-- The steps that concern memory and bookkeeping are as the specification says. -/
structure MemorySound (S : DeletionSpec) (allow : Call → Kernel → Bool) : Prop where
  outOfFuel : S.halts .outOfFuel
  refused : S.halts .refused
  book : ∀ {k k'}, S.inv k → BookStep k k' → S.inv k' ∧ S.rel k k'
  untypedFrames : ∀ {k obj}, S.inv k → allow (.destroyObject obj .untyped) k = true →
    S.KeepsAt (k.kill obj)
      (forEach (k.untyped obj).frames fun addr => pmmFree addr (.kernelPrivate .general))
  objectFrames : ∀ {k obj}, S.inv k → allow (.destroyObject obj .frame) k = true →
    S.KeepsAt (k.kill obj)
      (forEach (k.frame obj).frames fun addr => pmmFree addr (.kernelPrivate .general))
  kernelStacks : ∀ tcb, S.Keeps (freeStacks tcb)
  moInv : ∀ {k}, S.inv k → S.moInv k
  mo : ∀ {k k' mo}, S.inv k → S.moInv k' → S.moRel mo k k' → S.inv k' ∧ S.rel k k'
  moDestroy : ∀ {call k mo}, S.Meets call → S.moInv k → mo ≠ .null →
    allow (.moDestroy mo) k = true → (SaltyOS.moDestroy call mo k).Sat
      (fun _ => S.post (.moDestroy mo) k) (fun _ => S.post (.moDestroy mo) k) S.halts
  removeSibling : ∀ {call child prev}, S.Meets call → child ≠ .null →
    Prog.Keeps S.moInv S.siblingRel S.halts (SaltyOS.removeSibling call child prev)

/-- The steps of the procedures are as the specification says. -/
structure Sound (S : DeletionSpec) (allow : Call → Kernel → Bool) : Prop
    extends SlotSound S allow, MemorySound S allow where
  preorder : IsPreorder Kernel S.rel

/-! ## The procedures -/

section Bodies

variable {S : DeletionSpec} {allow : Call → Kernel → Bool} (hS : S.Sound allow)
variable {call : Call → KProc Unit} (hcall : S.Meets call)

include hS

/-- A step of bookkeeping in a program. -/
theorem keeps_book {f : Kernel → Kernel} (hf : ∀ k, BookStep k (f k)) :
  S.Keeps (Prog.modify f)
  := by
  apply keeps_modify
  intro k hk
  apply hS.book hk (hf k)

/-- A change of a thread that leaves its stacks alone. -/
theorem keeps_tcb {tcb : ObjPtr} {f : Tcb → Tcb} (hstack : ∀ t, (f t).kernelStack = t.kernelStack)
    (htrampoline : ∀ t, (f t).trampolineStack = t.trampolineStack) :
  S.Keeps (Prog.modify fun k => k.setTcb tcb f)
  := by
  apply keeps_book hS
  intro k
  apply BookStep.tcb tcb f hstack htrampoline

include hcall

omit hS in
/-- A reference to an object is dropped by a call. -/
theorem keeps_release (obj : ObjPtr) (objType : ObjectType) :
  S.Keeps (call (.releaseObject obj objType))
  := hcall (.releaseObject obj objType)

/-- The objects that a thread refers to are released one after the other. -/
theorem unbindThread_keeps (tcb : ObjPtr) :
  S.Keeps (unbindThread call tcb)
  := by
  have := hS.preorder
  apply keeps_bind keeps_get
  intro k
  apply keeps_bind
  · apply keeps_when
    intro _
    apply keeps_bind (keeps_book hS fun k => .notificationTcb _)
    intro _
    apply keeps_bind
    · apply keeps_tcb hS <;> intro t <;> rfl
    intro _
    apply keeps_release hcall
  intro _
  apply keeps_bind keeps_get
  intro k
  apply keeps_bind
  · apply keeps_when
    intro _
    apply keeps_bind
    · apply keeps_tcb hS <;> intro t <;> rfl
    intro _
    apply keeps_release hcall
  intro _
  apply keeps_bind keeps_get
  intro k
  apply keeps_when
  intro _
  apply keeps_bind (keeps_book hS fun k => .schedContextTcb _)
  intro _
  apply keeps_bind
  · apply keeps_tcb hS <;> intro t <;> rfl
  intro _
  apply keeps_release hcall

/-- A thread gives up its references and its stacks. -/
theorem tcbCleanup_keeps (tcb : ObjPtr) :
  S.Keeps (tcbCleanup call tcb)
  := by
  have := hS.preorder
  apply keeps_bind keeps_get
  intro k
  apply keeps_bind (keeps_release hcall _ _)
  intro _
  apply keeps_bind
  · apply keeps_tcb hS <;> intro t <;> rfl
  intro _
  apply keeps_bind keeps_get
  intro k
  apply keeps_bind (keeps_release hcall _ _)
  intro _
  apply keeps_bind
  · apply keeps_tcb hS <;> intro t <;> rfl
  intro _
  apply keeps_bind (hS.kernelStacks tcb)
  intro _
  apply keeps_bind (unbindThread_keeps hS hcall tcb)
  intro _
  apply keeps_bind keeps_get
  intro k
  apply keeps_bind (keeps_release hcall _ _)
  intro _
  apply keeps_bind
  · apply keeps_tcb hS <;> intro t <;> rfl
  intro _
  apply keeps_bind keeps_get
  intro k
  apply keeps_bind (keeps_release hcall _ _)
  intro _
  apply keeps_tcb hS <;> intro t <;> rfl

/-- An address space gives up its mappings. -/
theorem vspaceCleanup_keeps (vspace : ObjPtr) :
  S.Keeps (vspaceCleanup call vspace)
  := by
  have := hS.preorder
  apply keeps_bind keeps_get
  intro k
  apply keeps_when
  intro _
  apply keeps_bind
  · apply keeps_forEach
    intro mapping _
    apply keeps_when
    intro _
    apply keeps_bind
    · apply keeps_book hS
      intro k
      apply BookStep.reverseMaps _ fun maps => maps.remove vspace mapping.1
    intro _
    apply keeps_release hcall
  intro _
  apply keeps_book hS fun k => .mappings vspace [] false

section

variable {k : Kernel} {s : CapSlot} (hk : S.inv k)
include hk

/-- A capability is taken out of the tree, its object released and its slot freed. -/
theorem dropCapability_sat (hs : S.droppable s k) :
  S.KeepsAt k (dropCapability call s)
  := by
  have := hS.preorder
  obtain ⟨hremove, hdropped⟩ := hS.remove hk hs
  have unlink : ∀ c : Prop, [Decidable c] → ∀ ut prev current,
      S.Keeps (when c (call (.removeUtChild ut s prev current))) := by
    intro c _ ut prev current
    apply keeps_when
    intro _
    apply hcall (.removeUtChild ut s prev current)
  have release : ∀ c : Prop, [Decidable c] → ∀ obj objType,
      S.Keeps (when c (call (.releaseObject obj objType))) := by
    intro c _ obj objType
    apply keeps_when
    intro _
    apply keeps_release hcall
  simp only [DeletionSpec.KeepsAt, dropCapability, sat_bind, sat_modify, sat_get]
  apply (unlink _ _ _ _ _ hremove).mono _ (fun e => e.elim) fun _ => id
  rintro _ k₁ ⟨hk₁, hrel₁⟩
  apply (release _ _ _ k₁ hk₁).mono _ (fun e => e.elim) fun _ => id
  rintro _ k₂ ⟨hk₂, hrel₂⟩
  have hrel := IsTrans.trans _ _ _ hrel₁ hrel₂
  apply hS.drop hk hs hk₂ hrel (hS.dropped_rel hremove hdropped hk₂ hrel)

/-- A slot that is not free is dropped. -/
theorem deleteCapability_sat (hs : S.deletable s k) (hallow : allow (.deleteCapability s) k = true) :
  S.KeepsAt k (deleteCapability call s)
  := by
  have := hS.preorder
  simp only [DeletionSpec.KeepsAt, deleteCapability, sat_bind, sat_get, sat_when]
  constructor
  · intro hstate
    apply dropCapability_sat hS hcall hk (hS.droppable hk hs hallow hstate)
  · intro _
    exact ⟨hk, refl k⟩

/-- The first child of a slot is revoked until there is none, and then the slot is deleted. -/
theorem cdtRevoke_sat (hs : S.revocable s k) :
  S.KeepsAt k (cdtRevoke call s)
  := by
  have := hS.preorder
  simp only [DeletionSpec.KeepsAt, cdtRevoke, sat_bind, sat_get]
  split_ifs with hchildren
  · apply sat_bind_keeps
    apply (hcall (.revoke _) k ⟨hk, hS.revocable_child hk hs hchildren⟩).imp
    rintro _ k₁ ⟨hk₁, hrel⟩
    use hrel
    apply hcall (.revoke s) k₁ ⟨hk₁, hS.revocable_rel hk hs hchildren hk₁ hrel⟩
  · rw [Bool.not_eq_true] at hchildren
    apply hcall (.deleteCapability s) k ⟨hk, hS.deletable hk hs hchildren⟩

end

/-- A child is looked for in the list of an untyped capability. -/
theorem removeUtChild_keeps (ut child prev current : CapSlot) :
  S.Keeps (removeUtChild call ut child prev current)
  := by
  have := hS.preorder
  apply keeps_bind keeps_get
  intro k
  apply keeps_ite
  · intro _
    apply keeps_pure
  intro _
  apply keeps_ite
  · intro _
    apply keeps_modify
    intro k hk
    apply hS.unlinkUtChild ut child prev hk
  · intro _
    apply hcall (.removeUtChild ut child current _)

/-- The last reference to an object destroys it. -/
theorem releaseObject_keeps (obj : ObjPtr) (objType : ObjectType) :
  S.Keeps (releaseObject call obj objType)
  := by
  have := hS.preorder
  apply keeps_bind keeps_get
  intro k
  apply keeps_when
  intro hobj
  apply keeps_bind (keeps_book hS fun k => .refCount obj _)
  intro _
  apply keeps_when
  intro _
  apply keeps_ite
  · intro _
    apply keeps_tcb hS <;> intro t <;> rfl
  · intro _ k hk
    apply hcall (.destroyObject obj objType) k ⟨hk, hobj⟩

/-- The loop over the references of a capability node that is destroyed. -/
theorem deleteReferences_sat {k : Kernel} {obj : ObjPtr} (hk : S.inv k)
    (hallow : allow (.destroyObject obj .cnode) k = true) {indices : List ℕ}
    (hindices : ∀ i ∈ indices, i < k.numRefs obj) {k₁ : Kernel} (hk₁ : S.inv k₁)
    (hrel : S.rel (k.kill obj) k₁) :
  S.KeepsAt k₁ (forEach indices fun i => do
    let k ← Prog.get
    when ((k.cnode obj).slots i ≠ invalidSlot) (call (.deleteCapability ((k.cnode obj).slots i))))
  := by
  have := hS.preorder
  induction indices generalizing k₁ with
  | nil => exact ⟨hk₁, refl k₁⟩
  | cons i indices ih =>
    apply sat_bind_keeps
    have delete : S.KeepsAt k₁ (when ((k₁.cnode obj).slots i ≠ invalidSlot)
        (call (.deleteCapability ((k₁.cnode obj).slots i)))) := by
      rw [DeletionSpec.KeepsAt, sat_when]
      constructor
      · intro hne
        apply hcall (.deleteCapability _) k₁
        use hk₁
        apply hS.reference hk hallow hrel hk₁ (hindices i List.mem_cons_self) hne
      · intro _
        exact ⟨hk₁, refl k₁⟩
    apply delete.imp
    rintro _ k₂ ⟨hk₂, hrel₂⟩
    use hrel₂
    apply ih _ hk₂ (IsTrans.trans _ _ _ hrel hrel₂)
    intro j hj
    apply hindices j (List.mem_cons_of_mem i hj)

/-- An object is destroyed by its type. -/
theorem destroyObject_sat {k : Kernel} {obj : ObjPtr} {objType : ObjectType} (hk : S.inv k)
    (hobj : obj ≠ .null) (hallow : allow (.destroyObject obj objType) k = true) :
  S.KeepsAt k (destroyObject call obj objType)
  := by
  have := hS.preorder
  obtain ⟨hdead, hrel⟩ := hS.book hk (.kill obj)
  apply sat_bind_keeps
  use hrel
  rw [sat_bind, sat_get]
  cases objType with
  | null => exact ⟨hdead, refl _⟩
  | endpoint => exact ⟨hdead, refl _⟩
  | ioPort => exact ⟨hdead, refl _⟩
  | notification =>
    refine keeps_when ?_ _ hdead
    intro _
    apply keeps_bind
    · apply keeps_tcb hS <;> intro t <;> rfl
    intro _
    apply keeps_book hS fun k => .notificationTcb _
  | untyped => apply hS.untypedFrames hk hallow
  | frame => apply hS.objectFrames hk hallow
  | memoryObject =>
    apply (hcall (.moDestroy obj) (k.kill obj) ⟨hS.moInv hdead, hobj⟩).imp_state _ fun _ => id
    rintro k' ⟨hk', hmo⟩
    apply hS.mo hdead hk' hmo
  | cnode =>
    apply deleteReferences_sat hS hcall hk hallow _ hdead (refl _)
    intro i hi
    apply List.mem_range.mp hi
  | vspace => apply vspaceCleanup_keeps hS hcall obj _ hdead
  | tcb => apply tcbCleanup_keeps hS hcall obj _ hdead
  | irqHandler =>
    apply sat_bind_keeps
    obtain ⟨hk₁, hrel₁⟩ := hS.book hdead (.irqNotification (Function.update k.irqNotification obj .null))
    use hrel₁
    apply keeps_release hcall _ _ _ hk₁
  | schedContext =>
    refine keeps_bind ?_ ?_ _ hdead
    · apply keeps_when
      intro _
      apply keeps_tcb hS <;> intro t <;> rfl
    · intro _
      apply keeps_book hS fun k => .schedContextTcb _

end Bodies

/-- Every call that is made with the precondition of its procedure meets the specification. -/
theorem invoke_sat {S : DeletionSpec} {allow : Call → Kernel → Bool} (hS : S.Sound allow) (fuel : ℕ) :
  S.Meets (invoke allow fuel)
  := by
  intro c k hk
  apply fixpoint_sat S.pre hS.outOfFuel hS.refused _ fuel c k hk
  intro call hcall c k hpre hallow
  cases c with
  | revoke s => apply cdtRevoke_sat hS hcall hpre.1 hpre.2
  | deleteCapability s => apply deleteCapability_sat hS hcall hpre.1 hpre.2 hallow
  | removeUtChild ut child prev current =>
    apply removeUtChild_keeps hS hcall ut child prev current k hpre
  | releaseObject obj objType => apply releaseObject_keeps hS hcall obj objType k hpre
  | destroyObject obj objType => apply destroyObject_sat hS hcall hpre.1 hpre.2 hallow
  | moDestroy mo => apply hS.moDestroy hcall hpre.1 hpre.2 hallow
  | removeSibling child prev => apply hS.removeSibling hcall hpre.2 k hpre.1

end DeletionSpec

end SaltyOS
