import SaltyOS.Cap.Untyped

/-!
# The capability space

An abstract view of the slot array: which slots are occupied, the capability in every slot, and its
parent in the derivation tree. `CapSpace.Step` lists what the operations of the capability system do
to it. We show that rights are confined if every derived capability gets at most the rights of the
capability it is derived from: a descendant that names the same object has no right that its
ancestor lacks.
-/

open Function Relation

namespace SaltyOS

/-- The occupied slots, their capabilities and their parents. -/
structure CapSpace where
  cap : CapSlot → Capability
  parent : CapSlot → CapSlot
  occupied : CapSlot → Prop

/-- A capability that nothing can be derived or carved from. -/
structure Capability.Spare (cap : Capability) : Prop where
  grant : cap.hasRight CapRights.grant = false
  retype : cap.hasRight CapRights.retype = false
  objType : cap.objType ≠ .untyped

theorem Capability.spare_null :
  Capability.null.Spare
  := by
  constructor <;> decide

namespace CapSpace

/-- One slot is the parent of another one. -/
def Child (a : CapSpace) (c p : CapSlot) : Prop := p ≠ invalidSlot ∧ a.parent c = p

/-- One slot is above another one in the derivation tree. -/
def Above (a : CapSpace) : CapSlot → CapSlot → Prop := TransGen a.Child

/-- The slot has no parent and no child. -/
def Isolated (a : CapSpace) (s : CapSlot) : Prop :=
  a.parent s = invalidSlot ∧ ∀ c, ¬ a.Child c s

/-- The slot is the same in both spaces. -/
structure Same (a b : CapSpace) (s : CapSlot) : Prop where
  cap : b.cap s = a.cap s
  parent : b.parent s = a.parent s
  occupied : b.occupied s ↔ a.occupied s

/-- The slot is the same in both spaces up to the badge and the depth. -/
structure Alike (a b : CapSpace) (s : CapSlot) : Prop where
  object : (b.cap s).object = (a.cap s).object
  objType : (b.cap s).objType = (a.cap s).objType
  rights : (b.cap s).rights = (a.cap s).rights
  parent : b.parent s = a.parent s
  occupied : b.occupied s ↔ a.occupied s

theorem Same.alike {a b : CapSpace} {s : CapSlot} (h : a.Same b s) :
  a.Alike b s
  := by
  constructor
  · rw [h.cap]
  · rw [h.cap]
  · rw [h.cap]
  · apply h.parent
  · apply h.occupied

/-- The slot has been freed. -/
structure Gone (a : CapSpace) (s : CapSlot) : Prop where
  spare : (a.cap s).Spare
  parent : a.parent s = invalidSlot
  free : ¬ a.occupied s

theorem Same.trans {a b c : CapSpace} {s : CapSlot} (h : a.Same b s) (h' : b.Same c s) :
  a.Same c s
  := ⟨h'.cap.trans h.cap, h'.parent.trans h.parent, h'.occupied.trans h.occupied⟩

theorem Gone.of_same {a b : CapSpace} {s : CapSlot} (h : a.Gone s) (h' : a.Same b s) :
  b.Gone s
  := by
  constructor
  · rw [h'.cap]
    apply h.spare
  · rw [h'.parent]
    apply h.parent
  · rw [h'.occupied]
    apply h.free

/-- The steps of the capability space, where `ok` says which rights may be derived from which. -/
inductive Step (ok : CapRights → CapRights → Prop) (a : CapSpace) : CapSpace → Prop where
  /-- Allocate a slot. -/
  | alloc (s : CapSlot) : Step ok a { a with occupied := update a.occupied s True }
  /-- Free slots, children before their parents. -/
  | prune (b : CapSpace) (slots : ∀ s, a.Same b s ∨ b.Gone s)
      (closed : ∀ c p, b.Child c p → b.occupied p) : Step ok a b
  /-- Write a capability that is not derived from another one. -/
  | write (s : CapSlot) (cap : Capability) (isolated : a.Isolated s)
      (root : cap.objType = .untyped → ∃ n, cap.object = .static n)
      (occupied : a.occupied s ∨ cap.Spare) : Step ok a { a with cap := update a.cap s cap }
  /-- Derive a capability. -/
  | derive (src s : CapSlot) (rights : CapRights) (badge : ℕ) (isolated : a.Isolated s)
      (ne : src ≠ s) (valid : src ≠ invalidSlot) (source : a.occupied src) (occupied : a.occupied s)
      (rights_ok : ok (a.cap src).rights rights) :
      Step ok a
        { a with
          cap := update a.cap s
            { a.cap src with rights, badge, depth := (a.cap src).depth + 1 }
          parent := update a.parent s src }
  /-- Carve a new object. -/
  | carve (src s : CapSlot) (newType : ObjectType) (addr : PhysAddr) (isolated : a.Isolated s)
      (ne : src ≠ s) (valid : src ≠ invalidSlot) (source : a.occupied src) (occupied : a.occupied s)
      (untyped : (a.cap src).objType = .untyped) :
      Step ok a
        { a with
          cap := update a.cap s
            { object := objectPtr newType s addr, objType := newType, rights := CapRights.all,
              depth := 0, badge := 0 }
          parent := update a.parent s src }
  /-- Change the badge of a capability. -/
  | badge (s : CapSlot) (badge : ℕ) :
      Step ok a { a with cap := update a.cap s { a.cap s with badge } }

/-- A capability is derived from another one. -/
structure Derived (cap parent : Capability) : Prop where
  object : cap.object = parent.object
  objType : cap.objType = parent.objType
  rights : parent.rights.contains cap.rights = true

theorem Derived.alike {a b : CapSpace} {s t : CapSlot} (h : Derived (a.cap s) (a.cap t))
    (hs : a.Alike b s) (ht : a.Alike b t) :
  Derived (b.cap s) (b.cap t)
  := by
  constructor
  · rw [hs.object, ht.object, h.object]
  · rw [hs.objType, ht.objType, h.objType]
  · rw [hs.rights, ht.rights, h.rights]

/-- The invariant of the capability space. A capability is derived from that of its parent, or its
object has been carved and is not named above. A capability to a carved untyped region sits in the
slot the region was created with, or is derived from its parent. -/
structure Confined (rank : CapSlot → ℕ) (a : CapSpace) : Prop where
  rank_lt : ∀ c p, a.Child c p → rank p < rank c
  spare : ∀ s, ¬ a.occupied s → (a.cap s).Spare
  occupied : ∀ c p, a.Child c p → a.occupied p
  kind : ∀ s, (a.cap s).objType = .untyped →
    (∃ n, (a.cap s).object = .static n) ∨ ∃ t, (a.cap s).object = .untypedMeta t
  own : ∀ s t, (a.cap s).objType = .untyped → (a.cap s).object = .untypedMeta t →
    s = t ∨ ∃ p, a.Child s p ∧ Derived (a.cap s) (a.cap p)
  edge : ∀ c p, a.Child c p → Derived (a.cap c) (a.cap p) ∨ ((a.cap p).objType = .untyped ∧
      ∀ q, ReflTransGen a.Child p q → (a.cap q).object ≠ (a.cap c).object)

namespace Confined

variable {rank : CapSlot → ℕ} {a b : CapSpace}

/-- What is above a capability to an untyped region are capabilities to untyped regions. -/
theorem untyped_above (h : Confined rank a) {c p : CapSlot}
    (hcp : ReflTransGen a.Child c p) (hc : (a.cap c).objType = .untyped) :
  (a.cap p).objType = .untyped
  := by
  induction hcp with
  | refl => apply hc
  | tail _ hpq ih =>
    obtain hderived | ⟨huntyped, _⟩ := h.edge _ _ hpq
    · rw [← hderived.objType]
      apply ih
    · apply huntyped

/-- A capability to a carved untyped region is at or below the slot that the region was created
with. -/
theorem below_own (h : Confined rank a) {s t : CapSlot} (hs : (a.cap s).objType = .untyped)
    (ht : (a.cap s).object = .untypedMeta t) :
  ReflTransGen a.Child s t
  := by
  induction hn : rank s using Nat.strong_induction_on generalizing s with
  | h n ih =>
    obtain rfl | ⟨p, hsp, hderived⟩ := h.own s t hs ht
    · apply ReflTransGen.refl
    · have hp := ih (rank p) (hn ▸ h.rank_lt s p hsp) (hderived.objType ▸ hs) (hderived.object ▸ ht) rfl
      apply ReflTransGen.head hsp hp

/-- Rights are confined: a descendant that names the same object has no more rights. -/
theorem rights_subset (h : Confined rank a) {d s : CapSlot} (hds : a.Above d s)
    (hobject : (a.cap d).object = (a.cap s).object) :
  (a.cap s).rights.contains (a.cap d).rights = true
  := by
  induction hds using TransGen.head_induction_on with
  | single hds =>
    obtain hderived | ⟨_, hfresh⟩ := h.edge _ _ hds
    · apply hderived.rights
    · exact absurd hobject.symm (hfresh _ .refl)
  | head hdp hps ih =>
    obtain hderived | ⟨_, hfresh⟩ := h.edge _ _ hdp
    · apply CapRights.contains_trans _ hderived.rights
      apply ih
      rw [← hderived.object, hobject]
    · exact absurd hobject.symm (hfresh _ hps.to_reflTransGen)

/-! ## The invariant is kept -/

/-- What is above a slot does not change when an isolated slot is linked. -/
theorem above_of_edit {s p q : CapSlot} (hs : a.Isolated s)
    (hparent : ∀ t, t ≠ s → b.parent t = a.parent t) (hp : p ≠ s)
    (hpq : ReflTransGen b.Child p q) :
  q ≠ s ∧ ReflTransGen a.Child p q
  := by
  induction hpq with
  | refl => exact ⟨hp, .refl⟩
  | tail _ hqr ih =>
    obtain ⟨hq, hpq⟩ := ih
    have hqr' := hqr
    rw [Child, hparent _ hq] at hqr'
    refine ⟨?_, hpq.tail hqr'⟩
    rintro rfl
    apply hs.2 _ hqr'

section

variable (h : Confined rank a)
include h

/-- Writing the capability of an isolated slot and giving it a parent. -/
theorem edit {s : CapSlot} (hs : a.Isolated s) (hcap : ∀ t, t ≠ s → b.cap t = a.cap t)
    (hparent : ∀ t, t ≠ s → b.parent t = a.parent t) (hoccupied : b.occupied = a.occupied)
    (hspare : a.occupied s ∨ (b.cap s).Spare) (hkind : (b.cap s).objType = .untyped →
      (∃ n, (b.cap s).object = .static n) ∨ ∃ t, (b.cap s).object = .untypedMeta t)
    (hown : ∀ t, (b.cap s).objType = .untyped → (b.cap s).object = .untypedMeta t →
      s = t ∨ ∃ p, b.Child s p ∧ Derived (b.cap s) (a.cap p))
    (hedge : ∀ p, b.Child s p → p ≠ s ∧ a.occupied p ∧ (Derived (b.cap s) (a.cap p) ∨
      ((a.cap p).objType = .untyped ∧
      ∀ q, ReflTransGen a.Child p q → (a.cap q).object ≠ (b.cap s).object))) :
  Confined (update rank s (rank (b.parent s) + 1)) b
  := by
  have hchild : ∀ c p, c ≠ s → b.Child c p → a.Child c p ∧ p ≠ s := by
    intro c p hc hcp
    rw [Child, hparent c hc] at hcp
    use hcp
    rintro rfl
    apply hs.2 c hcp
  have hchild' : ∀ c p, c ≠ s → a.Child c p → b.Child c p := by
    intro c p hc hcp
    rw [Child, hparent c hc]
    apply hcp
  constructor
  · intro c p hcp
    by_cases hc : c = s
    · subst hc
      have hp := (hedge p hcp).1
      rw [update_self, update_of_ne hp, hcp.2]
      apply Nat.lt_succ_self
    · obtain ⟨hcp', hp⟩ := hchild c p hc hcp
      rw [update_of_ne hc, update_of_ne hp]
      apply h.rank_lt c p hcp'
  · intro t ht
    rw [hoccupied] at ht
    by_cases hts : t = s
    · subst hts
      apply hspare.resolve_left ht
    · rw [hcap t hts]
      apply h.spare t ht
  · intro c p hcp
    rw [hoccupied]
    by_cases hc : c = s
    · subst hc
      apply (hedge p hcp).2.1
    · apply h.occupied c p (hchild c p hc hcp).1
  · intro t ht
    by_cases hts : t = s
    · subst hts
      apply hkind ht
    · rw [hcap t hts] at ht ⊢
      apply h.kind t ht
  · intro t u ht hu
    by_cases hts : t = s
    · subst hts
      obtain heq | ⟨p, hcp, hderived⟩ := hown u ht hu
      · left
        apply heq
      right
      use p, hcp
      rw [hcap p (hedge p hcp).1]
      apply hderived
    · rw [hcap t hts] at ht hu ⊢
      obtain heq | ⟨p, htp, hderived⟩ := h.own t u ht hu
      · left
        apply heq
      right
      have htp' := hchild' t p hts htp
      use p, htp'
      rw [hcap p (hchild t p hts htp').2]
      apply hderived
  · intro c p hcp
    have hold : p ≠ s ∧ (Derived (b.cap c) (a.cap p) ∨ ((a.cap p).objType = .untyped ∧
        ∀ q, ReflTransGen a.Child p q → (a.cap q).object ≠ (b.cap c).object)) := by
      by_cases hc : c = s
      · subst hc
        obtain ⟨hp, _, hnew⟩ := hedge p hcp
        exact ⟨hp, hnew⟩
      · rw [hcap c hc]
        obtain ⟨hcp', hp⟩ := hchild c p hc hcp
        exact ⟨hp, h.edge c p hcp'⟩
    obtain ⟨hp, hold⟩ := hold
    rw [hcap p hp]
    apply hold.imp_right
    rintro ⟨huntyped, hfresh⟩
    use huntyped
    intro q hpq
    obtain ⟨hq, hpq'⟩ := above_of_edit hs hparent hp hpq
    rw [hcap q hq]
    apply hfresh q hpq'

/-- Freeing slots, children before their parents. Badges and depths do not matter. -/
theorem prune (hslots : ∀ s, a.Alike b s ∨ b.Gone s) (hclosed : ∀ c p, b.Child c p → b.occupied p) :
  Confined rank b
  := by
  have halike : ∀ s, ¬ (b.cap s).Spare ∨ b.parent s ≠ invalidSlot ∨ b.occupied s → a.Alike b s := by
    intro s hs
    obtain halike | hgone := hslots s
    · apply halike
    obtain hspare | hparent | hoccupied := hs
    · exact absurd hgone.spare hspare
    · exact absurd hgone.parent hparent
    · exact absurd hoccupied hgone.free
  have hchild : ∀ c p, b.Child c p → a.Child c p ∧ a.Alike b c ∧ a.Alike b p := by
    intro c p hcp
    have hc : a.Alike b c := by
      apply halike
      right
      left
      rw [hcp.2]
      apply hcp.1
    have hp : a.Alike b p := by
      apply halike
      right
      right
      apply hclosed c p hcp
    refine ⟨?_, hc, hp⟩
    rw [Child, ← hc.parent]
    apply hcp
  have habove : ∀ p q, a.Alike b p → ReflTransGen b.Child p q →
      a.Alike b q ∧ ReflTransGen a.Child p q := by
    intro p q hp hpq
    induction hpq with
    | refl => exact ⟨hp, .refl⟩
    | tail _ hqr ih =>
      obtain ⟨hqr', _, hr⟩ := hchild _ _ hqr
      exact ⟨hr, ih.2.tail hqr'⟩
  have huntyped : ∀ s, (b.cap s).objType = .untyped → a.Alike b s := by
    intro s hs
    apply halike
    left
    intro hspare
    apply hspare.objType hs
  constructor
  · intro c p hcp
    apply h.rank_lt c p (hchild c p hcp).1
  · intro s hs
    obtain hs' | hgone := hslots s
    · rw [hs'.occupied] at hs
      obtain ⟨hgrant, hretype, htype⟩ := h.spare s hs
      rw [Capability.hasRight, ← hs'.rights] at hgrant hretype
      rw [← hs'.objType] at htype
      exact ⟨hgrant, hretype, htype⟩
    · apply hgone.spare
  · apply hclosed
  · intro s hs
    have hs' := huntyped s hs
    rw [hs'.objType] at hs
    rw [hs'.object]
    apply h.kind s hs
  · intro s t hs ht
    have hs' := huntyped s hs
    rw [hs'.objType] at hs
    rw [hs'.object] at ht
    apply (h.own s t hs ht).imp_right
    rintro ⟨p, hsp, hderived⟩
    have hsp' : b.Child s p := by
      rw [Child, hs'.parent]
      apply hsp
    use p, hsp'
    apply hderived.alike hs' (hchild s p hsp').2.2
  · intro c p hcp
    obtain ⟨hcp', hc, hp⟩ := hchild c p hcp
    apply (h.edge c p hcp').imp
    · intro hderived
      apply hderived.alike hc hp
    · rintro ⟨htype, hfresh⟩
      rw [hp.objType, hc.object]
      use htype
      intro q hpq
      obtain ⟨hq, hpq'⟩ := habove p q hp hpq
      rw [hq.object]
      apply hfresh q hpq'

/-- A carved object is not named above the slot it is carved from. -/
theorem carve_fresh {src s : CapSlot} {newType : ObjectType} {addr : PhysAddr} (hs : a.Isolated s)
    (hne : src ≠ s) (hsrc : (a.cap src).objType = .untyped) {q : CapSlot}
    (hq : ReflTransGen a.Child src q) :
  (a.cap q).object ≠ objectPtr newType s addr
  := by
  intro hobject
  have huntyped := h.untyped_above hq hsrc
  have hqs : q ≠ s := by
    rintro rfl
    obtain heq | ⟨c, _, hc⟩ := ReflTransGen.cases_tail hq
    · exact absurd heq.symm hne
    · apply hs.2 c hc
  obtain ⟨n, hn⟩ | ⟨t, ht⟩ := h.kind q huntyped
  · rw [hobject] at hn
    cases newType <;> cases hn
  have hts : t = s := by
    rw [hobject] at ht
    cases newType <;> cases ht
    rfl
  subst hts
  obtain heq | ⟨c, _, hc⟩ := ReflTransGen.cases_tail (h.below_own huntyped ht)
  · exact absurd heq.symm hqs
  · apply hs.2 c hc

end

section

variable {ok : CapRights → CapRights → Prop}
  (hok : ∀ r s : CapRights, ok r s → r.contains s = true) (h : Confined rank a)
include hok h

/-- Every step keeps the invariant if derived capabilities get at most the rights of their source. -/
theorem step (hab : Step ok a b) :
  ∃ rank', Confined rank' b
  := by
  cases hab with
  | alloc s =>
    refine ⟨rank, h.rank_lt, ?_, ?_, h.kind, h.own, h.edge⟩
    · intro t ht
      apply h.spare t
      intro hoccupied
      apply ht
      simp only [update_apply]
      split
      · trivial
      · apply hoccupied
    · intro c p hcp
      simp only [update_apply]
      split
      · trivial
      · apply h.occupied c p hcp
  | prune b hslots hclosed => exact ⟨rank, h.prune (fun s => (hslots s).imp_left Same.alike) hclosed⟩
  | write s cap isolated root occupied =>
    refine ⟨_, h.edit isolated (fun t ht => update_of_ne ht _ _) (fun _ _ => rfl) rfl ?_ ?_ ?_ ?_⟩
    · simp only [update_self]
      apply occupied
    · simp only [update_self]
      intro htype
      left
      apply root htype
    · simp only [update_self]
      intro t htype ht
      obtain ⟨n, hn⟩ := root htype
      rw [hn] at ht
      cases ht
    · rintro p ⟨hp, hparent⟩
      exact absurd (hparent.symm.trans isolated.1) hp
  | derive src s rights badge isolated ne valid source occupied rights_ok =>
    have hderived : Derived { a.cap src with rights, badge, depth := (a.cap src).depth + 1 }
        (a.cap src) := ⟨rfl, rfl, hok _ _ rights_ok⟩
    refine ⟨_, h.edit isolated (fun t ht => update_of_ne ht _ _)
      (fun t ht => update_of_ne ht _ _) rfl (.inl occupied) ?_ ?_ ?_⟩
    · simp only [update_self]
      apply h.kind src
    · simp only [update_self]
      intro t _ _
      right
      exact ⟨src, ⟨valid, update_self ..⟩, hderived⟩
    · rintro p ⟨hp, hparent⟩
      subst hparent
      simp only [update_self]
      exact ⟨ne, source, .inl hderived⟩
  | carve src s newType addr isolated ne valid source occupied untyped =>
    refine ⟨_, h.edit isolated (fun t ht => update_of_ne ht _ _)
      (fun t ht => update_of_ne ht _ _) rfl (.inl occupied) ?_ ?_ ?_⟩
    · simp only [update_self]
      intro htype
      subst htype
      right
      exact ⟨s, rfl⟩
    · simp only [update_self]
      intro t htype ht
      subst htype
      left
      cases ht
      rfl
    · rintro p ⟨hp, hparent⟩
      subst hparent
      simp only [update_self]
      refine ⟨ne, source, .inr ⟨untyped, ?_⟩⟩
      intro q hq
      apply h.carve_fresh isolated ne untyped hq
  | badge s badge =>
    refine ⟨rank, h.prune ?_ h.occupied⟩
    intro t
    left
    obtain rfl | hts := eq_or_ne t s
    · constructor <;> simp
    · exact Same.alike ⟨update_of_ne hts _ _, rfl, .rfl⟩

/-- Every run keeps the invariant. -/
theorem run (hab : ReflTransGen (Step ok) a b) :
  ∃ rank', Confined rank' b
  := by
  have hstart : ∃ rank, Confined rank a := ⟨rank, h⟩
  apply invariant_of_run (I := fun a => ∃ rank, Confined rank a) _ hstart hab
  rintro a b ⟨rank, ha⟩ hab
  apply ha.step hok hab

end

end Confined

end CapSpace

end SaltyOS
