import Mathlib.Order.Bounds.Basic

/-!
# Donations of priorities

Every member of a family has a base priority, an effective priority, and possibly another member it
donates its effective priority to. The donations are exact if every effective priority is the least
of the base priority and the effective priorities of the donors.

The file contains:

* the demands on a member, exactness, and donations that do not matter because the demand is met
  without them (`Slack`),
* the passing on of a boost along a chain of donations,
* rules for exactness when a donation is made or withdrawn and when a base priority is changed.
-/

/-- Priorities and donations of a family of members. -/
@[ext]
structure Donations (ι κ : Type) where
  base : ι → κ
  priority : ι → κ
  target : ι → Option ι

open Function

namespace Donations

variable {ι κ : Type}

/-- The members that donate to `t`. -/
def donors (D : Donations ι κ) (t : ι) : Set ι := {d | D.target d = some t}

/-- The base priority of `t` and the priorities of the members in `S`. -/
def demandsOf (D : Donations ι κ) (t : ι) (S : Set ι) : Set κ :=
  insert (D.base t) (D.priority '' S)

/-- The priorities that the priority of `t` is the least of. -/
def demands (D : Donations ι κ) (t : ι) : Set κ := D.demandsOf t (D.donors t)

section Exact

variable [LinearOrder κ]

/-- Every effective priority is the least of what is demanded. -/
def Exact (D : Donations ι κ) : Prop := ∀ t, IsLeast (D.demands t) (D.priority t)

/-- The priority of `t` is what it has to be also without the donation of `d`. -/
def Slack (D : Donations ι κ) (d t : ι) : Prop :=
  IsLeast (D.demandsOf t (D.donors t \ {d})) (D.priority t)

end Exact

variable [DecidableEq ι]

/-- Change the member that `d` donates to. -/
def setTarget (D : Donations ι κ) (d : ι) (t : Option ι) : Donations ι κ :=
  { D with target := update D.target d t }

/-- Change the effective priority of `t`. -/
def setPriority (D : Donations ι κ) (t : ι) (p : κ) : Donations ι κ :=
  { D with priority := update D.priority t p }

/-- Change the base priority of `t`. -/
def setBase (D : Donations ι κ) (t : ι) (p : κ) : Donations ι κ :=
  { D with base := update D.base t p }

/-! ## Donors and demands after a change -/

section Changes

variable {D : Donations ι κ} {c d h t : ι} {p : κ}

/-- A new donation adds a donor. -/
theorem donors_setTarget_same (hd : D.target d ≠ some h) :
  (D.setTarget d (some h)).donors h = insert d (D.donors h) ∧ d ∉ D.donors h
  := by
  constructor
  · ext x
    by_cases hx : x = d
    · simp [donors, setTarget, hx]
    · simp [donors, setTarget, hx]
  · apply hd

/-- A new donation of a member that donated to nobody does not change the other donors. -/
theorem donors_setTarget_other (hd : D.target d = none) (ht : t ≠ h) :
  (D.setTarget d (some h)).donors t = D.donors t
  := by
  ext x
  by_cases hx : x = d
  · simp [donors, setTarget, hx, hd, ht.symm]
  · simp [donors, setTarget, hx]

/-- Withdrawing a donation removes the donor, wherever it donated. -/
theorem donors_setTarget_none :
  (D.setTarget d none).donors t = D.donors t \ {d}
  := by
  ext x
  by_cases hx : x = d
  · simp [donors, setTarget, hx]
  · simp [donors, setTarget, hx]

omit [DecidableEq ι] in
theorem donors_diff_of_ne (hd : D.target d ≠ some t) :
  D.donors t \ {d} = D.donors t
  := Set.sdiff_singleton_eq_self hd

/-- The demands do not depend on the priority of a member outside the set. -/
theorem demandsOf_setPriority {S : Set ι} (hc : c ∉ S) :
  (D.setPriority c p).demandsOf t S = D.demandsOf t S
  := by
  have hS : (D.setPriority c p).priority '' S = D.priority '' S := by
    apply Set.image_congr
    intro x hx
    apply update_of_ne
    rintro rfl
    apply hc hx
  rw [demandsOf, hS]
  rfl

omit [DecidableEq ι] in
/-- The demand of one donor, apart from those of the others. -/
theorem demands_of_donor (hc : D.target c = some t) :
  D.demands t = insert (D.priority c) (D.demandsOf t (D.donors t \ {c}))
  := by
  have hmem : c ∈ D.donors t := hc
  have hS : D.donors t = insert c (D.donors t \ {c}) := (Set.insert_sdiff_self_of_mem hmem).symm
  rw [demands, demandsOf, hS, Set.image_insert_eq, Set.insert_comm, ← hS]
  rfl

/-- The demands after a donor has changed its priority. -/
theorem demands_setPriority_of_donor (hc : D.target c = some t) :
  (D.setPriority c p).demands t = insert p (D.demandsOf t (D.donors t \ {c}))
  := by
  have hc' : (D.setPriority c p).target c = some t := hc
  rw [demands_of_donor hc']
  change insert (update D.priority c p c) ((D.setPriority c p).demandsOf t (D.donors t \ {c})) = _
  rw [update_self, demandsOf_setPriority (Set.notMem_sdiff_of_mem (Set.mem_singleton c))]

/-- The demands on a member are not changed by the priority of one that does not donate to it. -/
theorem demands_setPriority_of_ne (hc : D.target c ≠ some t) :
  (D.setPriority c p).demands t = D.demands t
  := demandsOf_setPriority hc

theorem priority_setPriority_of_ne (ht : t ≠ c) :
  (D.setPriority c p).priority t = D.priority t
  := update_of_ne ht _ _

theorem priority_setPriority_same :
  (D.setPriority c p).priority c = p
  := update_self c _ _

end Changes

/-! ## Chains of donations -/

/-- Follow the donations for the given number of links. -/
def climb (target : ι → Option ι) : ℕ → Option ι → Option ι
  | 0, x => x
  | _ + 1, none => none
  | n + 1, some t => climb target n (target t)

omit [DecidableEq ι] in
theorem climb_none (target : ι → Option ι) (n : ℕ) :
  climb target n none = none
  := by
  cases n with
  | zero => rfl
  | succ n => rfl

omit [DecidableEq ι] in
/-- Chains do not get longer when donations are withdrawn. -/
theorem climb_none_of_le {target target' : ι → Option ι}
    (hle : ∀ t, target' t = target t ∨ target' t = none) (n : ℕ) (x : Option ι)
    (hx : climb target n x = none) :
  climb target' n x = none
  := by
  induction n generalizing x with
  | zero => apply hx
  | succ n ih =>
    obtain _ | t := x
    · rfl
    rw [climb]
    obtain ht | ht := hle t
    · rw [ht]
      apply ih _ hx
    · rw [ht, climb_none]

omit [DecidableEq ι] in
/-- No member of a bounded chain donates to itself. -/
theorem target_ne_self {target : ι → Option ι} {n : ℕ} {t : ι} (ht : climb target n (some t) = none) :
  target t ≠ some t
  := by
  intro hself
  have hsome : ∀ m, climb target m (some t) = some t := by
    intro m
    induction m with
    | zero => rfl
    | succ m ih => rw [climb, hself, ih]
  rw [hsome n] at ht
  cases ht

/-- Every chain of donations has at most `n` links. -/
def Bounded (D : Donations ι κ) (n : ℕ) : Prop :=
  ∀ t, climb D.target (n + 1) (some t) = none

omit [DecidableEq ι] in
/-- Chains along which a rank falls are no longer than the rank. -/
theorem bounded_of_rank {D : Donations ι κ} {n : ℕ} (rank : ι → ℕ)
    (hrank : ∀ t u, D.target t = some u → rank u < rank t) (hn : ∀ t, rank t ≤ n) :
  D.Bounded n
  := by
  have hclimb : ∀ m t, rank t ≤ m → climb D.target (m + 1) (some t) = none := by
    intro m
    induction m with
    | zero =>
      intro t ht
      cases hu : D.target t with
      | none => rw [climb, hu, climb_none]
      | some u => cases Nat.not_lt_of_le ht (Nat.zero_lt_of_lt (hrank t u hu))
    | succ m ih =>
      intro t ht
      rw [climb]
      cases hu : D.target t with
      | none => rw [climb_none]
      | some u => apply ih u (Nat.le_of_lt_succ ((hrank t u hu).trans_le ht))
  intro t
  apply hclimb n t (hn t)

variable [LinearOrder κ]

/-! ## Passing on a boost -/

/-- Pass a boost on along the donations, for at most the given number of members. -/
def propagate (p : κ) : ℕ → Option ι → Donations ι κ → Donations ι κ
  | 0, _, D => D
  | _ + 1, none, D => D
  | n + 1, some t, D =>
    if D.priority t ≤ p then D else propagate p n (D.target t) (D.setPriority t p)

/-- Passing on a boost changes no donation. -/
theorem propagate_target (p : κ) (n : ℕ) (x : Option ι) (D : Donations ι κ) :
  (propagate p n x D).target = D.target
  := by
  induction n generalizing x D with
  | zero => rfl
  | succ n ih =>
    obtain _ | t := x
    · rfl
    rw [propagate]
    split
    · rfl
    · rw [ih]
      rfl

/-- The donations are exact but for `c`, on which the demand `p` has come up. -/
structure Due (D : Donations ι κ) (c : ι) (p : κ) : Prop where
  others : ∀ t, t ≠ c → IsLeast (D.demands t) (D.priority t)
  demanded : p ∈ D.demands c
  least : ∀ x ∈ D.demands c, min p (D.priority c) ≤ x
  held : D.priority c ≤ p → D.priority c ∈ D.demands c

section Boost

variable {D : Donations ι κ} {c d h t : ι} {p : κ}

omit [DecidableEq ι] in
/-- A demand that is no stricter than the priority changes nothing. -/
theorem Due.exact_of_le (hD : D.Due c p) (hp : D.priority c ≤ p) :
  D.Exact
  := by
  intro t
  by_cases ht : t = c
  · subst ht
    use hD.held hp
    intro x hx
    have hle := hD.least x hx
    rw [min_eq_right hp] at hle
    apply hle
  · apply hD.others t ht

section

variable (hD : D.Due c p) (hp : p < D.priority c)
include hD hp

/-- A member that meets the demand has the priority it should have. -/
theorem Due.isLeast_setPriority (hself : D.target c ≠ some c) :
  IsLeast ((D.setPriority c p).demands c) ((D.setPriority c p).priority c)
  := by
  rw [demands_setPriority_of_ne hself, priority_setPriority_same]
  use hD.demanded
  intro x hx
  have hle := hD.least x hx
  rw [min_eq_left hp.le] at hle
  apply hle

/-- A member that meets the demand and donates to nobody ends the chain. -/
theorem Due.exact_of_last (hlast : D.target c = none) :
  (D.setPriority c p).Exact
  := by
  have hnone : ∀ t, D.target c ≠ some t := by
    intro t ht
    rw [hlast] at ht
    cases ht
  intro t
  by_cases ht : t = c
  · subst ht
    apply hD.isLeast_setPriority hp (hnone t)
  · rw [demands_setPriority_of_ne (hnone t), priority_setPriority_of_ne ht]
    apply hD.others t ht

/-- A member that meets the demand passes it on to the one it donates to. -/
theorem Due.next (hnext : D.target c = some h) (hself : D.target c ≠ some c) :
  (D.setPriority c p).Due h p
  := by
  have hne : h ≠ c := by
    rintro rfl
    apply hself hnext
  obtain ⟨hmem, hlow⟩ := hD.others h hne
  rw [demands_of_donor hnext] at hmem hlow
  constructor
  · intro t ht
    have htarget : D.target c ≠ some t := by
      rw [hnext]
      intro heq
      apply ht (Option.some.inj heq).symm
    by_cases htc : t = c
    · subst htc
      apply hD.isLeast_setPriority hp hself
    · rw [demands_setPriority_of_ne htarget, priority_setPriority_of_ne htc]
      apply hD.others t htc
  · rw [demands_setPriority_of_donor hnext]
    apply Set.mem_insert
  · intro x hx
    rw [demands_setPriority_of_donor hnext] at hx
    rw [priority_setPriority_of_ne hne]
    obtain rfl | hx := hx
    · apply min_le_left
    · apply (min_le_right _ _).trans (hlow (Set.mem_insert_of_mem _ hx))
  · rw [demands_setPriority_of_donor hnext, priority_setPriority_of_ne hne]
    intro hle
    obtain heq | hmem := hmem
    · rw [heq] at hle
      cases not_lt_of_ge hle hp
    · apply Set.mem_insert_of_mem _ hmem

end

/-- A boost passed on along a chain that ends in time makes the donations exact. -/
theorem Due.exact_propagate (n : ℕ) (hD : D.Due c p) (hchain : climb D.target n (some c) = none) :
  (propagate p n (some c) D).Exact
  := by
  induction n generalizing c D with
  | zero => cases hchain
  | succ n ih =>
    rw [propagate]
    by_cases hp : D.priority c ≤ p
    · rw [if_pos hp]
      apply hD.exact_of_le hp
    rw [if_neg hp]
    have hlt := lt_of_not_ge hp
    have hself : D.target c ≠ some c := target_ne_self hchain
    cases hnext : D.target c with
    | none =>
      have hlast := hD.exact_of_last hlt hnext
      cases n with
      | zero => apply hlast
      | succ n => apply hlast
    | some h =>
      apply ih (hD.next hlt hnext hself)
      rw [climb, hnext] at hchain
      apply hchain

/-! ## Making and withdrawing donations -/

omit [LinearOrder κ] in
/-- The demands on the others are not changed by a new donation. -/
theorem demands_donate_of_ne (hd : D.target d = none) (ht : t ≠ h) :
  (D.setTarget d (some h)).demands t = D.demands t
  := by
  rw [demands, donors_setTarget_other hd ht]
  rfl

omit [LinearOrder κ] in
/-- A new donation adds a demand. -/
theorem demands_donate (hd : D.target d = none) :
  (D.setTarget d (some h)).demands h = insert (D.priority d) (D.demands h)
  := by
  have hne : D.target d ≠ some h := by
    rw [hd]
    simp
  rw [demands, (donors_setTarget_same hne).1, demandsOf, Set.image_insert_eq, Set.insert_comm]
  rfl

/-- A donation that is no stricter than the priority of the holder changes no priority. -/
theorem Exact.donate_of_le (hD : D.Exact) (hd : D.target d = none) (hle : D.priority h ≤ D.priority d) :
  (D.setTarget d (some h)).Exact
  := by
  intro t
  by_cases ht : t = h
  · subst ht
    rw [demands_donate hd]
    use Set.mem_insert_of_mem _ (hD t).1
    rintro x (rfl | hx)
    · apply hle
    · apply (hD t).2 hx
  · rw [demands_donate_of_ne hd ht]
    apply hD t

/-- A stricter donation is a demand on the holder. -/
theorem Exact.due_of_lt (hD : D.Exact) (hd : D.target d = none) (hlt : D.priority d < D.priority h) :
  (D.setTarget d (some h)).Due h (D.priority d)
  := by
  constructor
  · intro t ht
    rw [demands_donate_of_ne hd ht]
    apply hD t
  · rw [demands_donate hd]
    apply Set.mem_insert
  · rw [demands_donate hd]
    rintro x (rfl | hx)
    · apply min_le_left
    · apply (min_le_right _ _).trans ((hD h).2 hx)
  · intro hle
    cases not_lt_of_ge hle hlt

/-- A donation may be withdrawn if it does not matter. -/
theorem Exact.withdraw_of_slack (hD : D.Exact) (hd : D.target d = some h) (hslack : D.Slack d h) :
  (D.setTarget d none).Exact
  := by
  intro t
  rw [demands, donors_setTarget_none]
  by_cases ht : t = h
  · subst ht
    apply hslack
  have hne : D.target d ≠ some t := by
    rw [hd]
    intro heq
    apply ht (Option.some.inj heq).symm
  rw [donors_diff_of_ne hne]
  apply hD t

/-- The priority of a member may be raised to a demand-free value if the one it donates to does not
need the difference. -/
theorem Exact.setPriority_of_slack (hother : ∀ t, t ≠ c → IsLeast (D.demands t) (D.priority t))
    (hown : IsLeast (D.demands c) p) (hself : D.target c ≠ some c)
    (hslack : ∀ g, D.target c = some g → D.Slack c g ∧ D.priority g ≤ p) :
  (D.setPriority c p).Exact
  := by
  intro t
  by_cases ht : t = c
  · subst ht
    rw [demands_setPriority_of_ne hself, priority_setPriority_same]
    apply hown
  rw [priority_setPriority_of_ne ht]
  by_cases hg : D.target c = some t
  · obtain ⟨⟨hmem, hlow⟩, hle⟩ := hslack t hg
    rw [demands_setPriority_of_donor hg]
    use Set.mem_insert_of_mem _ hmem
    rintro x (rfl | hx)
    · apply hle
    · apply hlow hx
  · rw [demands_setPriority_of_ne hg]
    apply hother t ht

/-- The only donation to a member may be withdrawn together with the boost if the one it donates to
does not need the boost. -/
theorem Exact.withdraw_sole (hD : D.Exact) (hsole : D.donors h = {d}) (hne : d ≠ h)
    (hself : D.target h ≠ some h) (hslack : ∀ g, D.target h = some g → D.Slack h g) :
  ((D.setTarget d none).setPriority h (D.base h)).Exact
  := by
  have hd : D.target d = some h := by
    have hmem : d ∈ D.donors h := by
      rw [hsole]
      apply Set.mem_singleton
    apply hmem
  have htarget : ∀ t, t ≠ h → D.target d ≠ some t := by
    intro t ht heq
    rw [hd] at heq
    apply ht (Option.some.inj heq).symm
  have hdemands : ∀ t, t ≠ h → (D.setTarget d none).demands t = D.demands t := by
    intro t ht
    rw [demands, donors_setTarget_none, donors_diff_of_ne (htarget t ht)]
    rfl
  have hkeep : (D.setTarget d none).target h = D.target h := update_of_ne hne.symm _ _
  apply Exact.setPriority_of_slack
  · intro t ht
    rw [hdemands t ht]
    apply hD t
  · rw [demands, donors_setTarget_none, hsole, Set.sdiff_self, demandsOf, Set.image_empty]
    rw [insert_empty_eq]
    apply isLeast_singleton
  · rw [hkeep]
    apply hself
  intro g hg
  rw [hkeep] at hg
  have hgh : g ≠ h := by
    rintro rfl
    apply hself hg
  constructor
  · have hs := hslack g hg
    rw [Slack, donors_setTarget_none, donors_diff_of_ne (htarget g hgh)]
    apply hs
  · have hmem : D.priority h ∈ D.demands g := by
      rw [demands_of_donor hg]
      apply Set.mem_insert
    have hle : D.priority h ≤ D.base h := (hD h).2 (Set.mem_insert _ _)
    apply ((hD g).2 hmem).trans hle

/-! ## Changing a base priority -/

/-- The base priority of a member may be changed if the effective one stays what it has to be. -/
theorem Exact.setBase (hD : D.Exact)
    (hleast : IsLeast (insert p (D.priority '' D.donors t)) (D.priority t)) :
  (D.setBase t p).Exact
  := by
  intro u
  by_cases hu : u = t
  · subst hu
    have heq : (D.setBase u p).demands u = insert p (D.priority '' D.donors u) := by
      change insert (update D.base u p u) _ = _
      rw [update_self]
      rfl
    rw [heq]
    apply hleast
  · have heq : (D.setBase t p).demands u = D.demands u := by
      change insert (update D.base t p u) _ = _
      rw [update_of_ne hu]
      rfl
    rw [heq]
    apply hD u

/-- Both priorities of a member may be set to a value that no donor is stricter than, if the one it
donates to does not need the difference. -/
theorem Exact.setBoth (hD : D.Exact) (hself : D.target t ≠ some t)
    (hdonors : ∀ d ∈ D.donors t, p ≤ D.priority d)
    (hslack : p = D.priority t ∨ ∀ g, D.target t = some g → D.Slack t g ∧ D.priority g ≤ p) :
  ((D.setBase t p).setPriority t p).Exact
  := by
  have hown : IsLeast ((D.setBase t p).demands t) p := by
    constructor
    · left
      apply (update_self t p D.base).symm
    · rintro x (rfl | ⟨d, hd, rfl⟩)
      · apply (update_self t p D.base).ge
      · apply hdonors d hd
  obtain heq | hslack := hslack
  · have hsame : (D.setBase t p).setPriority t p = D.setBase t p := by
      rw [setPriority, heq]
      congr 1
      apply update_eq_self
    rw [hsame]
    apply hD.setBase
    rw [← heq]
    constructor
    · apply Set.mem_insert
    · rintro x (rfl | ⟨d, hd, rfl⟩)
      · apply le_refl
      · apply hdonors d hd
  · have hdemands : ∀ u S, u ≠ t → (D.setBase t p).demandsOf u S = D.demandsOf u S := by
      intro u S hu
      change insert (update D.base t p u) _ = _
      rw [update_of_ne hu]
      rfl
    apply Exact.setPriority_of_slack
    · intro u hu
      rw [demands, hdemands u _ hu]
      apply hD u
    · apply hown
    · apply hself
    intro g hg
    have hgt : g ≠ t := by
      rintro rfl
      apply hself hg
    obtain ⟨hs, hle⟩ := hslack g hg
    constructor
    · rw [Slack, hdemands g _ hgt]
      apply hs
    · apply hle

end Boost

end Donations
