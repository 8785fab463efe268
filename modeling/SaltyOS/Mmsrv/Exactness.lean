import SaltyOS.Mmsrv.Splitting

/-!
# Splitting is exact

`remove_client_range` and `mprotect_client_range` count the fragments they will make, make room for them,
and then run over the regions.  A turn of the loop puts the pieces of a region in its place, or stops when
an offset does not fit.  With the room that was counted no turn moves the array.

When an offset does not fit, `mprotect_client_range` has rewritten the region already and answers that
memory is out, and `remove_client_range` leaves a region that overlaps its own suffix.
-/

namespace SaltyOS.Mmsrv

open List

/-! ## Room in the array -/

/-- The array of a client is as large as the client says. -/
structure Client.Sound (c : Client) : Prop where
  room : c.regions.length ≤ c.cap
  bound : c.cap < 2 ^ 64

/-- Pieces take the place of a region: the first is written there, the others at the end. -/
def Client.place (c : Client) (i : ℕ) : List MmRegion → Client
  | [] => c
  | p :: ps => { c with regions := c.regions.set i p ++ ps }

section Room

variable {alloc : ℕ → Bool} {c : Client}

theorem checkedAdd_eq {a b : ℕ} (h : a + b < 2 ^ 64) :
  checkedAdd a b = some (a + b)
  := if_pos h

theorem doubled_spec {required : ℕ} :
  ∀ {fuel cap n : ℕ}, Client.doubled required fuel cap = some n → required ≤ n
  | 0, cap, n, h => by
    unfold Client.doubled at h
    split_ifs at h with hlt
    rw [← Option.some.inj h]
    exact Nat.le_of_not_lt hlt
  | fuel + 1, cap, n, h => by
    unfold Client.doubled at h
    split_ifs at h with hlt hbound
    · exact doubled_spec h
    · rw [← Option.some.inj h]
      exact Nat.le_of_not_lt hlt

/-- After a reservation there is room. -/
theorem clientReserveRegions_spec {additional : ℕ} {c' : Client} (hc : c.Sound)
    (h : c.clientReserveRegions alloc additional = some c') :
  c'.regions = c.regions ∧ c.regions.length + additional ≤ c'.cap ∧ c'.cap < 2 ^ 64
  := by
  unfold Client.clientReserveRegions checkedAdd at h
  generalize (if c.cap = 0 then 8 else c.cap) = first at h
  split at h
  · nomatch h
  next required hsum =>
  split_ifs at hsum with hbound
  cases hsum
  split_ifs at h with hle
  · cases h
    exact ⟨rfl, hle, hc.bound⟩
  cases hdoubled : Client.doubled (c.regions.length + additional) 64 first with
  | none =>
    rw [hdoubled] at h
    nomatch h
  | some n =>
    rw [hdoubled] at h
    dsimp only at h
    split_ifs at h with halloc
    cases h
    use rfl, doubled_spec hdoubled
    have hsize := halloc.1
    unfold regionSize at hsize
    dsimp only
    omega

theorem clientReserveRegions_zero (hc : c.Sound) :
  c.clientReserveRegions alloc 0 = some c
  := by
  unfold Client.clientReserveRegions
  rw [checkedAdd_eq (hc.room.trans_lt hc.bound)]
  exact if_pos hc.room

/-- With room, a region is added in the same array. -/
theorem clientAddRegion_eq (hroom : c.regions.length < c.cap) (hcap : c.cap < 2 ^ 64) :
  c.clientAddRegion alloc = some { c with regions := c.regions ++ [.zeroed] }
  := by
  unfold Client.clientAddRegion Client.clientReserveRegions
  rw [checkedAdd_eq (by omega)]
  dsimp only
  rw [if_pos (by omega)]
  rfl

end Room

/-! ## Writing fragments -/

instance (r : MmRegion) (b : ℕ) : Decidable (r.Fits b) :=
  inferInstanceAs (Decidable (_ ∧ _))

/-- Add fragments one after another. -/
def addFragments (alloc : ℕ → Bool) (r : MmRegion) : List Fragment → Client → StepResult
  | [], c => (c, none)
  | f :: fs, c =>
    (addFragment alloc c r f.base f.length f.prot).andThen (addFragments alloc r fs)

section Writing

variable {alloc : ℕ → Bool} {c : Client} {r : MmRegion} {i : ℕ}

theorem initRegionFragment_eq (b l p : ℕ) :
  initRegionFragment r b l p (b - r.base) = if r.Fits b then some (r.piece b l p) else none
  := by
  unfold initRegionFragment checkedMoOffsetAdd checkedAdd
  by_cases hmo : r.moOffset + (b - r.base) / 4096 < 2 ^ 32
  · by_cases hfile : r.backingFileOffset + (b - r.base) < 2 ^ 64
    · have hfits : r.Fits b := ⟨hmo, hfile⟩
      rw [if_pos hmo, if_pos hfile, if_pos hfits]
      rfl
    · have hfits : ¬ r.Fits b := fun h => hfile h.2
      rw [if_pos hmo, if_neg hfile, if_neg hfits]
  · have hfits : ¬ r.Fits b := fun h => hmo h.1
    rw [if_neg hmo, if_neg hfits]

theorem addFragment_eq (hroom : c.regions.length < c.cap) (hcap : c.cap < 2 ^ 64) (b l p : ℕ) :
  addFragment alloc c r b l p =
    if r.Fits b then ({ c with regions := c.regions ++ [r.piece b l p] }, none)
    else ({ c with regions := c.regions ++ [.zeroed] }, some .outOfMemory)
  := by
  unfold addFragment
  rw [clientAddRegion_eq hroom hcap]
  dsimp only
  rw [if_neg (not_not.mpr rfl), initRegionFragment_eq]
  split_ifs with hfits
  · unfold Client.setRegion
    dsimp only
    rw [set_append_right _ _ le_rfl, Nat.sub_self]
    rfl
  · rfl

theorem MmRegion.Good.fits_base (hr : r.Good) :
  r.Fits r.base
  := by
  unfold MmRegion.Fits
  rw [Nat.sub_self]
  exact ⟨hr.moOffset, hr.file⟩

theorem piece_base (hactive : r.active = true) (l p : ℕ) :
  r.piece r.base l p = { r with length := l, prot := p }
  := by
  unfold MmRegion.piece
  rw [Nat.sub_self, ← hactive]
  rfl

theorem rewriteFragment_eq (hr : r.Good) (l p : ℕ) :
  rewriteFragment c i r r.base l p = (c.setRegion i (r.piece r.base l p), none)
  := by
  have h := initRegionFragment_eq (r := r) r.base l p
  rw [Nat.sub_self, if_pos hr.fits_base] at h
  unfold rewriteFragment
  rw [h]

/-- The fragments are added up to the first one whose offsets do not fit. -/
theorem addFragments_spec :
  ∀ (fs : List Fragment) (c : Client), c.cap < 2 ^ 64 → c.regions.length + fs.length ≤ c.cap →
    ((∀ f ∈ fs, r.Fits f.base) ∧
      addFragments alloc r fs c = ({ c with regions := c.regions ++ fs.map r.fragment }, none)) ∨
    ∃ done f rest, fs = done ++ f :: rest ∧ (∀ g ∈ done, r.Fits g.base) ∧ ¬ r.Fits f.base ∧
      addFragments alloc r fs c =
        ({ c with regions := c.regions ++ (done.map r.fragment ++ [.zeroed]) }, some .outOfMemory)
  | [], c, hcap, hroom => .inl ⟨nofun, by simp [addFragments]⟩
  | f :: fs, c, hcap, hroom => by
    rw [length_cons] at hroom
    unfold addFragments
    rw [addFragment_eq (by omega) hcap]
    by_cases hfits : r.Fits f.base
    · rw [if_pos hfits]
      have ih := addFragments_spec fs { c with regions := c.regions ++ [r.fragment f] } hcap (by
        simp only [length_append, length_singleton]
        omega)
      obtain ⟨hall, hrun⟩ | ⟨done, g, rest, rfl, hdone, hg, hrun⟩ := ih
      · refine .inl ⟨forall_mem_cons.mpr ⟨hfits, hall⟩, hrun.trans ?_⟩
        simp
      · refine .inr ⟨f :: done, g, rest, rfl, forall_mem_cons.mpr ⟨hfits, hdone⟩, hg, hrun.trans ?_⟩
        simp
    · rw [if_neg hfits]
      exact .inr ⟨[], f, fs, rfl, nofun, hfits, rfl⟩

end Writing

/-! ## A turn of the loop -/

/-- The offsets fit at the boundaries of the range that lie inside a region. -/
def SplitFits (start stop : ℕ) (r : MmRegion) : Prop :=
  (r.base < start → r.Fits start) ∧ (stop < r.stop → r.Fits stop)

/-- A turn of the loop at a region: the pieces take its place, or the function stops with other pieces
there. -/
def Turn (body : Client → ℕ → MmRegion → ℕ → ℕ → ℕ → StepResult) (start stop : ℕ)
    (P : MmRegion → List MmRegion) (Goes : MmRegion → Prop)
    (Stops : MmRegion → Status → List MmRegion → Prop) (r : MmRegion) : Prop :=
  ∀ (c : Client) (i : ℕ), c.cap < 2 ^ 64 → c.regions[i]? = some r →
    c.regions.length + ((P r).length - 1) ≤ c.cap →
    (Goes r ∧ loopStep body start stop c i = (c.place i (P r), none)) ∨
    ∃ p ps status, (p :: ps).length ≤ (P r).length ∧ Stops r status (p :: ps) ∧
      loopStep body start stop c i = (c.place i (p :: ps), some status)

/-- `mprotect_client_range` stops: a part of the region is lost. -/
structure ProtectionStops (start stop : ℕ) (r : MmRegion) (status : Status) (ps : List MmRegion) :
    Prop where
  status : status = .outOfMemory
  inside : Inside r ps
  lost : ∃ a, r.Covers a ∧ ∀ p ∈ ps, ¬ p.Covers a
  overlaps : Overlaps start stop r
  unfit : ¬ SplitFits start stop r

/-- `remove_client_range` stops: the front is cut off, or the whole region stays beside its suffix. -/
structure RemovalStops (start stop : ℕ) (r : MmRegion) (status : Status) (ps : List MmRegion) :
    Prop where
  status : status = .invalidArgument
  overlaps : Overlaps start stop r
  pieces : (¬ r.base < start ∧ Inside r ps) ∨
    ((r.base < start ∧ stop < r.stop ∧ ¬ r.Fits stop) ∧ ∃ q, ps = [r, q] ∧ q.Covers stop)

section Turns

variable {alloc : ℕ → Bool} {c : Client} {r : MmRegion} {i start stop prot : ℕ}
variable {fragments : MmRegion → List Fragment}

theorem place_singleton (p : MmRegion) :
  c.place i [p] = c.setRegion i p
  := congrArg (fun rs => ({ c with regions := rs } : Client)) (append_nil _)

theorem place_self (hi : c.regions[i]? = some r) :
  c.place i [r] = c
  := by
  obtain ⟨hlt, rfl⟩ := List.getElem?_eq_some_iff.mp hi
  have hset : c.regions.set i c.regions[i] ++ [] = c.regions := by
    rw [set_getElem_self, append_nil]
  exact congrArg (fun rs => ({ c with regions := rs } : Client)) hset

/-- The loops look at the regions that are active and not empty. -/
theorem liveEnd?_cases (hgood : r.active = true → r.Good) (start stop : ℕ) :
  (liveEnd? r = none ∧ ¬ Overlaps start stop r) ∨
    liveEnd? r = some (some r.stop) ∧ (Overlaps start stop r ↔ r.base < stop ∧ start < r.stop)
  := by
  unfold liveEnd?
  by_cases hlive : r.active = true ∧ r.length ≠ 0
  · have hend : checkedAdd r.base r.length = some r.stop := checkedAdd_eq (hgood hlive.1).stop
    rw [if_neg (by simp [hlive]), hend]
    exact .inr ⟨rfl, and_iff_right hlive⟩
  have hdead : (!r.active || r.length == 0) = true := by
    rw [Bool.or_eq_true, Bool.not_eq_true', beq_iff_eq]
    by_contra hnot
    rw [not_or, Bool.not_eq_false] at hnot
    exact hlive hnot
  rw [if_pos hdead]
  exact .inl ⟨rfl, fun h => hlive h.1⟩

/-- A turn looks at the regions that overlap the range. -/
theorem loopStep_eq {body : Client → ℕ → MmRegion → ℕ → ℕ → ℕ → StepResult}
    (hi : c.regions[i]? = some r) (hgood : r.active = true → r.Good) :
  loopStep body start stop c i =
    if Overlaps start stop r then body c i r (max r.base start) (min r.stop stop) r.stop
    else (c, none)
  := by
  have hget : c.regions.getD i .zeroed = r := by
    rw [getD_eq_getElem?_getD, hi]
    rfl
  unfold loopStep
  rw [hget]
  dsimp only
  obtain ⟨hend, hover⟩ | ⟨hend, hover⟩ := liveEnd?_cases hgood start stop
  · rw [hend, if_neg hover]
  rw [hend, if_congr hover rfl rfl]
  dsimp only
  by_cases hin : r.base < stop ∧ start < r.stop
  · rw [if_neg (by omega), if_pos hin]
  · rw [if_pos (by omega), if_neg hin]

theorem pieces_of_overlaps {f : Fragment} {fs : List Fragment} (hover : Overlaps start stop r)
    (hfs : fragments r = f :: fs) :
  pieces fragments start stop r = r.fragment f :: fs.map r.fragment
  := by
  unfold pieces
  rw [if_pos hover, hfs]

theorem pieces_of_not_overlaps (hover : ¬ Overlaps start stop r) :
  pieces fragments start stop r = [r]
  := if_neg hover

theorem addFragments_singleton (f : Fragment) :
  addFragments alloc r [f] c = addFragment alloc c r f.base f.length f.prot
  := by
  unfold addFragments StepResult.andThen
  split
  · next h => exact Prod.ext rfl h.symm
  · rfl

theorem protectionFragments_fits (hr : r.Good) :
  (∀ f ∈ protectionFragments start stop prot r, r.Fits f.base) ↔ SplitFits start stop r
  := by
  have hbase := hr.fits_base
  unfold protectionFragments SplitFits
  simp only [mem_append, mem_cons, mem_before, mem_after]
  constructor
  · intro h
    constructor
    · intro hlt
      have hfits := h _ (.inr (.inl rfl))
      rw [max_eq_right hlt.le] at hfits
      exact hfits
    · intro hlt
      exact h _ (.inr (.inr ⟨hlt, rfl⟩))
  · rintro ⟨hstart, hstop⟩ f (⟨-, rfl⟩ | rfl | ⟨hlt, rfl⟩)
    · exact hbase
    · obtain hlt | hge := Nat.lt_or_ge r.base start
      · rw [max_eq_right hlt.le]
        exact hstart hlt
      · rw [max_eq_left hge]
        exact hbase
    · exact hstop hlt

variable (alloc c i prot) in
/-- The four cases of `mprotect_client_range`: the first fragment is written over the region, the others
are added. -/
theorem protectOverlap_eq (hr : r.Good) (hover : Overlaps start stop r) :
  ∃ f fs, protectionFragments start stop prot r = f :: fs ∧ f.base = r.base ∧
    protectOverlap alloc prot c i r (max r.base start) (min r.stop stop) r.stop =
      addFragments alloc r fs (c.setRegion i (r.fragment f))
  := by
  unfold protectOverlap protectionFragments before after
  obtain hb | hb := Nat.lt_or_ge r.base start
  · have hwhole : ¬ (start = r.base ∧ min r.stop stop = r.stop) := fun h => hb.ne' h.1
    rw [max_eq_right hb.le, if_neg hwhole, if_neg hb.ne', rewriteFragment_eq hr]
    obtain hs | hs := Nat.lt_or_ge stop r.stop
    · rw [min_eq_right hs.le, if_neg hs.ne, if_pos hb, if_pos hs, singleton_append]
      refine ⟨_, _, rfl, rfl, ?_⟩
      congr 1
      funext c'
      rw [addFragments_singleton]
    · rw [min_eq_left hs, if_pos rfl, if_pos hb, if_neg (Nat.not_lt.mpr hs), singleton_append]
      refine ⟨_, _, rfl, rfl, ?_⟩
      rw [addFragments_singleton]
      rfl
  · rw [max_eq_left hb, if_neg (Nat.not_lt.mpr hb), rewriteFragment_eq hr]
    obtain hs | hs := Nat.lt_or_ge stop r.stop
    · have hwhole : ¬ (r.base = r.base ∧ stop = r.stop) := fun h => hs.ne h.2
      rw [min_eq_right hs.le, if_neg hwhole, if_pos rfl, if_pos hs]
      refine ⟨_, _, rfl, rfl, ?_⟩
      rw [addFragments_singleton]
      rfl
    · have hlength : r.stop - r.base = r.length := Nat.add_sub_cancel_left ..
      rw [min_eq_left hs, if_neg (Nat.not_lt.mpr hs), if_pos ⟨rfl, rfl⟩]
      refine ⟨_, _, rfl, rfl, ?_⟩
      unfold addFragments MmRegion.fragment
      rw [piece_base hover.1.1, hlength]

variable (hstart : start % 4096 = 0) (hstop : stop % 4096 = 0) (hrange : start ≤ stop)

include hstart hstop hrange

/-- A turn of `mprotect_client_range`. -/
theorem protect_turn (hgood : r.active = true → r.Good) :
  Turn (protectOverlap alloc prot) start stop (protectionPieces start stop prot)
    (fun r => Overlaps start stop r → SplitFits start stop r) (ProtectionStops start stop) r
  := by
  unfold protectionPieces
  intro c i hcap hi hroom
  rw [loopStep_eq hi hgood]
  by_cases hover : Overlaps start stop r
  · have hr := hgood hover.1.1
    obtain ⟨f, fs, hfs, hf, hrun⟩ := protectOverlap_eq alloc c i prot hr hover
    have hfragments := protection_fragments hr hover hstart hstop hrange prot
    have hfits : (∀ f ∈ protectionFragments start stop prot r, r.Fits f.base) ↔ _ :=
      protectionFragments_fits hr
    have hfirst : r.Fits f.base := by
      rw [hf]
      exact hr.fits_base
    rw [hfs] at hfragments hfits
    rw [pieces_of_overlaps hover hfs] at hroom ⊢
    rw [if_pos hover, hrun]
    have hadded : (c.setRegion i (r.fragment f)).regions.length + fs.length ≤ c.cap := by
      have hset : (c.setRegion i (r.fragment f)).regions.length = c.regions.length := length_set
      rw [hset]
      simpa using hroom
    rcases addFragments_spec fs (c.setRegion i (r.fragment f)) hcap hadded with
      ⟨hall, hrun⟩ | ⟨done, g, rest, rfl, hdone, hg, hrun⟩
    · exact .inl ⟨fun _ => hfits.mp (forall_mem_cons.mpr ⟨hfirst, hall⟩), hrun⟩
    · have hinside := hfragments.insideOf hr hover.1.1 (forall_mem_cons.mpr ⟨hfirst, hdone⟩)
      have hgmem : g ∈ (f :: done) ++ g :: rest := mem_append_right _ mem_cons_self
      refine .inr ⟨_, _, _, ?_, ⟨rfl, hinside.zeroed, ⟨g.base, ?_, ?_⟩, hover, ?_⟩, hrun⟩
      · simp
      · exact ⟨hover.1.1, (hfragments.inside g hgmem).1⟩
      · -- the fragments that were written end before the one that does not fit
        intro p hmem hcovers
        have hp : p ∈ (f :: done).map r.fragment ++ [.zeroed] := hmem
        obtain hp | hp := mem_append.mp hp
        · obtain ⟨f', hf', rfl⟩ := mem_map.mp hp
          have hle := (pairwise_append.mp hfragments.ordered).2.2 f' hf' g mem_cons_self
          exact absurd (piece_covers.mp hcovers).2 (Nat.not_lt.mpr hle)
        · rw [mem_singleton.mp hp] at hcovers
          exact not_covers_zeroed _ hcovers
      · intro hsplit
        exact hg (hfits.mpr hsplit g hgmem)
  · left
    rw [if_neg hover, pieces_of_not_overlaps hover, place_self hi]
    exact ⟨fun h => (hover h).elim, rfl⟩

omit hstart hstop hrange in
theorem removalFragments_fits (hr : r.Good) :
  (∀ f ∈ removalFragments start stop r, r.Fits f.base) ↔ (stop < r.stop → r.Fits stop)
  := by
  unfold removalFragments
  simp only [mem_append, mem_before, mem_after]
  constructor
  · intro h hlt
    exact h _ (.inr ⟨hlt, rfl⟩)
  · rintro h f (⟨-, rfl⟩ | ⟨hlt, rfl⟩)
    · exact hr.fits_base
    · exact h hlt

omit hstart hrange in
/-- The front of a region is cut off, with the old offsets if the new ones do not fit. -/
theorem trimFront_spec (hr : r.Good) (hover : Overlaps start stop r) (hlt : stop < r.stop) :
  (r.Fits stop ∧
    trimFront c i r stop r.stop = (c.setRegion i (r.piece stop (r.stop - stop) r.prot), none)) ∨
  ∃ q, Inside r [q] ∧ trimFront c i r stop r.stop = (c.setRegion i q, some .invalidArgument)
  := by
  have hinside : ∀ q : MmRegion, q.base = stop → q.length = r.stop - stop →
      q.moOffset < 2 ^ 32 → q.backingFileOffset < 2 ^ 64 → Inside r [q] := by
    intro q hbase hlength hmo hfile
    have hend := hr.end_aligned
    have hq : q.Good := by
      have hbound : r.stop < 2 ^ 64 := hr.stop
      exact ⟨by omega, by omega, by omega, hmo, hfile⟩
    refine ⟨⟨?_, pairwise_singleton ..⟩, ?_⟩
    · intro p hp _
      rw [mem_singleton.mp hp]
      exact hq
    intro p hp a ha
    rw [mem_singleton.mp hp] at ha
    obtain ⟨-, hlo, hhi⟩ := ha
    have hover := hover.2.1
    have ha : r.base ≤ a ∧ a < r.stop := by omega
    exact ⟨‹Overlaps start stop r›.1.1, ha⟩
  unfold trimFront checkedMoOffsetAdd checkedAdd
  by_cases hmo : r.moOffset + (stop - r.base) / 4096 < 2 ^ 32
  · by_cases hfile : r.backingFileOffset + (stop - r.base) < 2 ^ 64
    · left
      rw [if_pos hmo, if_pos hfile]
      use ⟨hmo, hfile⟩
      unfold MmRegion.piece
      rw [← hover.1.1]
    · right
      rw [if_pos hmo, if_neg hfile]
      refine ⟨_, ?_, rfl⟩
      exact hinside _ rfl rfl hmo hr.file
  · right
    rw [if_neg hmo]
    refine ⟨_, ?_, rfl⟩
    exact hinside _ rfl rfl hr.moOffset hr.file

omit hstart hstop hrange in
/-- The middle of a region is removed; if the offsets of the suffix do not fit, the region stays whole
beside the suffix. -/
theorem removeMiddle_spec (hover : Overlaps start stop r) (hlt : stop < r.stop)
    (hroom : c.regions.length < c.cap) (hcap : c.cap < 2 ^ 64) (hi : c.regions[i]? = some r) :
  (r.Fits stop ∧ removeMiddle alloc c i r start stop r.stop =
    (c.place i [r.piece r.base (start - r.base) r.prot, r.piece stop (r.stop - stop) r.prot], none)) ∨
  ¬ r.Fits stop ∧ ∃ q, q.Covers stop ∧
    removeMiddle alloc c i r start stop r.stop = (c.place i [r, q], some .invalidArgument)
  := by
  obtain ⟨hlti, hget⟩ := List.getElem?_eq_some_iff.mp hi
  have hadd : ∀ q, (c.regions ++ [MmRegion.zeroed]).set c.regions.length q = c.regions ++ [q] := by
    intro q
    rw [set_append_right _ _ le_rfl, Nat.sub_self]
    rfl
  have hself : c.regions.set i r = c.regions := by
    rw [← hget]
    exact set_getElem_self hlti
  unfold removeMiddle checkedMoOffsetAdd checkedAdd
  rw [clientAddRegion_eq hroom hcap]
  dsimp only
  rw [if_neg (not_not.mpr rfl)]
  unfold Client.setRegion Client.place
  simp only [hadd, hself]
  by_cases hmo : r.moOffset + (stop - r.base) / 4096 < 2 ^ 32
  · by_cases hfile : r.backingFileOffset + (stop - r.base) < 2 ^ 64
    · left
      rw [if_pos hmo, if_pos hfile, piece_base hover.1.1]
      use ⟨hmo, hfile⟩
      dsimp only
      rw [set_append_left _ _ hlti]
      unfold MmRegion.piece
      rw [← hover.1.1]
    · right
      rw [if_pos hmo, if_neg hfile]
      refine ⟨fun h => hfile h.2, _, ?_, rfl⟩
      exact ⟨hover.1.1, le_rfl, by dsimp only; omega⟩
  · right
    rw [if_neg hmo]
    refine ⟨fun h => hmo h.1, _, ?_, rfl⟩
    exact ⟨hover.1.1, le_rfl, by dsimp only; omega⟩

omit hstart hrange in
/-- A turn of `remove_client_range`. -/
theorem remove_turn (hgood : r.active = true → r.Good) :
  Turn (removeOverlap alloc) start stop (removalPieces start stop)
    (fun r => Overlaps start stop r → stop < r.stop → r.Fits stop) (RemovalStops start stop) r
  := by
  unfold removalPieces
  intro c i hcap hi hroom
  rw [loopStep_eq hi hgood]
  by_cases hover : Overlaps start stop r
  · have hr := hgood hover.1.1
    rw [if_pos hover]
    unfold removeOverlap
    obtain hb | hb := Nat.lt_or_ge r.base start
    · have hwhole : ¬ (start = r.base ∧ min r.stop stop = r.stop) := fun h => hb.ne' h.1
      rw [max_eq_right hb.le, if_neg hwhole, if_neg hb.ne']
      obtain hs | hs := Nat.lt_or_ge stop r.stop
      · have hfs : removalFragments start stop r =
            [⟨r.base, start - r.base, r.prot⟩, ⟨stop, r.stop - stop, r.prot⟩] := by
          unfold removalFragments before after
          rw [if_pos hb, if_pos hs]
          rfl
        rw [pieces_of_overlaps hover hfs] at hroom ⊢
        rw [min_eq_right hs.le, if_neg hs.ne]
        rcases removeMiddle_spec hover hs (by simpa using hroom) hcap hi with
          ⟨hfits, hrun⟩ | ⟨hfits, q, hq, hrun⟩
        · exact .inl ⟨fun _ _ => hfits, hrun⟩
        · refine .inr ⟨r, [q], _, ?_, ?_, hrun⟩
          · exact Nat.le_refl 2
          · exact ⟨rfl, hover, .inr ⟨⟨hb, hs, hfits⟩, q, rfl, hq⟩⟩
      · have hfs : removalFragments start stop r = [⟨r.base, start - r.base, r.prot⟩] := by
          unfold removalFragments before after
          rw [if_pos hb, if_neg (Nat.not_lt.mpr hs)]
          rfl
        rw [pieces_of_overlaps hover hfs, min_eq_left hs, if_pos rfl]
        refine .inl ⟨fun _ hlt => absurd hlt (Nat.not_lt.mpr hs), ?_⟩
        rw [map_nil, place_singleton, MmRegion.fragment, piece_base hover.1.1]
    · rw [max_eq_left hb]
      obtain hs | hs := Nat.lt_or_ge stop r.stop
      · have hwhole : ¬ (r.base = r.base ∧ stop = r.stop) := fun h => hs.ne h.2
        have hfs : removalFragments start stop r = [⟨stop, r.stop - stop, r.prot⟩] := by
          unfold removalFragments before after
          rw [if_neg (Nat.not_lt.mpr hb), if_pos hs]
          rfl
        rw [pieces_of_overlaps hover hfs, min_eq_right hs.le, if_neg hwhole, if_pos rfl,
          map_nil, place_singleton]
        obtain ⟨hfits, hrun⟩ | ⟨q, hq, hrun⟩ := trimFront_spec hstop hr hover hs
        · exact .inl ⟨fun _ _ => hfits, hrun⟩
        refine .inr ⟨q, [], _, Nat.le_refl 1, ⟨rfl, hover, .inl ⟨Nat.not_lt.mpr hb, hq⟩⟩, ?_⟩
        rw [place_singleton]
        exact hrun
      · have hfs : removalFragments start stop r = [] := by
          unfold removalFragments before after
          rw [if_neg (Nat.not_lt.mpr hb), if_neg (Nat.not_lt.mpr hs)]
          rfl
        rw [min_eq_left hs, if_pos ⟨rfl, rfl⟩]
        refine .inl ⟨fun _ hlt => absurd hlt (Nat.not_lt.mpr hs), ?_⟩
        unfold pieces
        rw [if_pos hover, hfs, place_singleton]
  · left
    rw [if_neg hover, pieces_of_not_overlaps hover, place_self hi]
    exact ⟨fun h => (hover h).elim, rfl⟩

end Turns

/-! ## The loop -/

/-- The regions that the pieces need beside those they replace. -/
def extraOf (P : MmRegion → List MmRegion) (rs : List MmRegion) : ℕ :=
  (rs.map fun r => (P r).length - 1).sum

section Loop

variable {body : Client → ℕ → MmRegion → ℕ → ℕ → ℕ → StepResult} {start stop : ℕ}
  {P : MmRegion → List MmRegion} {Goes : MmRegion → Prop}
  {Stops : MmRegion → Status → List MmRegion → Prop}

theorem place_regions {c : Client} {done todo added ps : List MmRegion} {r p : MmRegion}
    (hc : c.regions = done ++ (r :: todo ++ added)) :
  c.place done.length (p :: ps) =
    { c with regions := (done ++ [p]) ++ (todo ++ (added ++ ps)) }
  := by
  have hset : c.regions.set done.length p ++ ps = (done ++ [p]) ++ (todo ++ (added ++ ps)) := by
    rw [hc, set_append_right _ _ le_rfl, Nat.sub_self]
    simp
  exact congrArg (fun rs => ({ c with regions := rs } : Client)) hset

theorem extraOf_cons (r : MmRegion) (rs : List MmRegion) :
  extraOf P (r :: rs) = (P r).length - 1 + extraOf P rs
  := sum_cons

/-- The loop runs to the end, or stops at a region; the regions after it are as they were. -/
theorem loopFrom_spec (hP : ∀ r, P r ≠ []) (todo : List MmRegion) :
  ∀ (done added : List MmRegion) (c : Client), c.cap < 2 ^ 64 →
    c.regions = done ++ (todo ++ added) → (∀ r ∈ todo, Turn body start stop P Goes Stops r) →
    c.regions.length + extraOf P todo ≤ c.cap →
    ∃ rs status, loopFrom body start stop todo.length done.length c = ({ c with regions := rs }, status) ∧
      rs.length ≤ c.cap ∧
      ((status = .ok ∧ (∀ r ∈ todo, Goes r) ∧ rs.Perm (done ++ added ++ todo.flatMap P)) ∨
        ∃ before r after ps, todo = before ++ r :: after ∧ (∀ r ∈ before, Goes r) ∧
          Stops r status ps ∧ rs.Perm (done ++ added ++ (before.flatMap P ++ (ps ++ after))))
  := by
  induction todo with
  | nil =>
    intro done added c hcap hc hturn hroom
    refine ⟨c.regions, .ok, rfl, (Nat.le_add_right ..).trans hroom, .inl ⟨rfl, nofun, ?_⟩⟩
    rw [hc]
    simp
  | cons r todo ih =>
    intro done added c hcap hc hturn hroom
    have hi : c.regions[done.length]? = some r := by
      rw [hc, List.getElem?_append_right (Nat.le_refl _), Nat.sub_self]
      rfl
    rw [extraOf_cons] at hroom
    have hlength : c.regions.length = done.length + (todo.length + added.length + 1) := by
      rw [hc]
      simp
    rw [length_cons, loopFrom]
    rcases hturn r mem_cons_self c done.length hcap hi (by omega) with
      ⟨hgoes, hrun⟩ | ⟨p, ps, status, hle, hstops, hrun⟩
    · obtain ⟨p, ps, hps⟩ := exists_cons_of_ne_nil (hP r)
      rw [hrun, hps, place_regions hc]
      have hnext : (done ++ [p] ++ (todo ++ (added ++ ps))).length + extraOf P todo ≤ c.cap := by
        rw [hps] at hroom
        simp only [length_append, length_cons, length_nil] at hroom ⊢
        omega
      obtain ⟨rs, status, hloop, hbound, hresult⟩ := ih (done ++ [p]) (added ++ ps)
        { c with regions := done ++ [p] ++ (todo ++ (added ++ ps)) } hcap rfl
        (fun r hr => hturn r (mem_cons_of_mem _ hr)) hnext
      rw [length_append, length_singleton] at hloop
      use rs, status, hloop, hbound
      have hplaced : ∀ l, (done ++ [p] ++ (added ++ ps) ++ l).Perm (done ++ added ++ (p :: ps ++ l)) := by
        intro l
        rw [perm_iff_count]
        intro a
        simp only [count_append, count_cons, count_nil]
        omega
      rcases hresult with ⟨hok, hall, hperm⟩ | ⟨before, r', after, ps', rfl, hbefore, hstops, hperm⟩
      · refine .inl ⟨hok, forall_mem_cons.mpr ⟨hgoes, hall⟩, hperm.trans ?_⟩
        rw [flatMap_cons, hps]
        apply hplaced
      · refine .inr ⟨r :: before, r', after, ps', rfl, forall_mem_cons.mpr ⟨hgoes, hbefore⟩, hstops,
          hperm.trans ?_⟩
        rw [flatMap_cons, hps, append_assoc (p :: ps)]
        apply hplaced
    · rw [hrun, place_regions hc]
      refine ⟨_, status, rfl, ?_, .inr ⟨[], r, todo, p :: ps, rfl, nofun, hstops, ?_⟩⟩
      · simp only [length_append, length_cons, length_nil] at hle ⊢
        omega
      rw [perm_iff_count]
      intro a
      simp only [flatMap_nil, count_append, count_cons, count_nil]
      omega

end Loop

/-! ## Counting -/

section Counting

variable {start stop prot : ℕ} {r : MmRegion} {rs : List MmRegion}

theorem pieces_ne_nil (fragments : MmRegion → List Fragment) (r : MmRegion) :
  pieces fragments start stop r ≠ []
  := by
  unfold pieces
  split_ifs
  · split <;> exact cons_ne_nil _ _
  · exact cons_ne_nil _ _

theorem removal_pieces_length :
  (removalPieces start stop r).length - 1 =
    if Overlaps start stop r ∧ r.base < start ∧ stop < r.stop then 1 else 0
  := by
  unfold removalPieces pieces removalFragments before after
  by_cases hover : Overlaps start stop r
  · split_ifs <;> simp_all
  · rw [if_neg hover, if_neg fun h => hover h.1]
    rfl

theorem protection_pieces_length :
  (protectionPieces start stop prot r).length - 1 =
    if Overlaps start stop r then
      (if r.base < start then 1 else 0) + (if stop < r.stop then 1 else 0)
    else 0
  := by
  unfold protectionPieces pieces protectionFragments before after
  by_cases hover : Overlaps start stop r
  · split_ifs <;> rfl
  · rw [if_neg hover, if_neg hover]
    rfl

/-- `count_split_regions_for_removal` counts the pieces. -/
theorem countSplitRegionsForRemoval_eq (hgood : ∀ r ∈ rs, r.active = true → r.Good) :
  countSplitRegionsForRemoval start stop rs = some (extraOf (removalPieces start stop) rs)
  := by
  induction rs with
  | nil => rfl
  | cons r rs ih =>
    obtain ⟨hr, hrs⟩ := forall_mem_cons.mp hgood
    rw [extraOf_cons, removal_pieces_length]
    unfold countSplitRegionsForRemoval
    rw [ih hrs]
    obtain ⟨hend, hover⟩ | ⟨hend, hover⟩ := liveEnd?_cases hr start stop
    · rw [hend, if_neg fun h => hover h.1, Nat.zero_add]
    · rw [hend]
      simp only [Option.map_some, Option.some_inj, hover]
      split_ifs <;> omega

/-- `count_split_regions_for_mprotect` counts the pieces. -/
theorem countSplitRegionsForMprotect_eq (hgood : ∀ r ∈ rs, r.active = true → r.Good) :
  countSplitRegionsForMprotect start stop rs = some (extraOf (protectionPieces start stop prot) rs,
      rs.any fun r => decide (Overlaps start stop r))
  := by
  induction rs with
  | nil => rfl
  | cons r rs ih =>
    obtain ⟨hr, hrs⟩ := forall_mem_cons.mp hgood
    rw [extraOf_cons, protection_pieces_length, any_cons]
    unfold countSplitRegionsForMprotect
    rw [ih hrs]
    obtain ⟨hend, hover⟩ | ⟨hend, hiff⟩ := liveEnd?_cases hr start stop
    · rw [hend, if_neg hover, Nat.zero_add, decide_eq_false hover, Bool.false_or]
    rw [hend]
    simp only [Option.map_some, Option.some_inj]
    by_cases hover : Overlaps start stop r
    · have hin := hiff.mp hover
      rw [if_neg (by omega), if_pos hover, decide_eq_true hover, Bool.true_or]
      split_ifs <;> simp <;> omega
    · have hout := mt hiff.mpr hover
      rw [if_pos (by omega), if_neg hover, decide_eq_false hover, Bool.false_or, Nat.zero_add]

end Counting

/-! ## Exactness -/

/-- The result of one of the functions is exact: when it succeeds the map shows the change, when memory is
out the map is as it was, the regions stay disjoint, and the array is large enough for them. -/
structure Exact (change : Change) (c : Client) (result : Client × Status) : Prop where
  changed : result.2 = .ok → ∀ a e', Maps result.1.regions a e' ↔
    ∃ e, Maps c.regions a e ∧ change a e = some e'
  unchanged : result.2 = .outOfMemory → ∀ a e, Maps result.1.regions a e ↔ Maps c.regions a e
  disjoint : WellFormed result.1.regions
  inArray : result.2 ≠ .fault ∧ result.1.regions.length ≤ result.1.cap

/-- The array can be made large enough for more regions. -/
def Granted (alloc : ℕ → Bool) (c : Client) (additional : ℕ) : Prop :=
  (c.clientReserveRegions alloc additional).isSome = true

instance (alloc : ℕ → Bool) (c : Client) (additional : ℕ) : Decidable (Granted alloc c additional) :=
  inferInstanceAs (Decidable (_ = true))

/-- If `remove_client_range` runs and the range lies inside a region, the offsets after the range fit. -/
def RemovalFits (alloc : ℕ → Bool) (c : Client) (start length reserveAdditional : ℕ) : Prop :=
  length ≠ 0 →
    Granted alloc c (extraOf (removalPieces start (start + length)) c.regions + reserveAdditional) →
    ∀ r ∈ c.regions, r.active = true → r.base < start → start + length < r.stop →
      r.Fits (start + length)

/-- If `mprotect_client_range` runs, the offsets fit at the boundaries of the range inside regions. -/
def ProtectionFits (alloc : ℕ → Bool) (protects : Bool) (c : Client) (start length prot : ℕ) :
    Prop :=
  start + length < 2 ^ 64 →
    Granted alloc c (extraOf (protectionPieces start (start + length) prot) c.regions) →
    protects = true → ∀ r ∈ c.regions, Overlaps start (start + length) r →
      SplitFits start (start + length) r

section Exactness

variable {alloc : ℕ → Bool} {c : Client} {start stop prot : ℕ} {change : Change}
variable {c' : Client} {n : ℕ}

/-- A function that refuses is exact. -/
theorem exact_of_refused (hwf : WellFormed c.regions) {status : Status}
    (hrefused : status = .invalidArgument ∨ status = .outOfMemory)
    (hregions : c'.regions = c.regions) (hroom : c.regions.length ≤ c'.cap) :
  Exact change c (c', status)
  := by
  refine ⟨?_, ?_, ?_, ?_, ?_⟩
  · rintro rfl
    rcases hrefused with h | h <;> nomatch h
  · intro _ a e
    rw [hregions]
  · rw [hregions]
    exact hwf
  · rintro rfl
    rcases hrefused with h | h <;> nomatch h
  · rw [hregions]
    exact hroom

/-- The loop over the regions is exact, or stops at one of them. -/
theorem exact_loop {body : Client → ℕ → MmRegion → ℕ → ℕ → ℕ → StepResult}
    {P : MmRegion → List MmRegion} {Goes : MmRegion → Prop}
    {Stops : MmRegion → Status → List MmRegion → Prop} (hc : c.Sound) (hwf : WellFormed c.regions)
    (hP : ∀ r, P r ≠ []) (hturn : ∀ r ∈ c.regions, Turn body start stop P Goes Stops r)
    (htiles : ∀ r ∈ c.regions, Goes r → Tiles change r (P r)) (hn : extraOf P c.regions ≤ n)
    (hreserve : c.clientReserveRegions alloc n = some c') :
  ∃ result, loopFrom body start stop c'.regions.length 0 c' = result ∧
    (((∀ r ∈ c.regions, Goes r) ∧ Exact change c result) ∨
      ∃ before after ps, ∃ r ∈ c.regions, c.regions = before ++ r :: after ∧
        (∀ r ∈ before, Tiles change r (P r)) ∧ Stops r result.2 ps ∧
        result.1.regions.Perm (before.flatMap P ++ (ps ++ after)) ∧
        result.1.regions.length ≤ result.1.cap)
  := by
  obtain ⟨hregions, hroom, hcap⟩ := clientReserveRegions_spec hc hreserve
  have hspec := loopFrom_spec hP c.regions [] [] c' hcap (by simp [hregions]) hturn (by
    rw [hregions]
    omega)
  obtain ⟨rs, status, hrun, hbound, hresult⟩ := hspec
  rw [hregions]
  refine ⟨_, hrun, ?_⟩
  obtain ⟨rfl, hall, hperm⟩ | ⟨before, r, after, ps, hsplit, hbefore, hstops, hperm⟩ := hresult
  · left
    rw [nil_append, nil_append] at hperm
    have htiles' : ∀ r ∈ c.regions, Tiles change r (P r) := fun r hr => htiles r hr (hall r hr)
    refine ⟨hall, ?_, nofun, ?_, nofun, hbound⟩
    · intro _ a e'
      rw [maps_perm hperm, maps_flatMap htiles']
    · exact (wellFormed_flatMap hwf fun r hr => (htiles' r hr).toInside).perm hperm.symm
  · refine .inr ⟨before, after, ps, r, ?_, hsplit, fun r' hr' => htiles r' ?_ (hbefore r' hr'), hstops,
      hperm, hbound⟩
    · rw [hsplit]
      exact mem_append_right _ mem_cons_self
    · rw [hsplit]
      exact mem_append_left _ hr'

theorem Granted.of_some (h : c.clientReserveRegions alloc n = some c') :
  Granted alloc c n
  := by
  unfold Granted
  rw [h]
  rfl

theorem not_granted (h : c.clientReserveRegions alloc n = none) :
  ¬ Granted alloc c n
  := by
  unfold Granted
  rw [h]
  exact Bool.false_ne_true

section

variable (hc : c.Sound) (hwf : WellFormed c.regions) (hstart : start % 4096 = 0)
  (hstop : stop % 4096 = 0)
include hc hwf hstart hstop

/-- The loop of `mprotect_client_range` is exact unless an offset does not fit. -/
theorem protect_loop_exact_iff (hrange : start ≤ stop)
    (hn : extraOf (protectionPieces start stop prot) c.regions ≤ n)
    (hres : c.clientReserveRegions alloc n = some c') :
  Exact (protection start stop prot) c
      (loopFrom (protectOverlap alloc prot) start stop c'.regions.length 0 c') ↔
    ∀ r ∈ c.regions, Overlaps start stop r → SplitFits start stop r
  := by
  have htiles : ∀ r ∈ c.regions, (Overlaps start stop r → SplitFits start stop r) →
      Tiles (protection start stop prot) r (protectionPieces start stop prot r) := by
    intro r hr hgoes
    have hgood := hwf.good r hr
    refine pieces_tiles hgood (fun hover => ?_) (fun hover a => protection_of_not_overlaps hover) ?_
    · exact protection_fragments (hgood hover.1.1) hover hstart hstop hrange prot
    · intro hover
      exact (protectionFragments_fits (hgood hover.1.1)).mpr (hgoes hover)
  obtain ⟨result, hrun, hresult⟩ := exact_loop hc hwf (pieces_ne_nil _)
    (fun r hr => protect_turn hstart hstop hrange (hwf.good r hr)) htiles hn hres
  rw [hrun]
  obtain ⟨hall, hexact⟩ | ⟨before, after, ps, r, hr, hsplit, hbefore, hstops, hperm, hbound⟩ := hresult
  · exact iff_of_true hexact hall
  refine iff_of_false ?_ fun h => hstops.unfit (h r hr hstops.overlaps)
  -- the address that is lost belongs to no other region
  intro hexact
  obtain ⟨a, hcovers, hlost⟩ := hstops.lost
  obtain ⟨p, hp, hpa, -⟩ := (hexact.unchanged hstops.status a (r.entry a)).mpr ⟨r, hr, hcovers, rfl⟩
  have hapart := hwf.apart
  rw [hsplit, pairwise_append, pairwise_cons] at hapart
  obtain ⟨-, ⟨hafter, -⟩, hcross⟩ := hapart
  obtain hp | hp := mem_append.mp (hperm.mem_iff.mp hp)
  · obtain ⟨r', hr', hpr'⟩ := mem_flatMap.mp hp
    exact hcross r' hr' r mem_cons_self a ((hbefore r' hr').covers p hpr' a hpa) hcovers
  obtain hp | hp := mem_append.mp hp
  · exact hlost p hp hpa
  · exact hafter p hp a hcovers hpa

/-- The loop of `remove_client_range` is exact unless the range lies inside a region and the offset
after it does not fit. -/
theorem remove_loop_exact_iff (hrange : start < stop)
    (hn : extraOf (removalPieces start stop) c.regions ≤ n)
    (hres : c.clientReserveRegions alloc n = some c') :
  Exact (removal start stop) c (loopFrom (removeOverlap alloc) start stop c'.regions.length 0 c') ↔
    ∀ r ∈ c.regions, r.active = true → r.base < start → stop < r.stop → r.Fits stop
  := by
  have htiles : ∀ r ∈ c.regions, (Overlaps start stop r → stop < r.stop → r.Fits stop) →
      Tiles (removal start stop) r (removalPieces start stop r) := by
    intro r hr hgoes
    have hgood := hwf.good r hr
    refine pieces_tiles hgood (fun hover => ?_) (fun hover a => removal_of_not_overlaps hover) ?_
    · exact removal_fragments (hgood hover.1.1) hover hstart hstop hrange.le
    · intro hover
      exact (removalFragments_fits (hgood hover.1.1)).mpr (hgoes hover)
  have hover_of : ∀ r : MmRegion, r.active = true → r.base < start → stop < r.stop →
      Overlaps start stop r := by
    intro r hactive hb hs
    refine overlaps_of_covers (a := start) ⟨hactive, hb.le, ?_⟩ ⟨le_rfl, hrange⟩
    exact hrange.trans hs
  obtain ⟨result, hrun, hresult⟩ := exact_loop hc hwf (pieces_ne_nil _)
    (fun r hr => remove_turn hstop (hwf.good r hr)) htiles hn hres
  rw [hrun]
  obtain ⟨hall, hexact⟩ | ⟨before, after, ps, r, hr, hsplit, hbefore, hstops, hperm, hbound⟩ := hresult
  · exact iff_of_true hexact fun r hr hactive hb hs => hall r hr (hover_of r hactive hb hs) hs
  have hinvalid := hstops.status
  obtain ⟨hb, hinside⟩ | ⟨⟨hb, hs, hfits⟩, q, rfl, hq⟩ := hstops.pieces
  · refine iff_of_true ⟨?_, ?_, ?_, ?_, hbound⟩ ?_
    · intro hok
      rw [hinvalid] at hok
      nomatch hok
    · intro hout
      rw [hinvalid] at hout
      nomatch hout
    · rw [hsplit] at hwf
      exact (wellFormed_upTo hwf (fun r' hr' => (hbefore r' hr').toInside) hinside).perm hperm.symm
    · intro hfault
      rw [hinvalid] at hfault
      nomatch hfault
    · -- a region around the range is the one where the loop stopped
      intro r' hr' hactive' hb' hs'
      obtain ⟨⟨hactive, hne⟩, hlo, hhi⟩ := hstops.overlaps
      have heq : r = r' := by
        by_contra hdiff
        have hapart : r.Apart r' := hwf.apart.forall hr hr' hdiff
        refine hapart r.base ⟨hactive, le_rfl, ?_⟩ ⟨hactive', ?_, ?_⟩
        · omega
        · omega
        · exact hlo.trans hs'
      rw [heq] at hb
      exact absurd hb' hb
  · refine iff_of_false ?_ fun h => hfits (h r hr hstops.overlaps.1.1 hb hs)
    intro hexact
    have hwf' := hexact.disjoint.perm hperm
    have hps := (wellFormed_append.mp (wellFormed_append.mp hwf').2.1).1
    have hapart := (pairwise_cons.mp hps.apart).1 q mem_cons_self
    exact hapart stop ⟨hstops.overlaps.1.1, by omega, hs⟩ hq

end

variable {length : ℕ} (hc : c.Sound) (hwf : WellFormed c.regions) (hstart : start % 4096 = 0)
  (hlength : length % 4096 = 0)

include hc hwf hstart hlength

/-- `mprotect_client_range` is exact unless it runs and an offset does not fit. -/
theorem mprotect_exact_iff (protects : Bool) :
  Exact (protection start (start + length) prot) c
      (mprotectClientRange alloc protects c start length prot) ↔
    ProtectionFits alloc protects c start length prot
  := by
  unfold ProtectionFits
  by_cases hbound : start + length < 2 ^ 64
  swap
  · refine iff_of_true ?_ fun h => (hbound h).elim
    have hrun : mprotectClientRange alloc protects c start length prot = (c, .invalidArgument) := by
      unfold mprotectClientRange checkedAdd
      split
      · rfl
      next sum hsum =>
      split_ifs at hsum
      cases hsum
      have hround : (length + 4095) / 4096 * 4096 = length := by omega
      rw [hround, if_neg hbound]
    rw [hrun]
    exact exact_of_refused hwf (.inl rfl) rfl hc.room
  have hsum : checkedAdd length 4095 = some (length + 4095) := checkedAdd_eq (by omega)
  have hround : (length + 4095) / 4096 * 4096 = length := by omega
  have hcount : countSplitRegionsForMprotect start (start + length) c.regions =
      some (extraOf (protectionPieces start (start + length) prot) c.regions, _) :=
    countSplitRegionsForMprotect_eq hwf.good
  have hstop : (start + length) % 4096 = 0 := by omega
  unfold mprotectClientRange
  rw [hsum]
  dsimp only
  rw [hround, checkedAdd_eq hbound]
  dsimp only
  rw [hcount]
  cases hany : c.regions.any fun r => decide (Overlaps start (start + length) r) with
  | false =>
    have hnone : ∀ r ∈ c.regions, ¬ Overlaps start (start + length) r := by
      intro r hr hover
      have h := any_eq_false.mp hany r hr
      exact h (decide_eq_true hover)
    refine iff_of_true ?_ fun _ _ _ r hr hover => (hnone r hr hover).elim
    refine ⟨fun _ a e' => ?_, nofun, hwf, nofun, hc.room⟩
    constructor
    · rintro ⟨r, hr, hcovers, rfl⟩
      exact ⟨_, ⟨r, hr, hcovers, rfl⟩, protection_of_not_overlaps (hnone r hr) hcovers⟩
    · rintro ⟨e, ⟨r, hr, hcovers, rfl⟩, hchange⟩
      rw [protection_of_not_overlaps (hnone r hr) hcovers] at hchange
      exact ⟨r, hr, hcovers, Option.some.inj hchange⟩
  | true =>
    dsimp only
    generalize hextra : extraOf (protectionPieces start (start + length) prot) c.regions = extra
    have hreserve : (if extra = 0 then some c else c.clientReserveRegions alloc extra) =
        c.clientReserveRegions alloc extra := by
      split_ifs with hzero
      · rw [hzero, clientReserveRegions_zero hc]
      · rfl
    rw [hreserve]
    cases hres : c.clientReserveRegions alloc extra with
    | none =>
      refine iff_of_true ?_ fun _ hgranted => (not_granted hres hgranted).elim
      exact exact_of_refused hwf (.inr rfl) rfl hc.room
    | some c' =>
      obtain ⟨hregions, hroom, -⟩ := clientReserveRegions_spec hc hres
      cases protects with
      | false =>
        refine iff_of_true ?_ nofun
        exact exact_of_refused hwf (.inl rfl) hregions ((Nat.le_add_right ..).trans hroom)
      | true =>
        have hiff := protect_loop_exact_iff hc hwf hstart hstop (Nat.le_add_right ..) hextra.le hres
        exact hiff.trans ⟨fun h _ _ _ => h, fun h => h hbound (.of_some hres) rfl⟩

/-- `remove_client_range` is exact unless it runs, the range lies inside a region, and the offset after it
does not fit. -/
theorem remove_exact_iff (reserveAdditional : ℕ) :
  Exact (removal start (start + length)) c (removeClientRange alloc c start length reserveAdditional) ↔
    RemovalFits alloc c start length reserveAdditional
  := by
  have hguard : (length = 0 ∨ start % 4096 ≠ 0 ∨ length % 4096 ≠ 0) ↔ length = 0 := by
    rw [hstart, hlength]
    simp
  unfold removeClientRange RemovalFits
  rw [if_congr hguard rfl rfl]
  by_cases hzero : length = 0
  · rw [if_pos hzero]
    exact iff_of_true (exact_of_refused hwf (.inl rfl) rfl hc.room) fun h => (h hzero).elim
  rw [if_neg hzero]
  by_cases hbound : start + length < 2 ^ 64
  swap
  · unfold checkedAdd
    rw [if_neg hbound]
    apply iff_of_true (exact_of_refused hwf (.inl rfl) rfl hc.room)
    intro _ _ r hr hactive _ hs
    exact absurd (hs.trans (hwf.good r hr hactive).stop) hbound
  rw [checkedAdd_eq hbound]
  dsimp only
  rw [countSplitRegionsForRemoval_eq hwf.good]
  dsimp only
  generalize hextra : extraOf (removalPieces start (start + length)) c.regions = extra
  by_cases htotal : extra + reserveAdditional < 2 ^ 64
  swap
  · unfold checkedAdd
    rw [if_neg htotal]
    refine iff_of_true (exact_of_refused hwf (.inr rfl) rfl hc.room) fun _ hgranted => ?_
    have hnone : c.clientReserveRegions alloc (extra + reserveAdditional) = none := by
      unfold Client.clientReserveRegions checkedAdd
      rw [if_neg (by omega)]
    exact (not_granted hnone hgranted).elim
  rw [checkedAdd_eq htotal]
  dsimp only
  cases hres : c.clientReserveRegions alloc (extra + reserveAdditional) with
  | none =>
    refine iff_of_true ?_ fun _ hgranted => (not_granted hres hgranted).elim
    exact exact_of_refused hwf (.inr rfl) rfl hc.room
  | some c' =>
    have hiff := remove_loop_exact_iff hc hwf hstart (by omega) (by omega)
      (hextra.le.trans (Nat.le_add_right ..)) hres
    exact hiff.trans ⟨fun h _ _ => h, fun h => h hzero (.of_some hres)⟩

/-- Cutting regions is exact, except where a function runs and an offset at a boundary of the range
inside a region does not fit into its field: then `mprotect_client_range` has lost a part of the region
when it answers that memory is out, and `remove_client_range` leaves regions that overlap. -/
theorem splitting_exact_iff_offsets_fit (protects : Bool) (reserveAdditional : ℕ) :
  (Exact (removal start (start + length)) c (removeClientRange alloc c start length reserveAdditional) ∧
    Exact (protection start (start + length) prot) c
      (mprotectClientRange alloc protects c start length prot)) ↔
    (RemovalFits alloc c start length reserveAdditional ∧
      ProtectionFits alloc protects c start length prot)
  := and_congr (remove_exact_iff hc hwf hstart hlength reserveAdditional)
    (mprotect_exact_iff hc hwf hstart hlength protects)

omit hc hwf hstart hlength

theorem wellFormed_singleton {r : MmRegion} (hr : r.Good) :
  WellFormed [r]
  := by
  refine ⟨fun r' hr' _ => ?_, pairwise_singleton ..⟩
  rw [mem_singleton.mp hr']
  exact hr

/-- A client with one region of three pages, at an offset of its file. -/
def threePages (file : ℕ) : Client where
  regions := [⟨4096, 12288, 3, true, 7, 0, file⟩]
  cap := 8
  buffer := 1

theorem threePages_wellFormed (file : ℕ) (h : file < 2 ^ 64) :
  (threePages file).Sound ∧ WellFormed (threePages file).regions
  := by
  have hbase : 4096 % 4096 = 0 := by decide
  have hlength : 12288 % 4096 = 0 := by decide
  have hstop : 4096 + 12288 < 2 ^ 64 := by decide
  have hmo : 0 < 2 ^ 32 := by decide
  have hcap : 8 < 2 ^ 64 := by decide
  exact ⟨⟨Nat.le_of_ble_eq_true rfl, hcap⟩, wellFormed_singleton ⟨hbase, hlength, hstop, hmo, h⟩⟩

theorem splitting_exact_of_threePages :
  Exact (removal 8192 (8192 + 4096)) (threePages 0)
      (removeClientRange (fun _ => true) (threePages 0) 8192 4096 0) ∧
    Exact (protection 8192 (8192 + 4096) 1) (threePages 0)
      (mprotectClientRange (fun _ => true) true (threePages 0) 8192 4096 1)
  := by
  obtain ⟨hc, hwf⟩ := threePages_wellFormed 0 (by decide)
  refine (splitting_exact_iff_offsets_fit hc hwf (by decide) (by decide) true 0).mpr ⟨?_, ?_⟩
  · intro _ _ r hr _ _ _
    rw [mem_singleton.mp hr]
    decide
  · intro _ _ _ r hr _
    rw [mem_singleton.mp hr]
    exact ⟨fun _ => by decide, fun _ => by decide⟩

/-- The region ends with the last page of the file that has an offset. When the protection of the middle
page is changed, the last page is lost with an answer that memory is out; when the middle page is removed,
the region still covers the page after it, which the new region covers as well. -/
theorem last_page_is_lost :
  ((threePages (2 ^ 64 - 8192)).Sound ∧ WellFormed (threePages (2 ^ 64 - 8192)).regions) ∧
    mprotectClientRange (fun _ => true) true (threePages (2 ^ 64 - 8192)) 8192 4096 1 =
      (⟨[⟨4096, 4096, 3, true, 7, 0, 2 ^ 64 - 8192⟩, ⟨8192, 4096, 1, true, 7, 1, 2 ^ 64 - 4096⟩,
        .zeroed], 8, 1⟩, .outOfMemory) ∧
    removeClientRange (fun _ => true) (threePages (2 ^ 64 - 8192)) 8192 4096 0 =
      (⟨[⟨4096, 12288, 3, true, 7, 0, 2 ^ 64 - 8192⟩, ⟨12288, 4096, 3, true, 7, 2, 2 ^ 64 - 8192⟩],
        8, 1⟩, .invalidArgument) ∧
    ¬ Exact (protection 8192 (8192 + 4096) 1) (threePages (2 ^ 64 - 8192))
      (mprotectClientRange (fun _ => true) true (threePages (2 ^ 64 - 8192)) 8192 4096 1) ∧
    ¬ Exact (removal 8192 (8192 + 4096)) (threePages (2 ^ 64 - 8192))
      (removeClientRange (fun _ => true) (threePages (2 ^ 64 - 8192)) 8192 4096 0)
  := by
  have hwf := threePages_wellFormed (2 ^ 64 - 8192) (by decide)
  refine ⟨hwf, by decide, by decide, ?_, ?_⟩
  · rw [mprotect_exact_iff hwf.1 hwf.2 (by decide) (by decide) true]
    intro h
    have hfits := h (by decide) (by decide) rfl _ (mem_singleton_self _) (by decide)
    exact absurd (hfits.2 (by decide)) (by decide)
  · rw [remove_exact_iff hwf.1 hwf.2 (by decide) (by decide) 0]
    intro h
    have hfits := h (by decide) (by decide) _ (mem_singleton_self _) rfl (by decide) (by decide)
    exact absurd hfits (by decide)

end Exactness

end SaltyOS.Mmsrv
