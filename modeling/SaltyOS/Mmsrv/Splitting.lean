import SaltyOS.Mmsrv.Region
import Mathlib.Tactic

/-!
# Cutting regions

The active regions of a client describe a map from addresses to pages of objects.  A region that is cut
is replaced by pieces of itself, the first in its place and the others at the end of the array.  Both
functions are described by the pieces they make of one region; what they do to the map and why the array
is large enough then follows for all regions at once.
-/

namespace SaltyOS.Mmsrv

open List

/-! ## The map of a client -/

/-- What an address is mapped to: an object, the page in it, the protection, and the place in the
file. -/
structure Entry where
  mo : ℕ
  page : ℕ
  prot : ℕ
  file : ℕ
  deriving DecidableEq, Repr

namespace MmRegion

/-- The region covers an address. -/
def Covers (r : MmRegion) (a : ℕ) : Prop :=
  r.active = true ∧ r.base ≤ a ∧ a < r.base + r.length

/-- What a region maps an address to. -/
def entry (r : MmRegion) (a : ℕ) : Entry where
  mo := r.moCap
  page := r.moOffset + (a - r.base) / 4096
  prot := r.prot
  file := r.backingFileOffset + (a - r.base)

/-- A range of pages without overflow, and offsets that fit into their fields. -/
structure Good (r : MmRegion) : Prop where
  base : r.base % 4096 = 0
  length : r.length % 4096 = 0
  stop : r.base + r.length < 2 ^ 64
  moOffset : r.moOffset < 2 ^ 32
  file : r.backingFileOffset < 2 ^ 64

/-- Two regions have no address in common. -/
def Apart (r r' : MmRegion) : Prop := ∀ a, r.Covers a → ¬ r'.Covers a

/-- A piece of a region. -/
def piece (r : MmRegion) (base length prot : ℕ) : MmRegion :=
  { r with
    base, length, prot, active := true
    moOffset := r.moOffset + (base - r.base) / 4096
    backingFileOffset := r.backingFileOffset + (base - r.base) }

/-- The offsets of a piece that begins at an address fit into their fields. -/
def Fits (r : MmRegion) (b : ℕ) : Prop :=
  r.moOffset + (b - r.base) / 4096 < 2 ^ 32 ∧ r.backingFileOffset + (b - r.base) < 2 ^ 64

end MmRegion

/-- The regions map an address. -/
def Maps (rs : List MmRegion) (a : ℕ) (e : Entry) : Prop :=
  ∃ r ∈ rs, r.Covers a ∧ r.entry a = e

/-- The active regions are disjoint page ranges without overflow. -/
structure WellFormed (rs : List MmRegion) : Prop where
  good : ∀ r ∈ rs, r.active = true → r.Good
  apart : rs.Pairwise MmRegion.Apart

section Pieces

open MmRegion

variable {r : MmRegion} {b l p a : ℕ}

theorem piece_covers :
  (r.piece b l p).Covers a ↔ b ≤ a ∧ a < b + l
  := ⟨fun h => h.2, fun h => ⟨rfl, h⟩⟩

/-- A piece maps its addresses as the region does, up to the protection. -/
theorem piece_entry (hb : r.base ≤ b) (hba : b ≤ a) (hdelta : (b - r.base) % 4096 = 0) :
  (r.piece b l p).entry a = { r.entry a with prot := p }
  := by
  have hpage : r.moOffset + (b - r.base) / 4096 + (a - b) / 4096 =
      r.moOffset + (a - r.base) / 4096 := by omega
  have hfile : r.backingFileOffset + (b - r.base) + (a - b) =
      r.backingFileOffset + (a - r.base) := by omega
  unfold entry piece
  simp only [Entry.mk.injEq, true_and]
  exact ⟨hpage, hfile⟩

theorem Apart.symm {r' : MmRegion} (h : r.Apart r') :
  r'.Apart r
  := fun a hr' hr => h a hr hr'

instance : Std.Symm Apart :=
  ⟨fun _ _ => Apart.symm⟩

end Pieces

/-! ## Tiles -/

/-- What becomes of the map: what an address that was mapped is mapped to. -/
abbrev Change : Type := ℕ → Entry → Option Entry

/-- The addresses of a range are not mapped any more. -/
def removal (start stop : ℕ) : Change :=
  fun a e => if start ≤ a ∧ a < stop then none else some e

/-- The addresses of a range have another protection. -/
def protection (start stop prot : ℕ) : Change :=
  fun a e => some (if start ≤ a ∧ a < stop then { e with prot } else e)

/-- Disjoint page ranges inside a region. -/
structure Inside (r : MmRegion) (ps : List MmRegion) : Prop where
  wellFormed : WellFormed ps
  covers : ∀ p ∈ ps, ∀ a, p.Covers a → r.Covers a

/-- The pieces of a region map its addresses as the change says. -/
structure Tiles (change : Change) (r : MmRegion) (ps : List MmRegion) :
    Prop extends Inside r ps where
  maps : ∀ a e', Maps ps a e' ↔ r.Covers a ∧ change a (r.entry a) = some e'

section Tiling

variable {change : Change} {rs : List MmRegion} {P : MmRegion → List MmRegion}

/-- The pieces of all regions map the addresses as the change says. -/
theorem maps_flatMap (h : ∀ r ∈ rs, Tiles change r (P r)) (a : ℕ) (e' : Entry) :
  Maps (rs.flatMap P) a e' ↔ ∃ e, Maps rs a e ∧ change a e = some e'
  := by
  constructor
  · rintro ⟨p, hp, hcovers, hentry⟩
    obtain ⟨r, hr, hpr⟩ := mem_flatMap.mp hp
    obtain ⟨hcovers, hchange⟩ := ((h r hr).maps a e').mp ⟨p, hpr, hcovers, hentry⟩
    exact ⟨r.entry a, ⟨r, hr, hcovers, rfl⟩, hchange⟩
  · rintro ⟨e, ⟨r, hr, hcovers, rfl⟩, hchange⟩
    obtain ⟨p, hp, hpiece⟩ := ((h r hr).maps a e').mpr ⟨hcovers, hchange⟩
    exact ⟨p, mem_flatMap.mpr ⟨r, hr, hp⟩, hpiece⟩

/-- The pieces of all regions are disjoint page ranges again. -/
theorem wellFormed_flatMap (hrs : WellFormed rs) (h : ∀ r ∈ rs, Inside r (P r)) :
  WellFormed (rs.flatMap P)
  := by
  constructor
  · intro p hp
    obtain ⟨r, hr, hpr⟩ := mem_flatMap.mp hp
    exact (h r hr).wellFormed.good p hpr
  · rw [pairwise_flatMap]
    refine ⟨fun r hr => (h r hr).wellFormed.apart, hrs.apart.imp_of_mem ?_⟩
    intro r r' hr hr' hapart p hp p' hp' a hpa hp'a
    exact hapart a ((h r hr).covers p hp a hpa) ((h r' hr').covers p' hp' a hp'a)

theorem wellFormed_append {rs' : List MmRegion} :
  WellFormed (rs ++ rs') ↔ WellFormed rs ∧ WellFormed rs' ∧ ∀ r ∈ rs, ∀ r' ∈ rs', r.Apart r'
  := by
  constructor
  · intro h
    obtain ⟨hrs, hrs', hapart⟩ := pairwise_append.mp h.apart
    exact ⟨⟨fun r hr => h.good r (mem_append_left _ hr), hrs⟩,
      ⟨fun r hr => h.good r (mem_append_right _ hr), hrs'⟩, hapart⟩
  · rintro ⟨hrs, hrs', hapart⟩
    refine ⟨fun r hr => ?_, pairwise_append.mpr ⟨hrs.apart, hrs'.apart, hapart⟩⟩
    exact (mem_append.mp hr).elim (hrs.good r) (hrs'.good r)

/-- The regions up to one are replaced by pieces, the others are as they were. -/
theorem wellFormed_upTo {ps rest : List MmRegion} {r : MmRegion}
    (hrs : WellFormed (rs ++ r :: rest)) (h : ∀ r ∈ rs, Inside r (P r)) (hps : Inside r ps) :
  WellFormed (rs.flatMap P ++ (ps ++ rest))
  := by
  obtain ⟨hdone, htodo, hapart⟩ := wellFormed_append.mp hrs
  rw [← singleton_append] at htodo
  obtain ⟨-, hrest, hr⟩ := wellFormed_append.mp htodo
  refine wellFormed_append.mpr ⟨wellFormed_flatMap hdone h,
    wellFormed_append.mpr ⟨hps.wellFormed, hrest, ?_⟩, ?_⟩
  · intro p hp r' hr' a hpa
    exact hr r (mem_singleton_self r) r' hr' a (hps.covers p hp a hpa)
  · intro p hp q hq a hpa hqa
    obtain ⟨r', hr', hpr'⟩ := mem_flatMap.mp hp
    have hr'a := (h r' hr').covers p hpr' a hpa
    obtain hq | hq := mem_append.mp hq
    · exact hapart r' hr' r mem_cons_self a hr'a (hps.covers q hq a hqa)
    · exact hapart r' hr' q (mem_cons_of_mem _ hq) a hr'a hqa

theorem WellFormed.perm {rs' : List MmRegion} (h : WellFormed rs) (hperm : rs.Perm rs') :
  WellFormed rs'
  := ⟨fun r hr => h.good r (hperm.mem_iff.mpr hr), hperm.pairwise h.apart Apart.symm⟩

theorem maps_perm {rs' : List MmRegion} (hperm : rs.Perm rs') (a : ℕ) (e : Entry) :
  Maps rs a e ↔ Maps rs' a e
  := by
  unfold Maps
  simp only [hperm.mem_iff]

end Tiling

/-! ## Fragments -/

/-- A part of the addresses of a region, with a protection. -/
structure Fragment where
  base : ℕ
  length : ℕ
  prot : ℕ

/-- The region of a fragment. -/
def MmRegion.fragment (r : MmRegion) (f : Fragment) : MmRegion :=
  r.piece f.base f.length f.prot

/-- The end of a region. -/
def MmRegion.stop (r : MmRegion) : ℕ := r.base + r.length

/-- The fragment before the range. -/
def before (start : ℕ) (r : MmRegion) : List Fragment :=
  if r.base < start then [⟨r.base, start - r.base, r.prot⟩] else []

/-- The fragment after the range. -/
def after (stop : ℕ) (r : MmRegion) : List Fragment :=
  if stop < r.stop then [⟨stop, r.stop - stop, r.prot⟩] else []

/-- The fragments of a region that stay when a range is removed. -/
def removalFragments (start stop : ℕ) (r : MmRegion) : List Fragment :=
  before start r ++ after stop r

/-- The fragments of a region when the protection of a range changes. -/
def protectionFragments (start stop prot : ℕ) (r : MmRegion) : List Fragment :=
  before start r ++ ⟨max r.base start, min r.stop stop - max r.base start, prot⟩ :: after stop r

/-- The region is active, not empty, and overlaps the range. -/
def Overlaps (start stop : ℕ) (r : MmRegion) : Prop :=
  (r.active = true ∧ r.length ≠ 0) ∧ r.base < stop ∧ start < r.stop

instance (start stop : ℕ) (r : MmRegion) : Decidable (Overlaps start stop r) :=
  inferInstanceAs (Decidable (_ ∧ _))

/-- The regions that take the place of a region: its fragments, or an unused region if there are none. -/
def pieces (fragments : MmRegion → List Fragment) (start stop : ℕ) (r : MmRegion) : List MmRegion :=
  if Overlaps start stop r then
    match fragments r with
    | [] => [.zeroed]
    | f :: fs => r.fragment f :: fs.map r.fragment
  else [r]

/-- The pieces of a region when a range is removed. -/
abbrev removalPieces (start stop : ℕ) : MmRegion → List MmRegion :=
  pieces (removalFragments start stop) start stop

/-- The pieces of a region when the protection of a range changes. -/
abbrev protectionPieces (start stop prot : ℕ) : MmRegion → List MmRegion :=
  pieces (protectionFragments start stop prot) start stop

/-- The fragments of a region are parts of it, in order, that show the change. -/
structure Fragments (change : Change) (r : MmRegion) (fs : List Fragment) : Prop where
  inside : ∀ f ∈ fs, (r.base ≤ f.base ∧ f.base < r.stop) ∧ f.base + f.length ≤ r.stop ∧
    f.base % 4096 = 0 ∧ f.length % 4096 = 0
  ordered : fs.Pairwise fun f f' => f.base + f.length ≤ f'.base
  shows : ∀ a, r.base ≤ a → a < r.stop → ∀ e',
    (∃ f ∈ fs, (f.base ≤ a ∧ a < f.base + f.length) ∧ { r.entry a with prot := f.prot } = e') ↔
      change a (r.entry a) = some e'

section Fragments

variable {change : Change} {r : MmRegion} {fs : List Fragment}

/-- The first fragments lie inside the region if their offsets fit. -/
theorem Fragments.insideOf {gs : List Fragment} (h : Fragments change r (fs ++ gs)) (hr : r.Good)
    (hactive : r.active = true) (hfits : ∀ f ∈ fs, r.Fits f.base) :
  Inside r (fs.map r.fragment)
  := by
  refine ⟨⟨?_, ?_⟩, ?_⟩
  · intro p hp _
    obtain ⟨f, hf, rfl⟩ := mem_map.mp hp
    obtain ⟨-, hstop, haligned, hlength⟩ := h.inside f (mem_append_left _ hf)
    exact ⟨haligned, hlength, hstop.trans_lt hr.stop, (hfits f hf).1, (hfits f hf).2⟩
  · rw [pairwise_map]
    apply (pairwise_append.mp h.ordered).1.imp
    intro f f' hle a ha ha'
    have hlo := (piece_covers.mp ha).2
    have hhi := (piece_covers.mp ha').1
    omega
  · intro p hp a ha
    obtain ⟨f, hf, rfl⟩ := mem_map.mp hp
    obtain ⟨hlo, hhi⟩ := piece_covers.mp ha
    obtain ⟨⟨hle, -⟩, hstop, -, -⟩ := h.inside f (mem_append_left _ hf)
    exact ⟨hactive, hle.trans hlo, hhi.trans_le hstop⟩

/-- The fragments tile the region if their offsets fit. -/
theorem Fragments.tiles (h : Fragments change r fs) (hr : r.Good) (hactive : r.active = true)
    (hfits : ∀ f ∈ fs, r.Fits f.base) :
  Tiles change r (fs.map r.fragment)
  := by
  have hbase := hr.base
  have hinside : Inside r (fs.map r.fragment) := by
    have happend : Fragments change r (fs ++ []) := by
      rw [append_nil]
      exact h
    exact happend.insideOf hr hactive hfits
  refine ⟨hinside, fun a e' => ?_⟩
  have hmaps : Maps (fs.map r.fragment) a e' ↔ ∃ f ∈ fs,
      (f.base ≤ a ∧ a < f.base + f.length) ∧ { r.entry a with prot := f.prot } = e' := by
    unfold Maps
    simp only [mem_map, exists_exists_and_eq_and]
    refine exists_congr fun f => and_congr_right fun hf => ?_
    obtain ⟨⟨hle, -⟩, -, haligned, -⟩ := h.inside f hf
    unfold MmRegion.fragment
    rw [piece_covers]
    refine and_congr_right fun hcovers => ?_
    rw [piece_entry hle hcovers.1 (by omega)]
  rw [hmaps]
  constructor
  · rintro ⟨f, hf, hcovers, hentry⟩
    have hra := hinside.covers _ (mem_map_of_mem hf) a (piece_covers.mpr hcovers)
    exact ⟨hra, (h.shows a hra.2.1 hra.2.2 e').mp ⟨f, hf, hcovers, hentry⟩⟩
  · rintro ⟨hra, hchange⟩
    exact (h.shows a hra.2.1 hra.2.2 e').mpr hchange

theorem not_covers_zeroed (a : ℕ) :
  ¬ MmRegion.zeroed.Covers a
  := fun h => (nomatch h.1)

/-- An unused region beside others. -/
theorem Inside.zeroed {ps : List MmRegion} (h : Inside r ps) :
  Inside r (ps ++ [.zeroed])
  := by
  refine ⟨wellFormed_append.mpr ⟨h.wellFormed, ⟨?_, pairwise_singleton ..⟩, ?_⟩, ?_⟩
  · rintro q hq hactive
    rw [mem_singleton.mp hq] at hactive
    nomatch hactive
  · rintro p hp q hq a - hqa
    rw [mem_singleton.mp hq] at hqa
    exact not_covers_zeroed a hqa
  · intro p hp a hpa
    obtain hp | hp := mem_append.mp hp
    · exact h.covers p hp a hpa
    · rw [mem_singleton.mp hp] at hpa
      exact (not_covers_zeroed a hpa).elim

/-- The pieces of a region tile it, whether it is cut or not. -/
theorem pieces_tiles {fragments : MmRegion → List Fragment} {start stop : ℕ}
    (hgood : r.active = true → r.Good)
    (hfragments : Overlaps start stop r → Fragments change r (fragments r))
    (hsame : ¬ Overlaps start stop r → ∀ a, r.Covers a → change a (r.entry a) = some (r.entry a))
    (hfits : Overlaps start stop r → ∀ f ∈ fragments r, r.Fits f.base) :
  Tiles change r (pieces fragments start stop r)
  := by
  unfold pieces
  split_ifs with hover
  · have htiles := (hfragments hover).tiles (hgood hover.1.1) hover.1.1 (hfits hover)
    cases hfs : fragments r with
    | nil =>
      rw [hfs] at htiles
      refine ⟨htiles.toInside.zeroed, fun a e' => ?_⟩
      rw [← htiles.maps]
      simp [Maps, not_covers_zeroed]
    | cons f fs =>
      rw [hfs] at htiles
      exact htiles
  · refine ⟨⟨⟨?_, pairwise_singleton ..⟩, ?_⟩, fun a e' => ?_⟩
    · rintro p hp
      rw [mem_singleton.mp hp]
      exact hgood
    · rintro p hp a
      rw [mem_singleton.mp hp]
      exact id
    · simp only [Maps, mem_singleton, exists_eq_left]
      refine and_congr_right fun hcovers => ?_
      rw [hsame hover a hcovers, Option.some_inj]

end Fragments

section Cutting

variable {start stop : ℕ} {r : MmRegion}

theorem mem_before {f : Fragment} :
  f ∈ before start r ↔ r.base < start ∧ f = ⟨r.base, start - r.base, r.prot⟩
  := by
  unfold before
  split_ifs with h <;> simp [h]

theorem mem_after {f : Fragment} :
  f ∈ after stop r ↔ stop < r.stop ∧ f = ⟨stop, r.stop - stop, r.prot⟩
  := by
  unfold after
  split_ifs with h <;> simp [h]

theorem ordered_before :
  (before start r).Pairwise fun f f' => f.base + f.length ≤ f'.base
  := by
  unfold before
  split_ifs
  · exact pairwise_singleton ..
  · exact List.Pairwise.nil

theorem ordered_after :
  (after stop r).Pairwise fun f f' => f.base + f.length ≤ f'.base
  := by
  unfold after
  split_ifs
  · exact pairwise_singleton ..
  · exact List.Pairwise.nil

theorem MmRegion.Good.end_aligned (hr : r.Good) :
  r.stop % 4096 = 0
  := by
  unfold MmRegion.stop
  rw [Nat.add_mod, hr.base, hr.length]

variable (hr : r.Good) (hover : Overlaps start stop r) (hstart : start % 4096 = 0)
  (hstop : stop % 4096 = 0) (hrange : start ≤ stop)

include hr hover hstart hstop hrange

/-- The parts of a region when the protection of a range changes. -/
theorem protection_fragments (prot : ℕ) :
  Fragments (protection start stop prot) r (protectionFragments start stop prot r)
  := by
  obtain ⟨⟨-, hne⟩, hlo, hhi⟩ := hover
  have hbase := hr.base
  have hlt : r.base < r.stop := Nat.lt_add_of_pos_right (Nat.pos_of_ne_zero hne)
  have hend := hr.end_aligned
  refine ⟨?_, ?_, ?_⟩
  · intro f hf
    obtain hf | hf := mem_append.mp hf
    · obtain ⟨hlt, rfl⟩ := mem_before.mp hf
      dsimp only
      omega
    obtain rfl | hf := mem_cons.mp hf
    · dsimp only
      omega
    obtain ⟨hlt, rfl⟩ := mem_after.mp hf
    dsimp only
    omega
  · refine pairwise_append.mpr ⟨ordered_before, pairwise_cons.mpr ⟨?_, ordered_after⟩, ?_⟩
    · intro g hg
      obtain ⟨hlt, rfl⟩ := mem_after.mp hg
      dsimp only
      omega
    · intro f hf g hg
      obtain ⟨hlt, rfl⟩ := mem_before.mp hf
      obtain rfl | hg := mem_cons.mp hg
      · dsimp only
        omega
      obtain ⟨hlt, rfl⟩ := mem_after.mp hg
      dsimp only
      omega
  · intro a ha ha' e'
    unfold protection protectionFragments
    simp only [mem_append, mem_cons, mem_before, mem_after, Option.some_inj]
    constructor
    · rintro ⟨f, ⟨hlt, rfl⟩ | rfl | ⟨hlt, rfl⟩, hcovers, rfl⟩ <;> dsimp only at hcovers
      · rw [if_neg (by omega)]
        rfl
      · rw [if_pos (by omega)]
      · rw [if_neg (by omega)]
        rfl
    · rintro rfl
      split_ifs with hin
      · exact ⟨_, .inr (.inl rfl), by dsimp only; omega, rfl⟩
      by_cases hbefore : a < start
      · exact ⟨_, .inl ⟨by omega, rfl⟩, ⟨ha, by dsimp only; omega⟩, rfl⟩
      · exact ⟨_, .inr (.inr ⟨by omega, rfl⟩), by dsimp only; omega, rfl⟩

/-- What is left of a region when a range is removed: the same fragments without the one in the range. -/
theorem removal_fragments :
  Fragments (removal start stop) r (removalFragments start stop r)
  := by
  have hparts := protection_fragments hr hover hstart hstop hrange 0
  have hsub : (removalFragments start stop r).Sublist (protectionFragments start stop 0 r) :=
    Sublist.append_left (sublist_cons_self ..) _
  refine ⟨fun f hf => hparts.inside f (hsub.subset hf), hparts.ordered.sublist hsub, ?_⟩
  intro a ha ha' e'
  unfold removal removalFragments
  simp only [mem_append, mem_before, mem_after]
  split_ifs with hin
  · refine ⟨?_, nofun⟩
    rintro ⟨f, ⟨hlt, rfl⟩ | ⟨hlt, rfl⟩, hcovers, -⟩ <;> dsimp only at hcovers <;> omega
  constructor
  · rintro ⟨f, ⟨hlt, rfl⟩ | ⟨hlt, rfl⟩, hcovers, rfl⟩ <;> rfl
  · intro he
    have hentry : { r.entry a with prot := r.prot } = e' := Option.some.inj he
    by_cases hbefore : a < start
    · exact ⟨_, .inl ⟨by omega, rfl⟩, ⟨ha, by dsimp only; omega⟩, hentry⟩
    · exact ⟨_, .inr ⟨by omega, rfl⟩, by dsimp only; omega, hentry⟩

omit hr hover hstart hstop hrange

/-- A region that has an address in the range overlaps it. -/
theorem overlaps_of_covers {a : ℕ} (h : r.Covers a) (hin : start ≤ a ∧ a < stop) :
  Overlaps start stop r
  := by
  obtain ⟨hactive, hlo, hhi⟩ := h
  use ⟨hactive, by omega⟩, by omega
  unfold MmRegion.stop
  omega

theorem removal_of_not_overlaps (h : ¬ Overlaps start stop r) {a : ℕ} (ha : r.Covers a) :
  removal start stop a (r.entry a) = some (r.entry a)
  := if_neg fun hin => h (overlaps_of_covers ha hin)

theorem protection_of_not_overlaps (h : ¬ Overlaps start stop r) {prot a : ℕ} (ha : r.Covers a) :
  protection start stop prot a (r.entry a) = some (r.entry a)
  := congrArg some (if_neg fun hin => h (overlaps_of_covers ha hin))

end Cutting

end SaltyOS.Mmsrv
