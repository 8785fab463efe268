import SaltyOS.Lib.Prog
import Mathlib.Order.Interval.Set.Nat

/-!
# The badge map

The table from the badges of clients to their handles uses open addressing with linear probing. A removed
entry becomes a tombstone, which a search passes and an insertion reuses. An insertion takes the first
entry it may use, although the badge can be stored further along, and the table then has two entries for it.
-/

namespace SaltyOS.Vfs

open Function

/-- `EMPTY_BADGE`. -/
def emptyBadge : ℕ := 0

/-- `TOMBSTONE_BADGE`. -/
def tombstoneBadge : ℕ := 2 ^ 64 - 1

/-- The badges that can be stored. -/
def Storable (b : ℕ) : Prop := b ≠ emptyBadge ∧ b ≠ tombstoneBadge

instance (b : ℕ) : Decidable (Storable b) := inferInstanceAs (Decidable (_ ∧ _))

structure BadgeEntry where
  badge : ℕ
  slot : ℕ
  epoch : ℕ

/-- The table. Its capacity is a power of two. -/
structure BadgeMap where
  entries : ℕ → BadgeEntry
  cap : ℕ
  mask : ℕ
  count : ℕ
  cap_eq : ∃ n, cap = 2 ^ n
  mask_eq : mask = cap - 1

namespace BadgeMap

/-- `new` with the capacity that it rounds up to. -/
def new (n : ℕ) : BadgeMap :=
  ⟨fun _ => ⟨emptyBadge, 0, 0⟩, 2 ^ n, 2 ^ n - 1, 0, ⟨n, rfl⟩, rfl⟩

variable (t : BadgeMap) (b : ℕ)

def hash : ℕ := (b * 0x9E3779B97F4A7C15 % 2 ^ 64) >>> 32 &&& t.mask

/-- The places that the loops visit, one after the other. -/
def place (k : ℕ) : ℕ := (fun idx => (idx + 1) &&& t.mask)^[k] (t.hash b)

/-- The loops of the operations: the first of `cap` places whose badge ends them. -/
def probe (stop : ℕ → Prop) [DecidablePred stop] : Option ℕ :=
  ((List.range t.cap).map (t.place b)).find? fun i => stop (t.entries i).badge

/-- The loop of `lookup` and `remove`. -/
def find : Option ℕ := t.probe b fun x => x = b ∨ x = emptyBadge

def lookup : Option (ℕ × ℕ) :=
  if Storable b then
    match t.find b with
    | some i => if (t.entries i).badge = b then some ((t.entries i).slot, (t.entries i).epoch) else none
    | none => none
  else none

/-- An entry and the count are written. -/
def write (i : ℕ) (e : BadgeEntry) (count : ℕ) : BadgeMap :=
  { t with entries := update t.entries i e, count := count }

def insert (slot epoch : ℕ) : Bool × BadgeMap :=
  if Storable b then
    match t.probe b fun x => x = b ∨ x = emptyBadge ∨ x = tombstoneBadge with
    | some i =>
      (true, t.write i ⟨b, slot, epoch⟩ (if (t.entries i).badge = b then t.count else t.count + 1))
    | none => (false, t)
  else (false, t)

def remove : Bool × BadgeMap :=
  if Storable b then
    match t.find b with
    | some i =>
      if (t.entries i).badge = b then (true, t.write i ⟨tombstoneBadge, 0, 0⟩ (t.count - 1))
      else (false, t)
    | none => (false, t)
  else (false, t)

/-- `len`. -/
def len : ℕ := t.count

/-! ## The loops -/

/-- The capacity is a power of two. -/
theorem and_mask (x : ℕ) :
  x &&& t.mask = x % t.cap
  := by
  obtain ⟨n, hn⟩ := t.cap_eq
  rw [t.mask_eq, hn, Nat.and_two_pow_sub_one_eq_mod]

theorem cap_pos :
  0 < t.cap
  := by
  obtain ⟨n, hn⟩ := t.cap_eq
  rw [hn]
  apply Nat.two_pow_pos

/-- The places of a badge follow its hash and wrap around. -/
theorem place_eq (k : ℕ) :
  t.place b k = (t.hash b + k) % t.cap
  := by
  induction k with
  | zero =>
    rw [place, iterate_zero, id, hash, and_mask, Nat.add_zero, Nat.mod_mod]
  | succ k ih =>
    rw [place, iterate_succ_apply', ← place, ih, and_mask, Nat.mod_add_mod, Nat.add_assoc]

theorem place_lt (k : ℕ) :
  t.place b k < t.cap
  := by
  rw [place_eq]
  apply Nat.mod_lt _ t.cap_pos

/-- Every place of the table is visited. -/
theorem exists_place {i : ℕ} (hi : i < t.cap) :
  ∃ k < t.cap, t.place b k = i
  := by
  have hhash : t.hash b < t.cap := by
    rw [hash, and_mask]
    apply Nat.mod_lt _ t.cap_pos
  by_cases hle : t.hash b ≤ i
  · refine ⟨i - t.hash b, by omega, ?_⟩
    rw [place_eq, Nat.add_sub_cancel' hle, Nat.mod_eq_of_lt hi]
  · refine ⟨i + t.cap - t.hash b, by omega, ?_⟩
    rw [place_eq, Nat.add_sub_cancel' (by omega), Nat.add_mod_right, Nat.mod_eq_of_lt hi]

section

variable {t b} {i j c : ℕ} {e : BadgeEntry} {stop stop' : ℕ → Prop} [DecidablePred stop]

@[grind =]
theorem entries_write :
  (t.write i e c).entries j = if j = i then e else t.entries j
  := update_apply t.entries i e j

@[grind =]
theorem cap_write :
  (t.write i e c).cap = t.cap
  := rfl

/-- A probe stops at the first place that it accepts. -/
theorem probe_eq_some :
  t.probe b stop = some i ↔ stop (t.entries i).badge ∧
    ∃ k < t.cap, t.place b k = i ∧ ∀ j < k, ¬stop (t.entries (t.place b j)).badge
  := by
  simp only [probe, List.find?_eq_some_iff_getElem, List.length_map, List.length_range, List.getElem_map,
    List.getElem_range, exists_prop, decide_eq_true_eq, Bool.not_eq_true', decide_eq_false_iff_not]

theorem probe_lt (h : t.probe b stop = some i) :
  i < t.cap
  := by
  obtain ⟨-, k, -, rfl, -⟩ := probe_eq_some.mp h
  apply place_lt

/-- A search after a write, which ends at fewer entries. -/
theorem probe_write [DecidablePred stop'] (h : t.probe b stop = some j)
    (hj : stop' ((t.write i e c).entries j).badge)
    (hless : ∀ x, stop' ((t.write i e c).entries x).badge → stop (t.entries x).badge) :
  (t.write i e c).probe b stop' = some j
  := by
  obtain ⟨-, k, hk, hplace, hbefore⟩ := probe_eq_some.mp h
  refine probe_eq_some.mpr ⟨hj, k, hk, hplace, ?_⟩
  intro l hl hstop
  apply hbefore l hl (hless _ hstop)

/-- A probe that finds nothing has seen every place. -/
theorem probe_eq_none (h : t.probe b stop = none) (hi : i < t.cap) :
  ¬stop (t.entries i).badge
  := by
  obtain ⟨k, hk, rfl⟩ := t.exists_place b hi
  simpa using List.find?_eq_none.mp h _ (List.mem_map_of_mem (List.mem_range.mpr hk))

end

/-- Whatever is in the table, the search for a badge ends at the entry that its insertion wrote. -/
theorem lookup_insert (slot epoch : ℕ) :
  (t.insert b slot epoch).2.lookup b =
    if (t.insert b slot epoch).1 then some (slot, epoch) else t.lookup b
  := by
  unfold insert
  split
  next hb =>
    split
    next i hp =>
      have hfind : ∀ c, (t.write i ⟨b, slot, epoch⟩ c).find b = some i := by
        have hstop := (probe_eq_some.mp hp).1
        intro c
        apply probe_write hp <;> grind
      simp [lookup, hb, hfind, entries_write]
    · rfl
  · rfl

/-! ## The map -/

variable {t b}

/-- The badges that a map has a value for. -/
def badges (m : ℕ → Option (ℕ × ℕ)) : Set ℕ := { b | (m b).isSome }

/-- A new badge is added to those that are known. -/
theorem badges_update_some {m : ℕ → Option (ℕ × ℕ)} {v : ℕ × ℕ} :
  badges (update m b (some v)) = Insert.insert b (badges m)
  := by
  ext x
  by_cases hx : x = b <;> simp [badges, hx]

/-- No tombstone stands before the entry of the badge. -/
def Clear (t : BadgeMap) (b : ℕ) : Prop :=
  ∀ k < t.cap, (t.entries (t.place b k)).badge = b →
    ∀ j < k, (t.entries (t.place b j)).badge ≠ tombstoneBadge

instance (t : BadgeMap) (b : ℕ) : Decidable (t.Clear b) :=
  inferInstanceAs (Decidable (∀ k < t.cap, _ → ∀ j < k, _))

/-- The table represents a map: the search for a stored badge ends at its entry, so no badge is stored
twice. -/
structure Represents (t : BadgeMap) (m : ℕ → Option (ℕ × ℕ)) : Prop where
  find : ∀ i < t.cap, Storable (t.entries i).badge → t.find (t.entries i).badge = some i
  value : ∀ b v, m b = some v ↔ Storable b ∧
    ∃ i < t.cap, (t.entries i).badge = b ∧ ((t.entries i).slot, (t.entries i).epoch) = v
  count : t.count = (badges m).ncard

/-- A new table is the empty map. -/
theorem represents_new (n : ℕ) :
  Represents (new n) fun _ => none
  := by
  constructor
  · intro i _ hi
    exact absurd rfl hi.1
  · intro b v
    constructor
    · rintro ⟨⟩
    rintro ⟨hb, i, _, rfl, _⟩
    exact absurd rfl hb.1
  · simp [badges, new]

namespace Represents

variable {m : ℕ → Option (ℕ × ℕ)} (h : Represents t m)
include h

/-- A lookup is the application of the map. -/
theorem lookup_eq (hb : Storable b) :
  t.lookup b = m b
  := by
  apply Option.ext
  intro v
  rw [h.value, lookup, if_pos hb]
  constructor
  · intro hv
    rcases hi : t.find b with _ | i <;> rw [hi] at hv
    · cases hv
    dsimp only at hv
    split_ifs at hv with heq
    exact ⟨hb, i, probe_lt hi, heq, Option.some.inj hv⟩
  · rintro ⟨-, i, hi, rfl, rfl⟩
    rw [h.find i hi hb]
    exact if_pos rfl

/-- The badges of the map are those in the entries. -/
theorem mem_badges :
  b ∈ badges m ↔ Storable b ∧ ∃ i < t.cap, (t.entries i).badge = b
  := by
  rw [badges, Set.mem_ofPred_eq, Option.isSome_iff_exists]
  simp only [h.value]
  constructor
  · rintro ⟨_, hb, i, hi, heq, _⟩
    exact ⟨hb, i, hi, heq⟩
  · rintro ⟨hb, i, hi, heq⟩
    exact ⟨_, hb, i, hi, heq, rfl⟩

theorem finite_badges :
  (badges m).Finite
  := by
  apply ((Set.finite_Iio t.cap).image fun i => (t.entries i).badge).subset
  intro b hb
  obtain ⟨-, i, hi, heq⟩ := h.mem_badges.mp hb
  exact ⟨i, hi, heq⟩

/-- One entry is written, which has the badge or is free, and no other entry has the badge. -/
theorem write {i c : ℕ} {e : BadgeEntry} (hi : i < t.cap)
    (hold : Storable (t.entries i).badge → (t.entries i).badge = b)
    (honly : ∀ j < t.cap, (t.entries j).badge = b → j = i)
    (he : e.badge = b ∧ (t.write i e c).find b = some i ∨
      e.badge = tombstoneBadge)
    (hb : Storable b)
    {v : Option (ℕ × ℕ)} (hv : v = if e.badge = b then some (e.slot, e.epoch) else none)
    (hc : c = (badges (update m b v)).ncard) :
  Represents (t.write i e c) (update m b v)
  := by
  -- what the written entry does to a search for another badge
  have hnew : ∀ x, x ≠ b → Storable x → e.badge ≠ x ∧ e.badge ≠ emptyBadge := by
    intro x hx hs
    obtain ⟨he, -⟩ | he := he <;> rw [he]
    · exact ⟨hx.symm, hb.1⟩
    · exact ⟨hs.2.symm, by decide⟩
  constructor
  · intro j hj hs
    by_cases hji : j = i
    · grind [Storable]
    rw [entries_write, if_neg hji] at hs ⊢
    have hjb : (t.entries j).badge ≠ b := fun heq => hji (honly j hj heq)
    apply probe_write (h.find j hj hs)
    · grind
    · grind
  · intro x w
    have hself : (t.write i e c).entries i = e := entries_write.trans (if_pos rfl)
    by_cases hx : x = b
    · grind
    · rw [update_of_ne hx, h.value]
      apply and_congr_right
      intro hs
      apply exists_congr
      grind
  · exact hc

/-- An insertion, of a badge that is not stored behind a tombstone. -/
theorem insert (hb : Storable b) (hclear : t.Clear b) (slot epoch : ℕ) :
  Represents (t.insert b slot epoch).2
    (if (t.insert b slot epoch).1 then update m b (some (slot, epoch)) else m)
  := by
  rw [BadgeMap.insert, if_pos hb]
  rcases hp : t.probe b fun x => x = b ∨ x = emptyBadge ∨ x = tombstoneBadge with _ | i
  · exact h
  obtain ⟨hstop, -⟩ := probe_eq_some.mp hp
  have honly : ∀ j < t.cap, (t.entries j).badge = b → j = i := by
    rintro j hj rfl
    obtain ⟨-, l, hl, hplace, hempty⟩ := probe_eq_some.mp (h.find j hj hb)
    apply Option.some.inj
    rw [← hp, eq_comm]
    refine probe_eq_some.mpr ⟨.inl rfl, l, hl, hplace, ?_⟩
    rintro x hx (heq | heq | heq)
    · exact hempty x hx (.inl heq)
    · exact hempty x hx (.inr heq)
    · exact hclear l hl (by rw [hplace]) x hx heq
  apply h.write (probe_lt hp) ?_ honly (.inl ⟨rfl, ?_⟩) hb (if_pos rfl).symm ?_
  · intro hs
    obtain heq | heq | heq := hstop
    · exact heq
    · exact absurd heq hs.1
    · exact absurd heq hs.2
  · apply probe_write hp
    · grind
    · grind
  · rw [badges_update_some]
    split_ifs with heq
    · rw [Set.insert_eq_of_mem (h.mem_badges.mpr ⟨hb, i, probe_lt hp, heq⟩), h.count]
    rw [Set.ncard_insert_of_notMem _ h.finite_badges, h.count]
    intro hmem
    obtain ⟨-, j, hj, hjb⟩ := h.mem_badges.mp hmem
    exact heq (honly j hj hjb ▸ hjb)

/-- A removal is an update of the map. -/
theorem remove (hb : Storable b) :
  Represents (t.remove b).2 (update m b none)
  := by
  have habsent : t.lookup b = none → Represents t (update m b none) := by
    intro hnone
    rwa [← hnone, h.lookup_eq hb, update_eq_self]
  rw [lookup, if_pos hb] at habsent
  rw [BadgeMap.remove, if_pos hb]
  rcases hf : t.find b with _ | i <;> rw [hf] at habsent
  · exact habsent rfl
  dsimp only at habsent ⊢
  split_ifs at habsent ⊢ with heq
  · apply h.write (probe_lt hf) (fun _ => heq) ?_ (.inr rfl) hb (if_neg hb.2.symm).symm ?_
    · rintro j hj rfl
      exact Option.some.inj ((h.find j hj hb).symm.trans hf)
    · have hdiff : badges (update m b none) = badges m \ {b} := by
        ext x
        by_cases hx : x = b <;> simp [badges, hx]
      rw [hdiff, Set.ncard_sdiff_singleton_of_mem (h.mem_badges.mpr ⟨hb, i, probe_lt hf, heq⟩), h.count]
  · exact habsent rfl

/-- An insertion fails only if every entry has a badge of its own. -/
theorem ncard_of_insert (hb : Storable b) {slot epoch : ℕ} (hfull : (t.insert b slot epoch).1 = false) :
  (badges m).ncard = t.cap
  := by
  rw [BadgeMap.insert, if_pos hb] at hfull
  rcases hp : t.probe b fun x => x = b ∨ x = emptyBadge ∨ x = tombstoneBadge with _ | i <;>
    rw [hp] at hfull
  swap
  · cases hfull
  have hused : ∀ i < t.cap, Storable (t.entries i).badge := by
    intro i hi
    exact ⟨fun heq => probe_eq_none hp hi (.inr (.inl heq)), fun heq => probe_eq_none hp hi (.inr (.inr heq))⟩
  have himage : badges m = (fun i => (t.entries i).badge) '' Set.Iio t.cap := by
    ext x
    rw [h.mem_badges]
    constructor
    · rintro ⟨-, i, hi, heq⟩
      exact ⟨i, hi, heq⟩
    · rintro ⟨i, hi, rfl⟩
      exact ⟨hused i hi, i, hi, rfl⟩
  rw [himage, Set.InjOn.ncard_image, Set.ncard_Iio_nat]
  intro i hi j hj heq
  apply Option.some.inj
  rw [← h.find i hi (hused i hi), ← h.find j hj (hused j hj)]
  exact congrArg t.find heq

end Represents

/-! ## Runs -/

/-- One operation on the table and on the map it stands for, an insertion under a condition. -/
def Step (ok : BadgeMap → ℕ → Prop) (x y : BadgeMap × (ℕ → Option (ℕ × ℕ))) : Prop :=
  ∃ b, Storable b ∧
    ((ok x.1 b ∧ ∃ slot epoch, y = ((x.1.insert b slot epoch).2,
      if (x.1.insert b slot epoch).1 then update x.2 b (some (slot, epoch)) else x.2)) ∨
    y = ((x.1.remove b).2, update x.2 b none))

section

variable {ok : BadgeMap → ℕ → Prop} {x : BadgeMap × (ℕ → Option (ℕ × ℕ))}

theorem step_insert (slot epoch : ℕ) (hok : ok x.1 b) (hb : Storable b) :
  Step ok x ((x.1.insert b slot epoch).2,
    if (x.1.insert b slot epoch).1 then update x.2 b (some (slot, epoch)) else x.2)
  := ⟨b, hb, .inl ⟨hok, slot, epoch, rfl⟩⟩

theorem step_remove (hb : Storable b) :
  Step ok x ((x.1.remove b).2, update x.2 b none)
  := ⟨b, hb, .inr rfl⟩

end

/-- In every run that inserts no badge stored behind a tombstone, the table is a finite map. -/
theorem finite_map_of_clear_run {n : ℕ} {t : BadgeMap} {m : ℕ → Option (ℕ × ℕ)}
    (h : Relation.ReflTransGen (Step Clear) (new n, fun _ => none) (t, m)) :
  (∀ b, Storable b → t.lookup b = m b) ∧ t.len = (badges m).ncard ∧
    ∀ b slot epoch, Storable b → (t.insert b slot epoch).1 = false → (badges m).ncard = t.cap
  := by
  have ht : Represents t m := by
    refine invariant_of_run (I := fun x => Represents x.1 x.2) ?_ (represents_new n) h
    rintro ⟨t, m⟩ _ h ⟨b, hb, ⟨hclear, slot, epoch, rfl⟩ | rfl⟩
    · exact h.insert hb hclear slot epoch
    · exact h.remove hb
  exact ⟨fun b hb => ht.lookup_eq hb, ht.count, fun b slot epoch hb => ht.ncard_of_insert hb⟩

/-- In a table of 16 entries, the badges 1 and 375 have the same first place. The second is inserted,
updated, removed and inserted again behind the first; then the first is removed and inserted again. -/
theorem finite_map_of_clear_run_reinserted :
  ∃ t m, Relation.ReflTransGen (Step Clear) (new 4, fun _ => none) (t, m) ∧ t.lookup 1 = some (5, 0) ∧
    t.lookup 375 = some (4, 0) ∧ t.lookup 2 = none ∧ t.len = (badges m).ncard
  := by
  have hfirst : Step Clear (new 4, fun _ => none) _ :=
    step_insert (b := 1) 1 0 (by decide +kernel) (by decide)
  have hsecond := (Relation.ReflTransGen.single hfirst).tail
    (step_insert (b := 375) 2 0 (by decide +kernel) (by decide))
  have hupdate := hsecond.tail (step_insert (b := 375) 3 0 (by decide +kernel) (by decide))
  have hagain := (hupdate.tail (step_remove (b := 375) (by decide))).tail
    (step_insert (b := 375) 4 0 (by decide +kernel) (by decide))
  have hrun := (hagain.tail (step_remove (b := 1) (by decide))).tail
    (step_insert (b := 1) 5 0 (by decide +kernel) (by decide))
  obtain ⟨hlookup, hlen, -⟩ := finite_map_of_clear_run hrun
  exact ⟨_, _, hrun, hlookup 1 (by decide), hlookup 375 (by decide), hlookup 2 (by decide), hlen⟩

/-- The badges 1 and 375 have the same first place. The second is inserted again after the removal of the
first, removed, and still found. -/
theorem lookup_after_remove :
  ∃ t m, Relation.ReflTransGen (Step fun _ _ => True) (new 8, fun _ => none) (t, m) ∧
    m 375 = none ∧ t.lookup 375 = some (2, 0)
  := by
  refine ⟨_, _, .tail (.tail (.tail (.tail (.single ⟨1, by decide, .inl ⟨trivial, 1, 0, rfl⟩⟩)
    ⟨375, by decide, .inl ⟨trivial, 2, 0, rfl⟩⟩) ⟨1, by decide, .inr rfl⟩)
    ⟨375, by decide, .inl ⟨trivial, 3, 0, rfl⟩⟩) ⟨375, by decide, .inr rfl⟩, rfl, ?_⟩
  decide

end BadgeMap

end SaltyOS.Vfs
