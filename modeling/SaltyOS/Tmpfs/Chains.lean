import Mathlib.Data.List.GetD
import Mathlib.Data.List.Perm.Subperm
import Mathlib.Order.Nat
import SaltyOS.Lib.Chain
import SaltyOS.Tmpfs.Pool

/-!
# Chains of blocks

The blocks of a file are a chain. Writing makes the chain longer and changes no block of another
chain, truncation cuts the chain, and what is read are the bytes of the blocks one after the other.
-/

namespace SaltyOS.Tmpfs

open Function List

namespace WritablePool

variable {P Q R : WritablePool} {head i j : ℕ} {L M : List ℕ}
variable {k off fuel : ℕ} {src : List Byte}

/-- There are blocks, and the number of each one is not that of the end of a chain. -/
structure Ok (P : WritablePool) : Prop where
  pos : 0 < P.cap
  le : P.cap ≤ invalidSlot

theorem ok_init :
  init.Ok
  := ⟨by decide, by decide⟩

/-- The blocks of a chain. -/
structure Valid (P : WritablePool) (head : ℕ) (L : List ℕ) : Prop where
  chain : Chain P.next invalidSlot head L
  lt : ∀ i ∈ L, i < P.cap
  used : ∀ i ∈ L, P.used i = true

/-- The blocks in use are unchanged, apart from those of a list. -/
structure Frame (P Q : WritablePool) (L : List ℕ) : Prop where
  ok : Q.Ok
  cap_le : P.cap ≤ Q.cap
  used : ∀ i < P.cap, P.used i = true → i ∉ L → Q.used i = true
  next : ∀ i < P.cap, P.used i = true → i ∉ L → Q.next i = P.next i
  data : ∀ i < P.cap, P.used i = true → i ∉ L → Q.data i = P.data i

theorem Frame.refl (hP : P.Ok) (L : List ℕ) :
  Frame P P L
  := ⟨hP, le_rfl, fun _ _ h _ => h, fun _ _ _ _ => rfl, fun _ _ _ _ => rfl⟩

/-- Two changes one after the other. The second one may change blocks that the first one put into
use. -/
theorem Frame.trans (h : Frame P Q L) (h' : Frame Q R M)
    (hM : ∀ i ∈ M, i ∉ L → i < P.cap → P.used i = false) :
  Frame P R L
  := by
  have hnot : ∀ i < P.cap, P.used i = true → i ∉ L → i ∉ M := by
    intro i hi hused hL hmem
    rw [hM i hmem hL hi] at hused
    cases hused
  refine ⟨h'.ok, h.cap_le.trans h'.cap_le, ?_, ?_, ?_⟩
  · intro i hi hused hL
    exact h'.used i (hi.trans_le h.cap_le) (h.used i hi hused hL) (hnot i hi hused hL)
  · intro i hi hused hL
    rw [h'.next i (hi.trans_le h.cap_le) (h.used i hi hused hL) (hnot i hi hused hL)]
    exact h.next i hi hused hL
  · intro i hi hused hL
    rw [h'.data i (hi.trans_le h.cap_le) (h.used i hi hused hL) (hnot i hi hused hL)]
    exact h.data i hi hused hL

/-- A chain that has no block in common with the list is still a chain. -/
theorem Valid.of_frame (hM : P.Valid head M) (h : Frame P Q L) (hdisjoint : ∀ i ∈ M, i ∉ L) :
  Q.Valid head M ∧ ∀ i ∈ M, Q.data i = P.data i
  := by
  refine ⟨⟨?_, ?_, ?_⟩, ?_⟩
  · apply hM.chain.congr
    intro i hi
    exact h.next i (hM.lt i hi) (hM.used i hi) (hdisjoint i hi)
  · exact fun i hi => (hM.lt i hi).trans_le h.cap_le
  · exact fun i hi => h.used i (hM.lt i hi) (hM.used i hi) (hdisjoint i hi)
  · exact fun i hi => h.data i (hM.lt i hi) (hM.used i hi) (hdisjoint i hi)

theorem Valid.ne_nil (h : P.Valid head L) (hhead : head ≠ invalidSlot) :
  L ≠ []
  := by
  rintro rfl
  exact hhead h.chain

theorem Valid.nil_iff (h : P.Valid head L) :
  head = invalidSlot ↔ L = []
  := by
  constructor
  · intro hhead
    cases L with
    | nil => rfl
    | cons i L => exact absurd (h.chain.1.symm.trans hhead) h.chain.2.1
  · rintro rfl
    exact h.chain

/-- The first block of a chain and the rest. -/
theorem Valid.cons (h : P.Valid head (i :: L)) :
  head = i ∧ i ≠ invalidSlot ∧ i < P.cap ∧ P.Valid (P.next i) L
  := by
  obtain ⟨rfl, hne, htail⟩ := h.chain
  refine ⟨rfl, hne, h.lt head mem_cons_self, htail, ?_, ?_⟩
  · exact fun k hk => h.lt k (mem_cons_of_mem _ hk)
  · exact fun k hk => h.used k (mem_cons_of_mem _ hk)

/-- No chain has more blocks than there are. -/
theorem Valid.length_le (h : P.Valid head L) :
  L.length ≤ P.cap
  := by
  have hsub : L ⊆ range P.cap := fun i hi => mem_range.mpr (h.lt i hi)
  have hle := (h.chain.nodup.subperm hsub).length_le
  rwa [length_range] at hle

theorem Valid.nil (P : WritablePool) :
  P.Valid invalidSlot []
  := by
  refine ⟨rfl, ?_, ?_⟩
  · intro i hi
    cases hi
  · intro i hi
    cases hi

/-! ## The bytes of a chain -/

/-- A byte of the blocks of a list. -/
def byte (P : WritablePool) (L : List ℕ) (k : ℕ) : Byte :=
  P.data (L.getD (k / writableSize) 0) (k % writableSize)

theorem writableSize_pos :
  0 < writableSize
  := by decide

theorem div_lt_length (hk : k < writableSize * L.length) :
  k / writableSize < L.length
  := Nat.div_lt_of_lt_mul hk

theorem getD_mem (hk : k < writableSize * L.length) :
  L.getD (k / writableSize) 0 ∈ L
  := by
  have hlt := div_lt_length hk
  rw [getD_eq_getElem _ _ hlt]
  exact getElem_mem hlt

theorem byte_congr (hdata : ∀ i ∈ L, Q.data i = P.data i) (hk : k < writableSize * L.length) :
  Q.byte L k = P.byte L k
  := by
  unfold byte
  rw [hdata _ (getD_mem hk)]

/-- The bytes of the first blocks of a longer list. -/
theorem byte_append (hk : k < writableSize * L.length) (M : List ℕ) :
  P.byte (L ++ M) k = P.byte L k
  := by
  unfold byte
  rw [getD_append _ _ _ _ (div_lt_length hk)]

/-! ## Allocation -/

theorem findFree_spec (h : P.findFree = some i) :
  i < P.cap ∧ P.used i = false
  := by
  have hmem := mem_range.mp (mem_of_find?_eq_some h)
  have hfree := find?_some h
  exact ⟨hmem, by simpa using hfree⟩

theorem growth_pos {cap : ℕ} (h : 0 < cap) :
  0 < growth cap
  := by
  unfold growth
  split_ifs
  · exact h
  · omega
  · decide

/-- The pool does not grow, or the blocks it had are unchanged. -/
theorem frame_growWritablePool (hP : P.Ok) :
  Frame P P.growWritablePool.1 []
  := by
  unfold growWritablePool
  split_ifs with hlimit
  · exact Frame.refl hP []
  · exact ⟨⟨hP.pos, hP.le⟩, le_rfl, fun _ _ h _ => h, fun _ _ _ _ => rfl, fun _ _ _ _ => rfl⟩
  · exact ⟨⟨hP.pos, hP.le⟩, le_rfl, fun _ _ h _ => h, fun _ _ _ _ => rfl, fun _ _ _ _ => rfl⟩
  · exact ⟨⟨hP.pos, hP.le⟩, le_rfl, fun _ _ h _ => h, fun _ _ _ _ => rfl, fun _ _ _ _ => rfl⟩
  refine ⟨⟨Nat.add_pos_left hP.pos _, ?_⟩, Nat.le_add_right _ _, ?_, ?_, ?_⟩
  · exact Nat.le_of_not_lt fun hlt => hlimit (.inr hlt)
  · intro i hi hused _
    exact (if_pos hi).trans hused
  · intro i hi _ _
    exact if_pos hi
  · intro i hi _ _
    exact if_pos hi

/-- A free block is put into use. -/
theorem frame_claim (hP : P.Ok) (hi : P.used i = false) :
  Frame P (P.claim i) []
  := by
  have hne : ∀ j, P.used j = true → j ≠ i := by
    rintro j hj rfl
    rw [hi] at hj
    cases hj
  refine ⟨⟨hP.pos, hP.le⟩, le_rfl, ?_, ?_, ?_⟩
  · intro j _ hused _
    exact (update_of_ne (hne j hused) _ _).trans hused
  · intro j _ hused _
    exact update_of_ne (hne j hused) _ _
  · intro j _ hused _
    exact update_of_ne (hne j hused) _ _

/-- A block that was just allocated: it was not in use, it is in use now, it is the last one of a
chain, and it holds zeros. -/
structure New (P Q : WritablePool) (j : ℕ) : Prop where
  lt : j < Q.cap
  free : j < P.cap → P.used j = false
  used : Q.used j = true
  next : Q.next j = invalidSlot
  data : Q.data j = fun _ => 0

theorem new_claim (hi : i < P.cap) (hfree : P.used i = false) :
  New P (P.claim i) i
  := ⟨hi, fun _ => hfree, update_self .., update_self .., update_self ..⟩

/-- `alloc_writable` changes no block that is in use. -/
theorem allocWritable_spec (hP : P.Ok) :
  Frame P P.allocWritable.1 [] ∧ ∀ j, P.allocWritable.2 = some j → New P P.allocWritable.1 j
  := by
  unfold allocWritable
  cases hfind : P.findFree with
  | some i =>
    obtain ⟨hi, hfree⟩ := findFree_spec hfind
    use frame_claim hP hfree
    intro j hj
    cases hj
    exact new_claim hi hfree
  | none =>
    have hgrow := frame_growWritablePool hP
    split_ifs
    · rcases hfind' : P.growWritablePool.1.findFree with _ | i
      · exact ⟨hgrow, fun j hj => by cases hj⟩
      obtain ⟨hi, hfree⟩ := findFree_spec hfind'
      have hclaim := frame_claim hgrow.ok hfree
      use hgrow.trans hclaim nofun
      intro j hj
      cases hj
      have hnew := new_claim hi hfree
      refine ⟨hnew.lt, ?_, hnew.used, hnew.next, hnew.data⟩
      intro hlt
      by_contra hused
      rw [hgrow.used i hlt (by simpa using hused) (by simp)] at hfree
      cases hfree
    · exact ⟨hgrow, fun j hj => by cases hj⟩

/-! ## Longer chains -/

/-- The pool after a chain got more blocks. The other blocks in use are unchanged, and the new ones
were not in use. -/
structure Extends (P : WritablePool) (head : ℕ) (L : List ℕ) (Q : WritablePool) (M : List ℕ) :
    Prop where
  frame : Frame P Q L
  valid : Q.Valid head M
  longer : ∃ N, M = L ++ N
  fresh : ∀ i ∈ M, i ∉ L → i < P.cap → P.used i = false

/-- The chain stays the same. -/
theorem Extends.of_frame (h : Frame P Q L) (hL : Q.Valid head L) :
  Extends P head L Q L
  := ⟨h, hL, ⟨[], (append_nil L).symm⟩, fun _ hi hnot _ => absurd hi hnot⟩

theorem Extends.refl (hP : P.Ok) (hL : P.Valid head L) :
  Extends P head L P L
  := .of_frame (Frame.refl hP L) hL

theorem Extends.trans {N : List ℕ} (h : Extends P head L Q M) (h' : Extends Q head M R N) :
  Extends P head L R N
  := by
  obtain ⟨X, rfl⟩ := h.longer
  obtain ⟨Y, rfl⟩ := h'.longer
  have hsub : ∀ i ∈ L ++ X, i ∉ L → i < P.cap → P.used i = false := h.fresh
  use h.frame.trans h'.frame hsub, h'.valid, ⟨X ++ Y, append_assoc L X Y⟩
  intro i hi hnot hlt
  by_cases hmem : i ∈ L ++ X
  · exact h.fresh i hmem hnot hlt
  by_contra hused
  have hQ := h'.fresh i hi hmem (hlt.trans_le h.frame.cap_le)
  rw [h.frame.used i hlt (by simpa using hused) hnot] at hQ
  cases hQ

/-- The bytes of a chain after a change: some are new, the others are what they were, and there are
zeros in the new blocks. -/
def Holds (P : WritablePool) (L : List ℕ) (Q : WritablePool) (M : List ℕ) (f : ℕ → Option Byte) :
    Prop :=
  ∀ k < writableSize * M.length,
    Q.byte M k = (f k).getD (if k < writableSize * L.length then P.byte L k else 0)

/-- The new bytes if a list is written at a position. -/
def patch (start : ℕ) (src : List Byte) (k : ℕ) : Option Byte :=
  if start ≤ k then src[k - start]? else none

theorem patch_nil (start : ℕ) :
  patch start [] = fun _ => none
  := by
  funext k
  simp [patch]

/-- A list is written in two parts. -/
theorem patch_append (start : ℕ) (a b : List Byte) (k : ℕ) :
  (patch (start + a.length) b k).or (patch start a k) = patch start (a ++ b) k
  := by
  unfold patch
  by_cases hlt : k < start + a.length
  · rw [if_neg (Nat.not_le.mpr hlt), Option.none_or]
    split_ifs
    · rw [List.getElem?_append_left (by omega)]
    · rfl
  · rw [if_pos (Nat.le_of_not_lt hlt), if_pos (by omega), if_pos (by omega),
      List.getElem?_append_right (by omega), List.getElem?_eq_none (by omega : a.length ≤ k - start),
      Option.or_none]
    congr 1
    omega

theorem patch_eq_none {start : ℕ} (h : start + src.length ≤ k) :
  patch start src k = none
  := by
  unfold patch
  split_ifs
  · apply List.getElem?_eq_none
    omega
  · rfl

theorem Holds.refl (P : WritablePool) (L : List ℕ) :
  Holds P L P L fun _ => none
  := by
  intro k hk
  rw [if_pos hk]
  rfl

/-- Two changes one after the other. -/
theorem Holds.trans {N : List ℕ} {f g : ℕ → Option Byte} (h : Holds P L Q M f)
    (h' : Holds Q M R N g) (hlen : L.length ≤ M.length)
    (hf : ∀ k, writableSize * M.length ≤ k → f k = none) :
  Holds P L R N fun k => (g k).or (f k)
  := by
  intro k hk
  dsimp only
  rw [h' k hk]
  cases hg : g k with
  | some x => rfl
  | none =>
    rw [Option.none_or]
    change (if k < writableSize * M.length then Q.byte M k else 0) = _
    split_ifs with hM hL hL
    · rw [h k hM, if_pos hL]
    · rw [h k hM, if_neg hL]
    · exact absurd (hL.trans_le (Nat.mul_le_mul_left _ hlen)) hM
    · rw [hf k (Nat.le_of_not_lt hM)]
      rfl

theorem Extends.length_le (h : Extends P head L Q M) :
  L.length ≤ M.length
  := by
  obtain ⟨N, rfl⟩ := h.longer
  rw [length_append]
  exact Nat.le_add_right _ _

theorem Frame.mono (h : Frame P Q L) (hsub : ∀ i ∈ L, i ∈ M) :
  Frame P Q M
  := by
  refine ⟨h.ok, h.cap_le, ?_, ?_, ?_⟩
  · exact fun i hi hused hM => h.used i hi hused fun hL => hM (hsub i hL)
  · exact fun i hi hused hM => h.next i hi hused fun hL => hM (hsub i hL)
  · exact fun i hi hused hM => h.data i hi hused fun hL => hM (hsub i hL)

/-- A link of a block of the chain changes. -/
theorem frame_setNext (hP : P.Ok) (hi : i ∈ L) (j : ℕ) :
  Frame P (P.setNext i j) L
  := by
  refine ⟨⟨hP.pos, hP.le⟩, le_rfl, fun _ _ h _ => h, ?_, fun _ _ _ _ => rfl⟩
  intro k _ _ hk
  apply update_of_ne
  rintro rfl
  exact hk hi

/-- The bytes of a block of the chain change. -/
theorem frame_blit (hP : P.Ok) (hi : i ∈ L) (off : ℕ) (bytes : List Byte) :
  Frame P (P.blit i off bytes) L
  := by
  use ⟨hP.pos, hP.le⟩, le_rfl, fun _ _ h _ => h, fun _ _ _ _ => rfl
  intro k _ _ hk
  apply update_of_ne
  rintro rfl
  exact hk hi

theorem extends_blit (hP : P.Ok) (hL : P.Valid head L) (hi : i ∈ L) (off : ℕ) (bytes : List Byte) :
  Extends P head L (P.blit i off bytes) L
  := .of_frame (frame_blit hP hi off bytes) ⟨hL.chain, hL.lt, hL.used⟩

/-- The bytes of a chain after some bytes of a block were replaced. -/
theorem holds_blit (hL : L.Nodup) (hj : L[j]? = some i) {bytes : List Byte}
    (hfit : off + bytes.length ≤ writableSize) :
  Holds P L (P.blit i off bytes) L (patch (writableSize * j + off) bytes)
  := by
  intro k hk
  have hdecomp := Nat.div_add_mod k writableSize
  have hmod := Nat.mod_lt k writableSize_pos
  have hlt := div_lt_length hk
  rw [if_pos hk]
  unfold byte
  by_cases hblock : k / writableSize = j
  · have hget : L.getD (k / writableSize) 0 = i := by
      rw [getD_eq_getElem?_getD, hblock, hj]
      rfl
    rw [hget]
    have hblit : (P.blit i off bytes).data i (k % writableSize) =
        if off ≤ k % writableSize ∧ k % writableSize < off + bytes.length then
          bytes.getD (k % writableSize - off) 0 else P.data i (k % writableSize) := by
      unfold blit
      dsimp only
      rw [update_self]
    rw [hblit]
    rw [hblock] at hdecomp
    unfold patch
    split_ifs with hin hle hle
    · have hoff : k - (writableSize * j + off) = k % writableSize - off := by omega
      have hlen : k % writableSize - off < bytes.length := by omega
      rw [hoff, getD_eq_getElem _ _ hlen, List.getElem?_eq_getElem hlen]
      rfl
    · omega
    · rw [List.getElem?_eq_none (by omega)]
      rfl
    · rfl
  · have hne : L.getD (k / writableSize) 0 ≠ i := by
      rw [getD_eq_getElem _ _ hlt]
      intro heq
      apply hblock
      obtain ⟨hjlt, hji⟩ := List.getElem?_eq_some_iff.mp hj
      exact (List.Nodup.getElem_inj_iff hL).mp (heq.trans hji.symm)
    have hblit : (P.blit i off bytes).data (L.getD (k / writableSize) 0) =
        P.data (L.getD (k / writableSize) 0) := update_of_ne hne _ _
    rw [hblit]
    have hnone : patch (writableSize * j + off) bytes k = none := by
      unfold patch
      split_ifs with hle
      · apply List.getElem?_eq_none
        have hgt : j < k / writableSize := by
          obtain hlt' | hgt := Nat.lt_or_gt_of_ne hblock
          · have hmul := Nat.mul_le_mul_left writableSize (Nat.succ_le_of_lt hlt')
            rw [Nat.mul_succ] at hmul
            omega
          · exact hgt
        have hmul := Nat.mul_le_mul_left writableSize (Nat.succ_le_of_lt hgt)
        rw [Nat.mul_succ] at hmul
        omega
      · rfl
    rw [hnone]
    rfl

/-- The block after a block of a chain, which may get one more block. -/
theorem advance_spec (hP : P.Ok) (hL : P.Valid head L) (hj : L[j]? = some i) :
  ∃ M, Extends P head L (P.advance i).1 M ∧ Holds P L (P.advance i).1 M (fun _ => none) ∧
    ∀ i', (P.advance i).2 = some i' → M[j + 1]? = some i'
  := by
  have hi : i ∈ L := mem_of_getElem? hj
  have hnext := hL.chain.next_eq hj
  unfold advance
  cases hn : L[j + 1]? with
  | some y =>
    have hy : y ∈ L := mem_of_getElem? hn
    rw [hn, Option.getD_some] at hnext
    have hin : ¬(P.next i = invalidSlot ∨ P.cap ≤ P.next i) := by
      rw [hnext]
      exact not_or.mpr ⟨hL.chain.ne_null hy, Nat.not_le.mpr (hL.lt y hy)⟩
    rw [if_neg hin]
    use L, Extends.refl hP hL, Holds.refl P L
    intro i' hi'
    rw [hn, ← hnext]
    exact hi'
  | none =>
    rw [hn, Option.getD_none] at hnext
    rw [if_pos (.inl hnext)]
    obtain ⟨hframe, hnew⟩ := allocWritable_spec hP
    obtain ⟨hvalid, hdata⟩ := hL.of_frame hframe fun _ _ => not_mem_nil
    cases halloc : P.allocWritable.2 with
    | none =>
      refine ⟨L, .of_frame (hframe.mono nofun) hvalid, ?_, ?_⟩
      · intro k hk
        rw [if_pos hk]
        exact byte_congr hdata hk
      · intro i' hi'
        cases hi'
    | some y =>
      obtain ⟨hjlt, -⟩ := List.getElem?_eq_some_iff.mp hj
      have hlast : j + 1 = L.length := by
        have hle := List.getElem?_eq_none_iff.mp hn
        omega
      have hy := hnew y halloc
      have hyL : y ∉ L := by
        intro hmem
        have hused := hL.used y hmem
        rw [hy.free (hL.lt y hmem)] at hused
        cases hused
      have hyi : y ≠ i := fun heq => hyL (heq ▸ hi)
      refine ⟨L ++ [y], ⟨?_, ⟨?_, ?_, ?_⟩, ⟨[y], rfl⟩, ?_⟩, ?_, ?_⟩
      · exact (hframe.mono nofun).trans (frame_setNext hframe.ok hi y) fun k hk hnot _ => absurd hk hnot
      · apply hvalid.chain.concat hj hlast
        · exact Nat.ne_of_lt (hy.lt.trans_le hframe.ok.le)
        · exact update_self ..
        · exact (update_of_ne hyi _ _).trans hy.next
        · exact fun w _ hw => update_of_ne hw _ _
      · exact forall_mem_append.mpr ⟨hvalid.lt, forall_mem_singleton.mpr hy.lt⟩
      · exact forall_mem_append.mpr ⟨hvalid.used, forall_mem_singleton.mpr hy.used⟩
      · refine forall_mem_append.mpr ⟨?_, forall_mem_singleton.mpr fun _ => hy.free⟩
        exact fun k hk hnot _ => absurd hk hnot
      · intro k hk
        split_ifs with hold
        · rw [byte_append hold]
          exact byte_congr hdata hold
        -- The byte is in the new block.
        have hblock : k / writableSize = L.length := by
          rw [length_append, length_singleton, Nat.mul_add, Nat.mul_one] at hk
          apply Nat.div_eq_of_lt_le
          · rw [Nat.mul_comm]
            exact Nat.le_of_not_lt hold
          · rw [Nat.succ_mul, Nat.mul_comm]
            exact hk
        unfold byte
        rw [hblock, getD_append_right _ _ _ _ le_rfl, Nat.sub_self]
        change P.allocWritable.1.data y _ = 0
        rw [hy.data]
      · intro i' hi'
        cases hi'
        rw [hlast, List.getElem?_append_right le_rfl, Nat.sub_self]
        rfl

/-- The block after some blocks of a chain, which may get more blocks. -/
theorem advanceBy_spec (hP : P.Ok) (hL : P.Valid head L) (hj : L[j]? = some i) (n : ℕ) :
  ∃ M, Extends P head L (P.advanceBy i n).1 M ∧ Holds P L (P.advanceBy i n).1 M (fun _ => none) ∧
    ∀ i', (P.advanceBy i n).2 = some i' → M[j + n]? = some i'
  := by
  induction n generalizing P i j L with
  | zero =>
    use L, Extends.refl hP hL, Holds.refl P L
    intro i' hi'
    cases hi'
    exact hj
  | succ n ih =>
    obtain ⟨M, hM, hholds, hnext⟩ := advance_spec hP hL hj
    unfold advanceBy
    cases hadvance : (P.advance i).2 with
    | none =>
      use M, hM, hholds
      intro i' hi'
      cases hi'
    | some i' =>
      obtain ⟨N, hN, hholds', hnext'⟩ := ih hM.frame.ok hM.valid (hnext i' hadvance)
      refine ⟨N, hM.trans hN, ?_, ?_⟩
      · exact hholds.trans hholds' hM.length_le fun _ _ => rfl
      intro y hy
      rw [Nat.add_comm n 1, ← Nat.add_assoc]
      exact hnext' y hy

/-- The first bytes of a list were written to a chain, which may have got more blocks. Some byte was
written, if there was one. -/
def Wrote (P : WritablePool) (head : ℕ) (L : List ℕ) (start : ℕ) (src : List Byte)
    (r : WritablePool × ℕ) : Prop :=
  ∃ M, Extends P head L r.1 M ∧ Holds P L r.1 M (patch start (src.take r.2)) ∧
    r.2 ≤ src.length ∧ start + r.2 ≤ writableSize * M.length ∧ (src ≠ [] → 0 < r.2)

theorem wrote_nothing (hP : P.Ok) (hL : P.Valid head L) {start : ℕ}
    (hstart : start ≤ writableSize * L.length) :
  Wrote P head L start [] (P, 0)
  := by
  refine ⟨L, Extends.refl hP hL, ?_, le_rfl, hstart, fun hne => absurd rfl hne⟩
  rw [take_nil, patch_nil]
  exact Holds.refl P L

theorem start_le (hj : L[j]? = some i) (hoff : off ≤ writableSize) :
  writableSize * j + off ≤ writableSize * L.length
  := by
  obtain ⟨hjlt, -⟩ := List.getElem?_eq_some_iff.mp hj
  have hroom := Nat.mul_le_mul_left writableSize (Nat.succ_le_of_lt hjlt)
  rw [Nat.mul_succ] at hroom
  omega

/-- The loop of `chain_write` writes the first bytes of the source. -/
theorem wrote_writeLoop (hP : P.Ok) (hL : P.Valid head L) (hj : L[j]? = some i)
    (hoff : off < writableSize) (hfuel : src.length ≤ fuel) :
  Wrote P head L (writableSize * j + off) src (P.writeLoop fuel i off src)
  := by
  induction fuel generalizing P i j off src L with
  | zero =>
    obtain rfl := eq_nil_of_length_eq_zero (Nat.le_zero.mp hfuel)
    exact wrote_nothing hP hL (start_le hj hoff.le)
  | succ fuel ih =>
    have hi : i ∈ L := mem_of_getElem? hj
    unfold writeLoop
    split_ifs with hnone hfits
    · obtain rfl := hnone.resolve_right (Nat.not_le.mpr (hL.lt i hi))
      exact wrote_nothing hP hL (start_le hj hoff.le)
    · have hsrc : src ≠ [] := fun hsrc => hnone (.inl hsrc)
      have hroom := start_le hj (by omega : off + src.length ≤ writableSize)
      refine ⟨L, extends_blit hP hL hi off src, ?_, le_rfl, ?_, fun _ => ?_⟩
      · rw [take_length]
        exact holds_blit hL.chain.nodup hj (by omega)
      · rw [Nat.add_assoc]
        exact hroom
      · exact length_pos_iff.mpr hsrc
    · have hlen : (src.take (writableSize - off)).length = writableSize - off := by
        rw [length_take]
        omega
      have hend : writableSize * (j + 1) = writableSize * j + off + (writableSize - off) := by
        rw [Nat.mul_succ]
        omega
      have hroom := start_le hj le_rfl
      have hblit := extends_blit hP hL hi off (src.take (writableSize - off))
      have hpatch : Holds P L (P.blit i off (src.take (writableSize - off))) L _ :=
        holds_blit hL.chain.nodup hj (by rw [hlen]; omega)
      obtain ⟨M, hM, hholds, hnext⟩ := advance_spec hblit.frame.ok hblit.valid hj
      have hle := Nat.mul_le_mul_left writableSize hM.length_le
      have hfirst := hpatch.trans hholds le_rfl fun k hk => patch_eq_none (by rw [hlen]; omega)
      have hextends := hblit.trans hM
      cases hadvance : ((P.blit i off (src.take (writableSize - off))).advance i).2 with
      | none =>
        refine ⟨M, hextends, hfirst, ?_, ?_, fun _ => ?_⟩
        · exact (Nat.le_of_not_le hfits)
        · dsimp only
          omega
        · exact Nat.sub_pos_of_lt hoff
      | some i' =>
        have hrest : (src.drop (writableSize - off)).length ≤ fuel := by
          rw [length_drop]
          omega
        obtain ⟨N, hN, hholds', hcount, hfit, -⟩ := ih hM.frame.ok hM.valid (hnext i' hadvance)
          writableSize_pos hrest
        rw [length_drop] at hcount
        refine ⟨N, hextends.trans hN, ?_, ?_, ?_, fun _ => ?_⟩
        · have hall := hfirst.trans hholds' hextends.length_le fun k hk => by
            exact patch_eq_none (by rw [hlen]; omega)
          intro k hk
          rw [hall k hk]
          dsimp only
          rw [Option.none_or, take_add, ← patch_append, hlen, Nat.add_zero, hend]
        · dsimp only
          omega
        · dsimp only
          omega
        · dsimp only
          omega

/-- `chain_write` writes the first bytes of the source. If none is written, then there was no memory
for a block. -/
theorem chainWrite_spec (hP : P.Ok) (hL : P.Valid head L) (hhead : head ≠ invalidSlot)
    (offset : ℕ) (hsrc : src ≠ []) :
  ∃ M, Extends P head L (P.chainWrite head offset src).1 M ∧
    Holds P L (P.chainWrite head offset src).1 M
      (patch offset (src.take (P.chainWrite head offset src).2)) ∧
    (P.chainWrite head offset src).2 ≤ src.length ∧
    (0 < (P.chainWrite head offset src).2 →
      offset + (P.chainWrite head offset src).2 ≤ writableSize * M.length)
  := by
  unfold chainWrite
  rw [if_neg (not_or.mpr ⟨hhead, hsrc⟩)]
  have hfirst : L[0]? = some head := by
    cases L with
    | nil => exact absurd rfl (hL.ne_nil hhead)
    | cons i L => exact congrArg some hL.chain.1.symm
  obtain ⟨M, hM, hholds, hnext⟩ := advanceBy_spec hP hL hfirst (offset / writableSize)
  cases hadvance : (P.advanceBy head (offset / writableSize)).2 with
  | none =>
    refine ⟨M, hM, ?_, Nat.zero_le _, fun hpos => absurd hpos (Nat.lt_irrefl 0)⟩
    rw [take_zero, patch_nil]
    exact hholds
  | some i =>
    have hi := hnext i hadvance
    rw [Nat.zero_add] at hi
    obtain ⟨N, hN, hholds', hcount, hfit, -⟩ := wrote_writeLoop hM.frame.ok hM.valid hi
      (Nat.mod_lt offset writableSize_pos) (le_refl src.length)
    rw [Nat.div_add_mod] at hholds' hfit
    refine ⟨N, hM.trans hN, ?_, hcount, fun _ => hfit⟩
    intro k hk
    rw [hholds.trans hholds' hM.length_le (fun _ _ => rfl) k hk]
    dsimp only
    rw [Option.or_none]

/-! ## Reading -/

theorem skip_spec (hL : P.Valid head L) (n : ℕ) :
  P.Valid (P.skip head n) (L.drop n)
  := by
  induction n generalizing head L with
  | zero => exact hL
  | succ n ih =>
    unfold skip
    cases L with
    | nil =>
      rw [if_neg (fun h => h.1 hL.chain)]
      exact hL
    | cons i L =>
      obtain ⟨rfl, hne, hlt, htail⟩ := hL.cons
      rw [if_pos ⟨hne, hlt⟩]
      exact ih htail

theorem byte_drop (P : WritablePool) (L : List ℕ) (n k : ℕ) :
  P.byte (L.drop n) k = P.byte L (writableSize * n + k)
  := by
  unfold byte
  rw [Nat.mul_add_div writableSize_pos, Nat.mul_add_mod, getD_eq_getElem?_getD,
    List.getElem?_drop, getD_eq_getElem?_getD]

/-- The loop of `chain_read` reads the bytes of the chain one after the other. -/
theorem readLoop_spec (hL : P.Valid head L) {count : ℕ} (hoff : off < writableSize)
    (hfuel : count ≤ fuel) :
  P.readLoop fuel head off count =
    (range (min count (writableSize * L.length - off))).map fun k => P.byte L (off + k)
  := by
  induction fuel generalizing head L off count with
  | zero =>
    rw [Nat.le_zero.mp hfuel, Nat.zero_min]
    rfl
  | succ fuel ih =>
    unfold readLoop
    cases L with
    | nil =>
      have hend : head = invalidSlot := hL.chain
      rw [if_pos (.inr (.inl hend)), length_nil, Nat.mul_zero, Nat.zero_sub, Nat.min_zero]
      rfl
    | cons i L =>
      obtain ⟨rfl, hne, hlt, htail⟩ := hL.cons
      split_ifs with hdone
      · obtain rfl : count = 0 := hdone.resolve_right (not_or.mpr ⟨hne, Nat.not_le.mpr hlt⟩)
        rfl
      have hsplit : min count (writableSize * (head :: L).length - off) =
          min count (writableSize - off) +
            min (count - min count (writableSize - off)) (writableSize * L.length - 0) := by
        rw [length_cons, Nat.mul_succ]
        omega
      rw [ih htail writableSize_pos (by omega), hsplit, range_add, map_append, map_map]
      congr 1
      · apply map_congr_left
        intro k hk
        have hk := mem_range.mp hk
        have hin : off + k < writableSize := by omega
        unfold byte
        rw [Nat.div_eq_of_lt hin, Nat.mod_eq_of_lt hin]
        rfl
      · apply map_congr_left
        intro k hk
        have hk := mem_range.mp hk
        have hnext := P.byte_drop (head :: L) 1 k
        rw [Nat.zero_add]
        apply hnext.trans
        congr 1
        change _ = off + (min count (writableSize - off) + k)
        omega

/-- `chain_read` reads the bytes of the chain from the offset on. -/
theorem chainRead_spec (hL : P.Valid head L) (offset count : ℕ) :
  P.chainRead head offset count =
    (range (min count (writableSize * L.length - offset))).map fun k => P.byte L (offset + k)
  := by
  unfold chainRead
  split_ifs with hnone
  · have hzero : min count (writableSize * L.length - offset) = 0 := by
      obtain hhead | hcount := hnone
      · rw [hL.nil_iff.mp hhead, length_nil]
        omega
      · omega
    rw [hzero]
    rfl
  · have hmod := Nat.mod_lt offset writableSize_pos
    have hdecomp := Nat.div_add_mod offset writableSize
    have hrest : writableSize * (L.drop (offset / writableSize)).length - offset % writableSize =
        writableSize * L.length - offset := by
      rw [length_drop, Nat.mul_sub]
      omega
    rw [readLoop_spec (skip_spec hL _) hmod le_rfl, hrest]
    apply map_congr_left
    intro k _
    rw [byte_drop, ← Nat.add_assoc, hdecomp]

theorem chainSlotCount_spec (hL : P.Valid head L) (hfuel : L.length ≤ fuel) :
  P.chainSlotCount head fuel = L.length
  := by
  induction fuel generalizing head L with
  | zero =>
    rw [Nat.le_zero.mp hfuel]
    rfl
  | succ fuel ih =>
    unfold chainSlotCount
    cases L with
    | nil =>
      have hend : head = invalidSlot := hL.chain
      rw [if_pos (.inl hend)]
      rfl
    | cons i L =>
      obtain ⟨rfl, hne, hlt, htail⟩ := hL.cons
      rw [if_neg (not_or.mpr ⟨hne, Nat.not_le.mpr hlt⟩), ih htail (Nat.le_of_succ_le_succ hfuel)]
      rfl

/-! ## Giving back -/

/-- The blocks of a chain are given back. The others are unchanged. -/
theorem releaseFrom_spec (hP : P.Ok) (hL : P.Valid i L) (hfuel : L.length ≤ fuel) :
  Frame P (P.releaseFrom fuel i) L ∧ (P.releaseFrom fuel i).cap = P.cap ∧
    (P.releaseFrom fuel i).data = P.data ∧
    ∀ k, k ∉ L → (P.releaseFrom fuel i).used k = P.used k ∧ (P.releaseFrom fuel i).next k = P.next k
  := by
  induction L generalizing P i fuel with
  | nil =>
    have hstop : P.releaseFrom fuel i = P := by
      cases fuel with
      | zero => rfl
      | succ fuel => exact if_pos (.inl hL.chain)
    rw [hstop]
    exact ⟨Frame.refl hP [], rfl, rfl, fun _ _ => ⟨rfl, rfl⟩⟩
  | cons y L ih =>
    have hnodup := nodup_cons.mp hL.chain.nodup
    obtain ⟨rfl, hne, hlt, htail⟩ := hL.cons
    obtain _ | fuel := fuel
    · cases hfuel
    have hstep : P.releaseFrom (fuel + 1) i = (P.release i).releaseFrom fuel (P.next i) :=
      if_neg (not_or.mpr ⟨hne, Nat.not_le.mpr hlt⟩)
    have hsame : ∀ k, k ≠ i → (P.release i).used k = P.used k ∧ (P.release i).next k = P.next k :=
      fun k hk => ⟨update_of_ne hk _ _, update_of_ne hk _ _⟩
    have hvalid : (P.release i).Valid (P.next i) L := by
      have hki : ∀ k ∈ L, k ≠ i := by
        rintro k hk rfl
        exact hnodup.1 hk
      refine ⟨?_, htail.lt, ?_⟩
      · apply htail.chain.congr
        exact fun k hk => (hsame k (hki k hk)).2
      intro k hk
      rw [(hsame k (hki k hk)).1]
      exact htail.used k hk
    obtain ⟨hframe, hcap, hdata, hrest⟩ := ih (P := P.release i) ⟨hP.pos, hP.le⟩ hvalid
      (Nat.le_of_succ_le_succ hfuel)
    have hall : ∀ k, k ∉ i :: L → ((P.release i).releaseFrom fuel (P.next i)).used k = P.used k ∧
        ((P.release i).releaseFrom fuel (P.next i)).next k = P.next k := by
      intro k hk
      obtain ⟨hki, hkL⟩ := not_or.mp fun h => hk (mem_cons.mpr h)
      obtain ⟨hused, hnext⟩ := hrest k hkL
      obtain ⟨hused', hnext'⟩ := hsame k hki
      exact ⟨hused.trans hused', hnext.trans hnext'⟩
    rw [hstep]
    refine ⟨⟨hframe.ok, hcap.symm.le, ?_, ?_, ?_⟩, hcap, hdata, hall⟩
    · exact fun k _ hused hk => (hall k hk).1.trans hused
    · exact fun k _ _ hk => (hall k hk).2
    · exact fun k _ _ _ => congrFun hdata k

/-- `free_chain`. -/
theorem freeChain_spec (hP : P.Ok) (hL : P.Valid head L) :
  Frame P (P.freeChain head) L
  := by
  unfold freeChain
  split_ifs
  · exact Frame.refl hP L
  · exact (releaseFrom_spec hP hL (hL.length_le.trans (Nat.le_succ _))).1

/-! ## Truncation -/

theorem lastKept_spec (hL : P.Valid head L) {n : ℕ} (hn : n < L.length) :
  P.lastKept head n = L[n]?
  := by
  induction n generalizing head L with
  | zero =>
    cases L with
    | nil => cases hn
    | cons i L => exact congrArg some hL.chain.1
  | succ n ih =>
    obtain _ | ⟨i, L⟩ := L
    · cases hn
    obtain ⟨rfl, hne, hlt, htail⟩ := hL.cons
    have hlong : n < L.length := Nat.lt_of_succ_lt_succ hn
    have hnext : P.next head ≠ invalidSlot := by
      intro hend
      rw [htail.nil_iff.mp hend] at hlong
      cases hlong
    unfold lastKept
    rw [if_pos ⟨hne, hlt⟩, if_neg hnext, ih htail hlong, List.getElem?_cons_succ]

/-- Bytes of the blocks that a file keeps when it is truncated. -/
theorem le_keepSlots {size : ℕ} (hsize : size ≤ 2 ^ 63) :
  0 < keepSlots size ∧ size ≤ writableSize * keepSlots size ∧ writableSize * (keepSlots size - 1) ≤ size
  := by
  unfold keepSlots writableSize
  split_ifs with hzero
  · omega
  · omega

/-- A chain is cut after one of its blocks, and the blocks after it are given back. -/
theorem cut_spec (hP : P.Ok) (hL : P.Valid head L) {n z : ℕ} (hz : L[n]? = some z) :
  Frame P ((P.setNext z invalidSlot).releaseFrom (P.cap + 1) (P.next z)) L ∧
    ((P.setNext z invalidSlot).releaseFrom (P.cap + 1) (P.next z)).Valid head (L.take (n + 1)) ∧
    ((P.setNext z invalidSlot).releaseFrom (P.cap + 1) (P.next z)).data = P.data
  := by
  have hnodup := hL.chain.nodup
  have hkept : z ∈ L.take (n + 1) := by
    apply mem_of_getElem? (i := n)
    rw [List.getElem?_take_of_lt (Nat.lt_succ_self n), hz]
  have hlast : z ∈ L.drop n := by
    apply mem_of_getElem? (i := 0)
    rw [List.getElem?_drop, Nat.add_zero, hz]
  have hapart : ∀ i ∈ L.take (n + 1), i ∉ L.drop (n + 1) :=
    fun i hi hi' => disjoint_take_drop hnodup le_rfl hi hi'
  have hsub : ∀ i ∈ L.drop (n + 1), i ∈ L := fun i hi => mem_of_mem_drop hi
  have hcut : ∀ i, i ≠ z → (P.setNext z invalidSlot).next i = P.next i :=
    fun i hi => update_of_ne hi _ _
  have htail : (P.setNext z invalidSlot).Valid (P.next z) (L.drop (n + 1)) := by
    refine ⟨?_, fun i hi => hL.lt i (hsub i hi), fun i hi => hL.used i (hsub i hi)⟩
    apply (hL.chain.drop hz).congr
    intro i hi
    apply hcut
    rintro rfl
    exact hapart i hkept hi
  have hset := frame_setNext hP (mem_of_getElem? hz) invalidSlot
  obtain ⟨hframe, -, hdata, hrest⟩ := releaseFrom_spec hset.ok htail
    (htail.length_le.trans (Nat.le_succ P.cap))
  refine ⟨?_, ⟨?_, ?_, ?_⟩, hdata⟩
  · exact hset.trans hframe fun i hi hnot => absurd (hsub i hi) hnot
  · apply hL.chain.take hz
    · exact (hrest z (hapart z hkept)).2.trans (update_self ..)
    intro w hw
    have hw' : w ∈ L.take (n + 1) := (take_sublist_take_left (Nat.le_succ n)).subset hw
    refine (hrest w (hapart w hw')).2.trans (hcut w ?_)
    rintro rfl
    exact disjoint_take_drop hnodup le_rfl hw hlast
  · exact fun i hi => (hL.lt i (mem_of_mem_take hi)).trans_le hframe.cap_le
  · exact fun i hi => (hrest i (hapart i hi)).1.trans (hL.used i (mem_of_mem_take hi))

/-- `chain_truncate` keeps the first bytes of a chain that is long enough. -/
theorem chainTruncate_spec (hP : P.Ok) (hL : P.Valid head L) (hhead : head ≠ invalidSlot) {size : ℕ}
    (hsize : size ≤ 2 ^ 63) (hlong : keepSlots size ≤ L.length) :
  Frame P (P.chainTruncate head size) L ∧
    (P.chainTruncate head size).Valid head (L.take (keepSlots size)) ∧
    ∀ k < size, (P.chainTruncate head size).byte (L.take (keepSlots size)) k = P.byte L k
  := by
  obtain ⟨hpos, hle, hge⟩ := le_keepSlots hsize
  obtain ⟨n, hn⟩ : ∃ n, keepSlots size = n + 1 := ⟨keepSlots size - 1, by omega⟩
  rw [hn] at hlong hle hge
  obtain ⟨z, hz⟩ : ∃ z, L[n]? = some z := ⟨_, List.getElem?_eq_getElem hlong⟩
  obtain ⟨hframe, hvalid, hdata⟩ := cut_spec hP hL hz
  have hlen : (L.take (n + 1)).length = n + 1 := length_take_of_le hlong
  have hz' : (L.take (n + 1))[n]? = some z := by
    rw [List.getElem?_take_of_lt (Nat.lt_succ_self n), hz]
  have hbytes : ∀ k < size,
      ((P.setNext z invalidSlot).releaseFrom (P.cap + 1) (P.next z)).byte (L.take (n + 1)) k =
        P.byte L k := by
    intro k hk
    have hk' : k < writableSize * (L.take (n + 1)).length := by
      rw [hlen]
      omega
    have happend := P.byte_append hk' (L.drop (n + 1))
    rw [take_append_drop] at happend
    rw [happend]
    exact byte_congr (fun i _ => congrFun hdata i) hk'
  unfold chainTruncate
  rw [if_neg hhead, hn, Nat.add_sub_cancel, lastKept_spec hL hlong, hz]
  unfold zeroTail
  split_ifs with hoff
  · have hmod := Nat.mod_lt size writableSize_pos
    have hdecomp := Nat.div_add_mod size writableSize
    have hextends := extends_blit hframe.ok hvalid (mem_of_getElem? hz')
      (size % writableSize) (replicate (writableSize - size % writableSize) 0)
    refine ⟨?_, hextends.valid, ?_⟩
    · apply hframe.trans hextends.frame
      exact fun i hi hnot => absurd (mem_of_mem_take hi) hnot
    intro k hk
    have hblock : size / writableSize = n := by
      apply Nat.div_eq_of_lt_le
      · rw [Nat.mul_comm]
        exact hge
      rw [Nat.mul_comm]
      apply Nat.lt_of_le_of_ne hle
      intro heq
      rw [heq, Nat.mul_mod_right] at hoff
      exact absurd hoff (lt_irrefl 0)
    rw [hblock] at hdecomp
    have hfit : size % writableSize +
        (replicate (writableSize - size % writableSize) (0 : Byte)).length ≤ writableSize := by
      rw [length_replicate]
      omega
    have hk' : k < writableSize * (L.take (n + 1)).length := by
      rw [hlen]
      omega
    have hholds := holds_blit (P := (P.setNext z invalidSlot).releaseFrom (P.cap + 1) (P.next z))
      hvalid.chain.nodup hz' hfit k hk'
    have hnone : patch (writableSize * n + size % writableSize)
        (replicate (writableSize - size % writableSize) 0) k = none := by
      unfold patch
      rw [if_neg (by omega)]
    rw [hholds, hnone, if_pos hk']
    exact hbytes k hk
  · exact ⟨hframe, hvalid, hbytes⟩

end WritablePool

end SaltyOS.Tmpfs
