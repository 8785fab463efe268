import SaltyOS.Dns.Message
import Mathlib.Tactic

/-!
# Names in DNS messages

What a name in a message is, with compression pointers, and what `encode_hostname` and `decode_name`
do with it.  `NameAt` follows a name from its offset on and counts the labels and pointers on the way;
`decode_name` returns the name exactly when it takes at most 16 of them.
-/

namespace SaltyOS.Dns

open List

variable {labels : List (List Byte)}

/-! ## Host names -/

/-- A host name as its labels with dots between them. -/
def dotted (labels : List (List Byte)) : List Byte := [dot].intercalate labels

/-- The labels of a name, each after its length, and the end of the name. -/
def wire (labels : List (List Byte)) : List Byte :=
  labels.flatMap (fun label => BitVec.ofNat 8 label.length :: label) ++ [0]

/-- The labels of a host name: not empty, at most 63 bytes each, without dots. -/
structure IsLabel (label : List Byte) : Prop where
  pos : 0 < label.length
  le : label.length ≤ 63
  dot : dot ∉ label

/-- `hostname` is made of `labels`, and perhaps ends in a dot. -/
structure Hostname (hostname : List Byte) (labels : List (List Byte)) : Prop where
  nonempty : labels ≠ []
  isLabel : ∀ label ∈ labels, IsLabel label
  bytes : hostname = dotted labels ∨ hostname = dotted labels ++ [dot]
  length : hostname.length ≤ 253

theorem dotted_cons (label : List Byte) (labels : List (List Byte)) :
  dotted (label :: labels) = label ++ labels.flatMap (fun l => dot :: l)
  := by
  unfold dotted
  induction labels generalizing label with
  | nil => simp [intercalate]
  | cons l ls ih =>
    have hl := ih l
    simp only [intercalate, intersperse_cons_cons, flatten_cons, List.flatMap_cons] at hl ⊢
    rw [hl]
    simp

theorem wire_cons (label : List Byte) (labels : List (List Byte)) :
  wire (label :: labels) = BitVec.ofNat 8 label.length :: (label ++ wire labels)
  := by
  simp [wire]

theorem length_wire (h : labels ≠ []) :
  (wire labels).length = (dotted labels).length + 2
  := by
  obtain ⟨label, labels, rfl⟩ := exists_cons_of_ne_nil h
  have hrest : (wire labels).length = (labels.flatMap (fun l => dot :: l)).length + 1 := by
    simp [wire, length_flatMap]
  rw [wire_cons, dotted_cons, length_cons, length_append, length_append, hrest]
  omega

/-! ## Encoding -/

section Encoding

variable {room : ℕ} {label out rest : List Byte}

/-- The bytes of a label are collected. -/
theorem encodeLoop_append (bytes : List Byte) (hdot : dot ∉ bytes) :
  encodeLoop room label out (bytes ++ rest) = encodeLoop room (label ++ bytes) out rest
  := by
  induction bytes generalizing label with
  | nil => simp
  | cons b bytes ih =>
    rw [List.mem_cons, not_or] at hdot
    rw [List.cons_append, encodeLoop, if_neg (Ne.symm hdot.1), ih hdot.2, List.append_assoc]
    rfl

section

variable (h : IsLabel label) (hroom : out.length + 1 + label.length ≤ room)
include h hroom

/-- A label before a dot is written. -/
theorem encodeLoop_dot :
  encodeLoop room label out (dot :: rest) =
    encodeLoop room [] (out ++ BitVec.ofNat 8 label.length :: label) rest
  := by
  have hpos := h.pos
  have hle := h.le
  rw [encodeLoop, if_pos rfl, if_neg (by omega), if_neg (by omega), if_neg (by omega)]

/-- A label at the end is written. -/
theorem encodeLoop_end :
  encodeLoop room label out [] = some (out ++ BitVec.ofNat 8 label.length :: label)
  := by
  have hpos := h.pos
  have hle := h.le
  rw [encodeLoop, if_neg (by omega), if_pos hpos, if_neg (by omega)]

end

/-- All labels are written, whether or not a dot follows the last. -/
theorem encodeLoop_labels (labels : List (List Byte)) (first : List Byte) (tail : List Byte)
    (htail : tail = [] ∨ tail = [dot]) (hfirst : IsLabel first)
    (hlabels : ∀ label ∈ labels, IsLabel label)
    (hroom : out.length + (wire (first :: labels)).length ≤ room) :
  encodeLoop room [] out (first ++ labels.flatMap (fun l => dot :: l) ++ tail) =
    some (out ++ (first :: labels).flatMap fun l => BitVec.ofNat 8 l.length :: l)
  := by
  induction labels generalizing first out with
  | nil =>
    rw [wire_cons] at hroom
    simp only [length_cons, length_append] at hroom
    have hwritten : out.length + 1 + first.length ≤ room := by omega
    rw [flatMap_nil, append_nil, encodeLoop_append first hfirst.dot, List.nil_append]
    obtain rfl | rfl := htail
    · rw [encodeLoop_end hfirst hwritten]
      simp
    · rw [encodeLoop_dot hfirst hwritten, encodeLoop]
      simp
  | cons next labels ih =>
    rw [wire_cons] at hroom
    simp only [length_cons, length_append] at hroom
    have hwritten : out.length + 1 + first.length ≤ room := by omega
    rw [List.flatMap_cons, List.append_assoc, encodeLoop_append first hfirst.dot, List.nil_append,
      List.cons_append, List.cons_append, encodeLoop_dot hfirst hwritten, ih next]
    · simp
    · exact hlabels next (by simp)
    · intro label hlabel
      exact hlabels label (by simp [hlabel])
    · simp only [length_append, length_cons]
      omega

end Encoding

/-- `encode_hostname` writes the wire form of the labels if there is room for it. -/
theorem encodeHostname_eq {hostname : List Byte} (h : Hostname hostname labels) {room : ℕ}
    (hroom : (dotted labels).length + 2 ≤ room) :
  encodeHostname hostname room = some (wire labels)
  := by
  rw [← length_wire h.nonempty] at hroom
  obtain ⟨hnonempty, hlabels, hbytes, hlength⟩ := h
  obtain ⟨first, labels, rfl⟩ := exists_cons_of_ne_nil hnonempty
  obtain ⟨tail, htail, rfl⟩ : ∃ tail, (tail = [] ∨ tail = [dot]) ∧
      hostname = first ++ labels.flatMap (fun l => dot :: l) ++ tail := by
    obtain rfl | rfl := hbytes
    · exact ⟨[], .inl rfl, by rw [dotted_cons, append_nil]⟩
    · exact ⟨[dot], .inr rfl, by rw [dotted_cons]⟩
  have hfirst := hlabels first (by simp)
  have hpos := hfirst.pos
  have hlabels' : ∀ label ∈ labels, IsLabel label := fun label hlabel =>
    hlabels label (by simp [hlabel])
  have hroom' : ([] : List Byte).length + (wire (first :: labels)).length ≤ room := by
    simpa using hroom
  have hloop := encodeLoop_labels labels first tail htail hfirst hlabels' hroom'
  unfold encodeHostname
  rw [if_neg, hloop]
  · dsimp only
    rw [if_neg]
    · rfl
    · unfold wire at hroom
      simp only [length_append, length_cons, length_nil] at hroom
      simp only [List.nil_append]
      omega
  · rintro (hempty | hlong)
    · rw [List.isEmpty_iff] at hempty
      have hzero := congrArg length hempty
      simp only [length_append, length_nil] at hzero
      omega
    · omega

/-! ## Names in a message -/

/-- A name in a message: its offset, its labels, the number of labels and pointers on the way to its
end, and the number of bytes it takes at its offset.  A pointer leads to an earlier name. -/
inductive NameAt (data : List Byte) : ℕ → List (List Byte) → ℕ → ℕ → Prop
  | root {off : ℕ} (hzero : data[off]? = some 0) : NameAt data off [] 0 1
  | label {off : ℕ} {n : Byte} {label : List Byte} {labels : List (List Byte)} {steps consumed : ℕ}
      (hlen : data[off]? = some n) (hpos : 0 < n.toNat) (hmax : n.toNat ≤ 63)
      (hin : off + 1 + n.toNat ≤ data.length)
      (hlabel : (data.drop (off + 1)).take n.toNat = label)
      (hrest : NameAt data (off + 1 + n.toNat) labels steps consumed) :
      NameAt data off (label :: labels) (steps + 1) (1 + n.toNat + consumed)
  | pointer {off : ℕ} {hi lo : Byte} {labels : List (List Byte)} {steps consumed : ℕ}
      (hhi : data[off]? = some hi) (hlo : data[off + 1]? = some lo) (hbits : 192 ≤ hi.toNat)
      (hearlier : (hi.toNat - 192) * 256 + lo.toNat < off)
      (hname : NameAt data ((hi.toNat - 192) * 256 + lo.toNat) labels steps consumed) :
      NameAt data off labels (steps + 1) 2

/-- The wire form of a name, in a message. -/
theorem nameAt_wire {labels : List (List Byte)} (hlabels : ∀ label ∈ labels, IsLabel label)
    (before after : List Byte) :
  NameAt (before ++ wire labels ++ after) before.length labels labels.length (wire labels).length
  := by
  induction labels generalizing before with
  | nil =>
    apply NameAt.root
    simp [wire]
  | cons label labels ih =>
    have hlabel := hlabels label (by simp)
    have hmax := hlabel.le
    have hn : (BitVec.ofNat 8 label.length).toNat = label.length := by
      rw [BitVec.toNat_ofNat, Nat.mod_eq_of_lt (by omega)]
    have hrest := ih (fun l hl => hlabels l (by simp [hl]))
      (before ++ BitVec.ofNat 8 label.length :: label)
    have hdata : before ++ wire (label :: labels) ++ after =
        before ++ BitVec.ofNat 8 label.length :: label ++ wire labels ++ after := by
      rw [wire_cons]
      simp
    have hoff : (before ++ BitVec.ofNat 8 label.length :: label).length =
        before.length + 1 + (BitVec.ofNat 8 label.length).toNat := by
      simp only [length_append, length_cons]
      omega
    rw [hdata]
    rw [hoff] at hrest
    have hconsumed : (wire (label :: labels)).length =
        1 + (BitVec.ofNat 8 label.length).toNat + (wire labels).length := by
      rw [wire_cons, hn]
      simp only [length_append, length_cons]
      omega
    rw [hconsumed]
    apply NameAt.label _ _ _ _ _ hrest
    · simp
    · rw [hn]
      exact hlabel.pos
    · rw [hn]
      exact hmax
    · simp only [length_append, length_cons]
      omega
    · have hbefore : before.drop (before.length + 1) = [] := drop_eq_nil_of_le (by omega)
      rw [hn]
      simp [drop_append, hbefore]

/-! ## Decoding -/

theorem isPointer_iff (n : Byte) :
  n &&& 0xC0 = 0xC0 ↔ 192 ≤ n.toNat
  := by
  revert n
  decide +kernel

theorem pointerTarget_eq (hi lo : Byte) (h : 192 ≤ hi.toNat) :
  pointerTarget hi lo = (hi.toNat - 192) * 256 + lo.toNat
  := by
  have hmask : (hi &&& 0x3F).toNat = hi.toNat - 192 := by
    revert hi
    decide +kernel
  unfold pointerTarget
  rw [hmask, ← Nat.shiftLeft_add_eq_or_of_lt lo.isLt, Nat.shiftLeft_eq]

section Decoding

variable {data : List Byte}
variable {out : List Byte} {labels : List (List Byte)} {consumed : ℕ}

/-- The bytes of a label are there. -/
theorem copyLabel_isSome (out : List Byte) {pos n : ℕ} (h : pos + n ≤ data.length) :
  (copyLabel data out pos n).isSome = true
  := by
  induction n generalizing out pos with
  | zero => rfl
  | succ n ih =>
    unfold copyLabel
    split_ifs
    · rfl
    · rw [List.getElem?_eq_getElem (by omega)]
      exact ih _ (by omega)

theorem copyLabel_eq {pos n : ℕ} (h : pos + n ≤ data.length) (hfits : out.length + n ≤ 256) :
  copyLabel data out pos n = some (some (out ++ (data.drop pos).take n))
  := by
  induction n generalizing out pos with
  | zero => simp [copyLabel]
  | succ n ih =>
    have hpos : pos < data.length := by omega
    have hlen : (out ++ [data[pos]]).length + n ≤ 256 := by
      simp only [length_append, length_singleton]
      omega
    unfold copyLabel
    rw [if_neg (by omega), List.getElem?_eq_getElem hpos]
    dsimp only
    rw [ih (by omega) hlen, drop_eq_getElem_cons hpos, take_succ_cons, List.append_assoc]
    rfl

/-- What the loop writes for the labels that follow. -/
def writeLabels (out : List Byte) : List (List Byte) → List Byte
  | [] => out
  | label :: labels => writeLabels ((if out.length > 0 then out ++ [dot] else out) ++ label) labels

theorem length_le_writeLabels (out : List Byte) (labels : List (List Byte)) :
  out.length ≤ (writeLabels out labels).length
  := by
  induction labels generalizing out with
  | nil => exact le_rfl
  | cons label labels ih =>
    refine Nat.le_trans ?_ (ih _)
    split_ifs
    · simp only [length_append]
      omega
    · omega

theorem writeLabels_eq (hout : 0 < out.length) (labels : List (List Byte)) :
  writeLabels out labels = out ++ labels.flatMap (fun l => dot :: l)
  := by
  induction labels generalizing out with
  | nil => simp [writeLabels]
  | cons label labels ih =>
    rw [writeLabels, if_pos hout, ih (by simp)]
    simp

/-- From an empty buffer on it writes the dotted name. -/
theorem writeLabels_nil (h : ∀ label ∈ labels, 0 < label.length) :
  writeLabels [] labels = dotted labels
  := by
  cases labels with
  | nil => rfl
  | cons label labels =>
    have hlabel := h label (by simp)
    rw [writeLabels, dotted_cons, if_neg (by simp), List.nil_append, writeLabels_eq hlabel]

section

variable {off steps rounds : ℕ} (h : NameAt data off labels steps consumed)
include h

/-- A name that takes fewer labels and pointers than there are rounds is decoded. -/
theorem decodeLoop_of_nameAt (hrounds : steps < rounds) (out : List Byte)
    (hfits : (writeLabels out labels).length ≤ 256) (c : ℕ) (followed : Bool) :
  decodeLoop data rounds off out c followed =
    some { name := writeLabels out labels, consumed := if followed then c else c + consumed }
  := by
  induction h generalizing rounds out c followed with
  | @root off hzero =>
    obtain ⟨rounds, rfl⟩ := Nat.exists_eq_add_of_lt hrounds
    have hoff := (List.getElem?_eq_some_iff.mp hzero).1
    rw [decodeLoop, if_neg (by omega), hzero]
    dsimp only
    rfl
  | @label off n label labels steps consumed hlen hpos hmax hin hlabel hrest ih =>
    obtain ⟨rounds, rfl⟩ : ∃ k, rounds = k + 1 := ⟨rounds - 1, by omega⟩
    have hzero : n ≠ 0 := by
      rintro rfl
      exact absurd hpos (by decide)
    have hplain : ¬ n &&& 0xC0 = 0xC0 := by
      rw [isPointer_iff]
      omega
    have hlength : label.length = n.toNat := by
      rw [← hlabel, length_take, length_drop]
      omega
    obtain ⟨out', hdot, hout'⟩ : ∃ out', addDot out = some out' ∧
        out' = if out.length > 0 then out ++ [dot] else out := by
      have hle := length_le_writeLabels ((if out.length > 0 then out ++ [dot] else out) ++ label) labels
      rw [writeLabels] at hfits
      unfold addDot
      by_cases hout : out.length > 0
      · rw [if_pos hout] at hle hfits ⊢
        simp only [length_append, length_singleton] at hle
        rw [if_neg (by omega), if_pos hout]
        exact ⟨_, rfl, rfl⟩
      · rw [if_neg hout, if_neg hout]
        exact ⟨_, rfl, rfl⟩
    rw [writeLabels, ← hout'] at hfits ⊢
    have hle := length_le_writeLabels (out' ++ label) labels
    rw [length_append] at hle
    rw [decodeLoop, if_neg (by omega), hlen]
    dsimp only
    rw [if_neg hzero, if_neg hplain, if_neg (by omega), hdot]
    dsimp only
    rw [copyLabel_eq (by omega) (by omega), hlabel]
    dsimp only
    rw [ih (by omega) _ hfits]
    cases followed with
    | true => rfl
    | false =>
      simp only [Bool.false_eq_true, if_false]
      congr 2
      omega
  | @pointer off hi lo labels steps consumed hhi hlo hbits hearlier hname ih =>
    obtain ⟨rounds, rfl⟩ : ∃ k, rounds = k + 1 := ⟨rounds - 1, by omega⟩
    have hoff' := (List.getElem?_eq_some_iff.mp hlo).1
    have hzero : hi ≠ 0 := by
      rintro rfl
      exact absurd hbits (by decide)
    rw [decodeLoop, if_neg (by omega), hhi]
    dsimp only
    rw [if_neg hzero, if_pos ((isPointer_iff hi).mpr hbits), if_neg (by omega), hlo]
    dsimp only
    rw [pointerTarget_eq hi lo hbits, ih (by omega) out hfits]
    cases followed with
    | true => rfl
    | false => rfl

/-- A name that takes more is not. -/
theorem decodeLoop_failed (hrounds : rounds ≤ steps) (out : List Byte) (c : ℕ) (followed : Bool) :
  decodeLoop data rounds off out c followed = some .failed
  := by
  induction h generalizing rounds out c followed with
  | root =>
    obtain rfl : rounds = 0 := by omega
    rfl
  | @label off n label labels steps consumed hlen hpos hmax hin hlabel hrest ih =>
    obtain _ | rounds := rounds
    · rfl
    have hzero : n ≠ 0 := by
      rintro rfl
      exact absurd hpos (by decide)
    have hplain : ¬ n &&& 0xC0 = 0xC0 := by
      rw [isPointer_iff]
      omega
    rw [decodeLoop, if_neg (by omega), hlen]
    dsimp only
    rw [if_neg hzero, if_neg hplain, if_neg (by omega)]
    obtain _ | out' := addDot out
    · rfl
    dsimp only
    obtain ⟨copied, hcopied⟩ := Option.isSome_iff_exists.mp (copyLabel_isSome out' hin)
    rw [hcopied]
    cases copied with
    | none => rfl
    | some out'' => exact ih (by omega) out'' _ followed
  | @pointer off hi lo labels steps consumed hhi hlo hbits hearlier hname ih =>
    obtain _ | rounds := rounds
    · rfl
    have hoff' := (List.getElem?_eq_some_iff.mp hlo).1
    have hzero : hi ≠ 0 := by
      rintro rfl
      exact absurd hbits (by decide)
    rw [decodeLoop, if_neg (by omega), hhi]
    dsimp only
    rw [if_neg hzero, if_pos ((isPointer_iff hi).mpr hbits), if_neg (by omega), hlo]
    dsimp only
    rw [pointerTarget_eq hi lo hbits]
    exact ih (by omega) out _ true

end

/-- Decoding stays inside the message. -/
theorem decodeLoop_isSome (rounds off : ℕ) (out : List Byte) (c : ℕ) (followed : Bool) :
  (decodeLoop data rounds off out c followed).isSome = true
  := by
  induction rounds generalizing off out c followed with
  | zero => rfl
  | succ rounds ih =>
    unfold decodeLoop
    by_cases hoff : off ≥ data.length
    · rw [if_pos hoff]
      rfl
    rw [if_neg hoff, List.getElem?_eq_getElem (by omega)]
    dsimp only
    generalize data[off] = n
    split
    · rfl
    split
    · split
      · rfl
      · rw [List.getElem?_eq_getElem (by omega)]
        exact ih ..
    split
    · rfl
    rename_i hin
    obtain _ | out' := addDot out
    · rfl
    dsimp only
    obtain ⟨copied, hcopied⟩ :=
      Option.isSome_iff_exists.mp (copyLabel_isSome out' (Nat.le_of_not_gt hin))
    rw [hcopied]
    cases copied with
    | none => rfl
    | some out'' => exact ih ..

end Decoding

section

variable {data : List Byte} {off steps consumed : ℕ} {labels : List (List Byte)}
  (h : NameAt data off labels steps consumed)
include h

theorem NameAt.label_pos :
  ∀ label ∈ labels, 0 < label.length
  := by
  induction h with
  | root => exact nofun
  | label hlen hpos hmax hin hlabel hrest ih =>
    intro l hl
    obtain rfl | hl := List.mem_cons.mp hl
    · rw [← hlabel, length_take, length_drop]
      omega
    · exact ih l hl
  | pointer hhi hlo hbits hearlier hname ih => exact ih

/-- What `decode_name` returns for a name that is not too long. -/
theorem decodeName_of_nameAt (hfits : (dotted labels).length ≤ 256) :
  decodeName data off = some (if steps ≤ 16 then { name := dotted labels, consumed } else .failed)
  := by
  have hwrite := writeLabels_nil h.label_pos
  unfold decodeName maxRounds
  split_ifs with hsteps
  · rw [decodeLoop_of_nameAt h (by omega) [] (by rwa [hwrite]), hwrite]
    simp
  · exact decodeLoop_failed h (by omega) ..

end

/-- A host name that `encode_hostname` wrote somewhere is decoded exactly if it has at most 16
labels. -/
theorem decodeName_wire_iff {hostname : List Byte} {labels : List (List Byte)}
    (h : Hostname hostname labels) (before after : List Byte) :
  decodeName (before ++ wire labels ++ after) before.length =
      some { name := dotted labels, consumed := (wire labels).length } ↔
    labels.length ≤ 16
  := by
  have hname := nameAt_wire h.isLabel before after
  have hfits : (dotted labels).length ≤ 256 := by
    have hlength := h.length
    obtain hbytes | hbytes := h.bytes
    · rw [hbytes] at hlength
      omega
    · rw [hbytes, length_append] at hlength
      omega
  rw [decodeName_of_nameAt hname hfits]
  constructor
  · intro heq
    by_contra hlong
    rw [if_neg hlong] at heq
    have hconsumed := congrArg Decoded.consumed (Option.some.inj heq)
    have hlen := length_wire h.nonempty
    change 0 = (wire labels).length at hconsumed
    omega
  · intro hshort
    rw [if_pos hshort]

end SaltyOS.Dns
