import SaltyOS.Dns.Names
import Mathlib.Data.List.TakeWhile

/-!
# DNS responses

Parsing never indexes outside of the message.  For a well-formed answer, with any number of questions
and records and with compressed names, the result is the first four addresses exactly if the names that
come before them take at most 16 labels and pointers each.
-/

namespace SaltyOS.Dns

open List

variable {off consumed : ℕ} {questions : List ℕ} {r : Record} {records xs : List Record}

/-! ## Reading inside of the message -/

section Inside

variable (data : List Byte)

theorem be16_isSome {i : ℕ} (h : i + 1 < data.length) :
  ∃ n, be16 data i = some n
  := by
  unfold be16
  rw [getElem?_eq_getElem (by omega), getElem?_eq_getElem h]
  exact ⟨_, rfl⟩

theorem be32_isSome {i : ℕ} (h : i + 3 < data.length) :
  ∃ n, be32 data i = some n
  := by
  obtain ⟨hi, hhi⟩ := be16_isSome data (i := i) (by omega)
  obtain ⟨lo, hlo⟩ := be16_isSome data (i := i + 2) (by omega)
  unfold be32
  rw [hhi, hlo]
  exact ⟨_, rfl⟩

theorem decodeName_isSome (off : ℕ) :
  ∃ decoded, decodeName data off = some decoded
  := Option.isSome_iff_exists.mp (decodeLoop_isSome ..)

theorem parseHeader_isSome (txnId : ℕ) :
  ∃ parsed, parseHeader data txnId = some parsed
  := by
  unfold parseHeader
  by_cases hlen : data.length < dnsHeaderLen
  · rw [if_pos hlen]
    exact ⟨_, rfl⟩
  unfold dnsHeaderLen at hlen ⊢
  obtain ⟨txn, htxn⟩ := be16_isSome data (i := 0) (by omega)
  obtain ⟨flags, hflags⟩ := be16_isSome data (i := 2) (by omega)
  obtain ⟨qdcount, hqd⟩ := be16_isSome data (i := 4) (by omega)
  obtain ⟨ancount, han⟩ := be16_isSome data (i := 6) (by omega)
  have hlow : data[3]? = some data[3] := getElem?_eq_getElem (by omega)
  rw [if_neg hlen, htxn, hflags, hlow, hqd, han]
  simp only [Option.bind_eq_bind, Option.bind_some]
  split
  · exact ⟨_, rfl⟩
  split
  · exact ⟨_, rfl⟩
  · split <;> exact ⟨_, rfl⟩

theorem skipQuestions_isSome (count off : ℕ) :
  ∃ end?, skipQuestions data count off = some end?
  := by
  induction count generalizing off with
  | zero => exact ⟨_, rfl⟩
  | succ count ih =>
    obtain ⟨decoded, hdecoded⟩ := decodeName_isSome data off
    unfold skipQuestions
    rw [hdecoded]
    dsimp only
    split
    · exact ⟨_, rfl⟩
    split
    · exact ⟨_, rfl⟩
    · exact ih _

/-- A record that is read lies inside of the message. -/
theorem readRecord_isSome (off : ℕ) :
  readRecord data off = some none ∨
    ∃ r, readRecord data off = some (some r) ∧ r.rdata + r.rdlength ≤ data.length
  := by
  obtain ⟨decoded, hdecoded⟩ := decodeName_isSome data off
  unfold readRecord
  rw [hdecoded]
  dsimp only
  split
  · exact .inl rfl
  split
  · exact .inl rfl
  split_ifs with hfixed
  · exact .inl rfl
  obtain ⟨rtype, hrtype⟩ := be16_isSome data (i := off + decoded.consumed) (by omega)
  obtain ⟨ttl, httl⟩ := be32_isSome data (i := off + decoded.consumed + 4) (by omega)
  obtain ⟨rdlength, hrdlength⟩ := be16_isSome data (i := off + decoded.consumed + 8) (by omega)
  rw [hrtype, httl, hrdlength]
  simp only [Option.bind_eq_bind, Option.bind_some]
  split
  · exact .inl rfl
  · exact .inr ⟨_, rfl, by dsimp only; omega⟩

theorem addRecord_isSome {r : RecordHeader} (h : r.rdata + r.rdlength ≤ data.length)
    (result : DnsResult) :
  ∃ result', addRecord data r result = some result'
  := by
  unfold addRecord
  split
  next ha =>
    obtain ⟨ip, hip⟩ := be32_isSome data (i := r.rdata) (by omega)
    rw [hip]
    exact ⟨_, rfl⟩
  · exact ⟨_, rfl⟩

theorem parseAnswers_isSome (count off : ℕ) (result : DnsResult) :
  ∃ result', parseAnswers data count off result = some result'
  := by
  induction count generalizing off result with
  | zero => exact ⟨_, rfl⟩
  | succ count ih =>
    unfold parseAnswers
    obtain hend | ⟨r, hr, hin⟩ := readRecord_isSome data off
    · rw [hend]
      exact ⟨_, rfl⟩
    obtain ⟨result', hadd⟩ := addRecord_isSome data hin result
    rw [hr]
    dsimp only
    rw [hadd]
    exact ih _ _

theorem parsePtrAnswers_isSome (count off : ℕ) :
  ∃ parsed, parsePtrAnswers data count off = some parsed
  := by
  induction count generalizing off with
  | zero => exact ⟨_, rfl⟩
  | succ count ih =>
    unfold parsePtrAnswers
    obtain hend | ⟨r, hr, -⟩ := readRecord_isSome data off
    · rw [hend]
      exact ⟨_, rfl⟩
    obtain ⟨decoded, hdecoded⟩ := decodeName_isSome data r.rdata
    rw [hr]
    dsimp only
    rw [hdecoded]
    dsimp only
    split
    · split
      · exact ⟨_, rfl⟩
      · exact ih _
    · exact ih _

/-- `parse_response` never indexes outside of the message. -/
theorem parseResponse_isSome (txnId : ℕ) :
  ∃ parsed, parseResponse data txnId = some parsed
  := by
  obtain ⟨header, hheader⟩ := parseHeader_isSome data txnId
  unfold parseResponse
  rw [hheader]
  cases header with
  | mismatch => exact ⟨_, rfl⟩
  | error rcode => exact ⟨_, rfl⟩
  | ok counts =>
    dsimp only
    obtain ⟨end?, hskip⟩ := skipQuestions_isSome data counts.qdcount dnsHeaderLen
    rw [hskip]
    obtain _ | off := end?
    · exact ⟨_, rfl⟩
    dsimp only
    obtain ⟨result, hresult⟩ := parseAnswers_isSome data counts.ancount off { ips := [], ttl := ttlMax }
    rw [hresult]
    exact ⟨_, rfl⟩

/-- `parse_ptr_response` never indexes outside of the message. -/
theorem parsePtrResponse_isSome (txnId : ℕ) :
  ∃ parsed, parsePtrResponse data txnId = some parsed
  := by
  obtain ⟨header, hheader⟩ := parseHeader_isSome data txnId
  unfold parsePtrResponse
  rw [hheader]
  cases header with
  | mismatch => exact ⟨_, rfl⟩
  | error rcode => exact ⟨_, rfl⟩
  | ok counts =>
    dsimp only
    obtain ⟨end?, hskip⟩ := skipQuestions_isSome data counts.qdcount dnsHeaderLen
    rw [hskip]
    cases end? with
    | none => exact ⟨_, rfl⟩
    | some off => exact parsePtrAnswers_isSome data _ _

end Inside

/-! ## Well-formed answers -/

/-- A name of at most 255 bytes on the wire. -/
def GoodName (data : List Byte) (off steps consumed : ℕ) : Prop :=
  ∃ labels, NameAt data off labels steps consumed ∧ (wire labels).length ≤ 255

/-- A question section from one offset to another, as the labels and pointers of each name. -/
inductive QuestionsAt (data : List Byte) : ℕ → List ℕ → ℕ → Prop
  | nil {off : ℕ} : QuestionsAt data off [] off
  | cons {off steps consumed last : ℕ} {questions : List ℕ}
      (hname : GoodName data off steps consumed) (hin : off + consumed + 4 ≤ data.length)
      (hrest : QuestionsAt data (off + consumed + 4) questions last) :
      QuestionsAt data off (steps :: questions) last

/-- An answer record: the labels and pointers of its name, and what follows the name. -/
structure Record where
  steps : ℕ
  rtype : ℕ
  ttl : ℕ
  rdata : List Byte
  deriving DecidableEq, Repr

/-- The address of an A record. -/
def Record.address? (r : Record) : Option ℕ :=
  if r.rtype = dnsTypeA ∧ r.rdata.length = 4 then be32 r.rdata 0 else none

/-- The addresses of the A records, in order. -/
def addresses (records : List Record) : List ℕ := records.filterMap Record.address?

/-- An answer section at an offset. -/
inductive RecordsAt (data : List Byte) : ℕ → List Record → Prop
  | nil {off : ℕ} : RecordsAt data off []
  | cons {off consumed : ℕ} {r : Record} {records : List Record}
      (hname : GoodName data off r.steps consumed)
      (hin : off + consumed + 10 + r.rdata.length ≤ data.length)
      (hrtype : be16 data (off + consumed) = some r.rtype)
      (httl : be32 data (off + consumed + 4) = some r.ttl)
      (hrdlength : be16 data (off + consumed + 8) = some r.rdata.length)
      (hrdata : (data.drop (off + consumed + 10)).take r.rdata.length = r.rdata)
      (hrest : RecordsAt data (off + consumed + 10 + r.rdata.length) records) :
      RecordsAt data off (r :: records)

/-- A well-formed answer to the query with the given identifier: a response without an error, whose
sections are as long as the header says. -/
structure WellFormed (data : List Byte) (txnId : ℕ) (questions : List ℕ) (records : List Record) :
    Prop where
  header : dnsHeaderLen ≤ data.length
  txnId : be16 data 0 = some txnId
  response : ∃ flags, be16 data 2 = some flags ∧ flags &&& 0x8000 ≠ 0
  noError : ∃ low, data[3]? = some low ∧ low &&& 0x0F = 0
  qdcount : be16 data 4 = some questions.length
  ancount : be16 data 6 = some records.length
  sections : ∃ last, QuestionsAt data dnsHeaderLen questions last ∧ RecordsAt data last records

/-- The addresses that were parsed. -/
def Parsed.ips : Parsed DnsResult → List ℕ
  | .ok result => result.ips
  | .mismatch => []
  | .error _ => []

/-- The names in front of the first four A records, theirs included, take at most 16 labels and
pointers. -/
def Legible (questions : List ℕ) (records : List Record) : Prop :=
  ∀ xs r ys, records = xs ++ r :: ys → r.address?.isSome → (addresses xs).length < maxDnsResults →
    (∀ steps ∈ questions, steps ≤ 16) ∧ ∀ r' ∈ xs ++ [r], r'.steps ≤ 16

/-! ## What is parsed -/

variable {data : List Byte}

theorem GoodName.decodeName {steps : ℕ} (h : GoodName data off steps consumed) :
  ∃ name, 0 < consumed ∧ Dns.decodeName data off =
    some (if steps ≤ 16 then { name, consumed } else .failed)
  := by
  obtain ⟨labels, hname, hwire⟩ := h
  have hfits : (dotted labels).length ≤ 256 := by
    by_cases hlabels : labels = []
    · rw [hlabels]
      exact Nat.zero_le _
    · have hlen := length_wire hlabels
      omega
  have hconsumed : 0 < consumed := by
    cases hname with
    | root => exact Nat.one_pos
    | label => omega
    | pointer => exact Nat.two_pos
  exact ⟨dotted labels, hconsumed, decodeName_of_nameAt hname hfits⟩

/-- The question section is skipped if all of its names are decoded. -/
theorem skipQuestions_eq {last : ℕ} (h : QuestionsAt data off questions last) :
  skipQuestions data questions.length off =
    some (if ∀ steps ∈ questions, steps ≤ 16 then some last else none)
  := by
  induction h with
  | nil => simp [skipQuestions]
  | @cons off steps consumed last questions hname hin hrest ih =>
    obtain ⟨name, hpos, hdecode⟩ := hname.decodeName
    rw [length_cons, skipQuestions, hdecode]
    dsimp only
    by_cases hsteps : steps ≤ 16
    · rw [if_pos hsteps]
      dsimp only
      rw [if_neg (by omega), if_neg (by omega), ih]
      simp [hsteps]
    · rw [if_neg hsteps, if_pos (show Decoded.failed.consumed = 0 from rfl)]
      simp [hsteps]

/-- A record whose name is decoded is read; another one ends the section. -/
theorem readRecord_eq (hname : GoodName data off r.steps consumed)
    (hin : off + consumed + 10 + r.rdata.length ≤ data.length)
    (hrtype : be16 data (off + consumed) = some r.rtype)
    (httl : be32 data (off + consumed + 4) = some r.ttl)
    (hrdlength : be16 data (off + consumed + 8) = some r.rdata.length) :
  readRecord data off = some (if r.steps ≤ 16 then
    some { rtype := r.rtype, ttl := r.ttl, rdlength := r.rdata.length, rdata := off + consumed + 10 }
    else none)
  := by
  obtain ⟨name, hpos, hdecode⟩ := hname.decodeName
  unfold readRecord
  rw [if_neg (by omega), hdecode]
  dsimp only
  by_cases hsteps : r.steps ≤ 16
  · rw [if_pos hsteps, if_pos hsteps]
    dsimp only
    rw [if_neg (by omega), if_neg (by omega), hrtype, httl, hrdlength]
    simp only [Option.bind_eq_bind, Option.bind_some]
    rw [if_neg (by omega)]
  · rw [if_neg hsteps, if_neg hsteps, if_pos (show Decoded.failed.consumed = 0 from rfl)]

/-- Four bytes of a message are read the same way from a copy of them. -/
theorem be32_take_drop (off : ℕ) :
  be32 ((data.drop off).take 4) 0 = be32 data off
  := by
  simp only [be32, be16, getElem?_take, getElem?_drop]
  norm_num

/-- A record adds its address while there is room. -/
theorem addRecord_ips (hin : off + consumed + 10 + r.rdata.length ≤ data.length)
    (hrdata : (data.drop (off + consumed + 10)).take r.rdata.length = r.rdata)
    (result : DnsResult) :
  ∃ result', addRecord data
      { rtype := r.rtype, ttl := r.ttl, rdlength := r.rdata.length, rdata := off + consumed + 10 }
      result = some result' ∧
    result'.ips = if result.ips.length < maxDnsResults then
      result.ips ++ (r.address?).toList else result.ips
  := by
  unfold addRecord Record.address?
  by_cases ha : r.rtype = dnsTypeA ∧ r.rdata.length = 4
  · obtain ⟨ip, hip⟩ := be32_isSome data (i := off + consumed + 10) (by omega)
    have hcopy : be32 r.rdata 0 = some ip := by
      rw [← hrdata, ha.2, be32_take_drop, hip]
    rw [if_pos ha, if_pos ha, hcopy, hip]
    exact ⟨_, rfl, rfl⟩
  · rw [if_neg ha, if_neg ha]
    use result, rfl
    simp

/-- The addresses of the records before the first whose name is not decoded. -/
def legibleAddresses (records : List Record) : List ℕ :=
  addresses (records.takeWhile fun r => decide (r.steps ≤ 16))

theorem parseAnswers_ips (h : RecordsAt data off records) {result : DnsResult}
    (hroom : result.ips.length ≤ maxDnsResults) :
  ∃ result', parseAnswers data records.length off result = some result' ∧
    result'.ips = (result.ips ++ legibleAddresses records).take maxDnsResults
  := by
  induction h generalizing result with
  | nil =>
    use result, rfl
    simp [legibleAddresses, addresses, take_of_length_le hroom]
  | @cons off consumed r records hname hin hrtype httl hrdlength hrdata hrest ih =>
    have hread := readRecord_eq hname hin hrtype httl hrdlength
    rw [length_cons, parseAnswers, hread]
    by_cases hsteps : r.steps ≤ 16
    · rw [if_pos hsteps]
      dsimp only
      obtain ⟨result₁, hadd, hips⟩ := addRecord_ips hin hrdata result
      have hlen : result₁.ips.length ≤ maxDnsResults := by
        rw [hips]
        split_ifs with hfree
        · have haddr : (r.address?).toList.length ≤ 1 := Option.length_toList_le
          rw [length_append]
          omega
        · exact hroom
      obtain ⟨result', hresult', hips'⟩ := ih hlen
      rw [hadd]
      use result', hresult'
      have hlegible : legibleAddresses (r :: records) =
          (r.address?).toList ++ legibleAddresses records := by
        unfold legibleAddresses addresses
        rw [takeWhile_cons_of_pos (by simpa using hsteps), filterMap_cons]
        cases r.address? with
        | none => rfl
        | some ip => rfl
      rw [hips', hips, hlegible]
      split_ifs with hfree
      · rw [append_assoc]
      · rw [take_append_of_le_length (by omega), take_append_of_le_length (by omega)]
    · rw [if_neg hsteps]
      use result, rfl
      have hlegible : legibleAddresses (r :: records) = [] := by
        unfold legibleAddresses addresses
        rw [takeWhile_cons_of_neg (by simpa using hsteps)]
        rfl
      rw [hlegible, append_nil, take_of_length_le hroom]

/-- What `parse_response` finds in a well-formed answer. -/
theorem parseResponse_ips {txnId : ℕ} (h : WellFormed data txnId questions records) :
  (parseResponse data txnId).map Parsed.ips =
    some (if ∀ steps ∈ questions, steps ≤ 16 then (legibleAddresses records).take maxDnsResults
      else [])
  := by
  obtain ⟨flags, hflags, hqr⟩ := h.response
  obtain ⟨low, hlow, hrcode⟩ := h.noError
  obtain ⟨last, hquestions, hrecords⟩ := h.sections
  have hheader : parseHeader data txnId =
      some (.ok { qdcount := questions.length, ancount := records.length }) := by
    unfold parseHeader
    rw [if_neg (Nat.not_lt.mpr h.header), h.txnId, hflags, hlow, h.qdcount, h.ancount]
    simp only [Option.bind_eq_bind, Option.bind_some]
    rw [if_neg (not_not.mpr rfl), if_neg hqr, if_neg (not_not.mpr hrcode)]
  have hroom : ({ ips := [], ttl := ttlMax } : DnsResult).ips.length ≤ maxDnsResults := Nat.zero_le _
  obtain ⟨result, hresult, hips⟩ := parseAnswers_ips hrecords hroom
  unfold parseResponse
  rw [hheader]
  dsimp only
  rw [skipQuestions_eq hquestions]
  split_ifs with hall
  · dsimp only
    rw [hresult]
    rw [nil_append] at hips
    rw [← hips]
    dsimp only
    unfold finishResponse
    by_cases hempty : result.ips.length = 0
    · rw [if_pos hempty, length_eq_zero_iff.mp hempty]
      rfl
    · rw [if_neg hempty]
      rfl
  · rfl

/-! ## When the addresses are found -/

theorem addresses_append (xs ys : List Record) :
  addresses (xs ++ ys) = addresses xs ++ addresses ys
  := filterMap_append

theorem addresses_cons_of_isSome (h : r.address?.isSome) (ys : List Record) :
  ∃ ip, addresses (r :: ys) = ip :: addresses ys
  := by
  obtain ⟨ip, hip⟩ := Option.isSome_iff_exists.mp h
  exact ⟨ip, filterMap_cons_some hip⟩

/-- An A record that is reached with room left makes the list longer. -/
theorem length_lt_of_reached (ys : List Record) (hr : r.address?.isSome)
    (hxs : (addresses xs).length < maxDnsResults) :
  (addresses xs).length < ((addresses (xs ++ r :: ys)).take maxDnsResults).length
  := by
  obtain ⟨ip, hip⟩ := addresses_cons_of_isSome hr ys
  rw [addresses_append, hip, length_take, length_append, length_cons]
  omega

theorem takeWhile_prefix_of_not {p : Record → Bool} {ys : List Record} (h : ∃ r ∈ xs, p r = false) :
  (xs ++ ys).takeWhile p = xs.takeWhile p
  := by
  induction xs with
  | nil => simp at h
  | cons x xs ih =>
    rw [cons_append]
    cases hx : p x with
    | false =>
      rw [takeWhile_cons_of_neg (by simp [hx]), takeWhile_cons_of_neg (by simp [hx])]
    | true =>
      rw [takeWhile_cons_of_pos hx, takeWhile_cons_of_pos hx]
      congr 1
      apply ih
      obtain ⟨r, hr, hpr⟩ := h
      obtain rfl | hr := mem_cons.mp hr
      · rw [hx] at hpr
        cases hpr
      · exact ⟨r, hr, hpr⟩

/-- A name that is not decoded hides all addresses from there on. -/
theorem length_legibleAddresses_le (ys : List Record) (h : ∃ r' ∈ xs ++ [r], ¬ r'.steps ≤ 16) :
  (legibleAddresses (xs ++ r :: ys)).length ≤ (addresses xs).length
  := by
  obtain ⟨r', hr', hsteps⟩ := h
  have hbad : (fun r : Record => decide (r.steps ≤ 16)) r' = false := by simpa using hsteps
  have hsplit : xs ++ r :: ys = xs ++ [r] ++ ys := by simp
  have htake : (xs ++ [r]).takeWhile (fun r => decide (r.steps ≤ 16)) =
      xs.takeWhile (fun r => decide (r.steps ≤ 16)) := by
    obtain hxs | hr := mem_append.mp hr'
    · exact takeWhile_prefix_of_not ⟨r', hxs, hbad⟩
    rw [mem_singleton.mp hr] at hbad
    by_cases hall : ∃ r ∈ xs, decide (r.steps ≤ 16) = false
    · exact takeWhile_prefix_of_not hall
    have hgood : ∀ r ∈ xs, decide (r.steps ≤ 16) = true := by
      intro r hr
      by_contra hne
      exact hall ⟨r, hr, by simpa using hne⟩
    have hself := takeWhile_eq_self_iff.mpr hgood
    rw [takeWhile_append_of_pos hgood, takeWhile_cons_of_neg (by simpa using hbad), append_nil, hself]
  unfold legibleAddresses
  rw [hsplit, takeWhile_prefix_of_not ⟨r', hr', hbad⟩, htake]
  exact ((List.takeWhile_prefix _).filterMap _).length_le

/-- The first A record of a list that has one. -/
theorem exists_first_address (h : addresses records ≠ []) :
  ∃ xs r ys, records = xs ++ r :: ys ∧ addresses xs = [] ∧ r.address?.isSome
  := by
  induction records with
  | nil => exact absurd rfl h
  | cons r records ih =>
    cases hr : r.address? with
    | some ip => exact ⟨[], r, records, rfl, rfl, by rw [hr]; rfl⟩
    | none =>
      have hskip : ∀ l, addresses (r :: l) = addresses l := fun l => filterMap_cons_none hr
      rw [hskip] at h
      obtain ⟨xs, r', ys, rfl, hxs, hr'⟩ := ih h
      exact ⟨r :: xs, r', ys, rfl, by rw [hskip, hxs], hr'⟩

/-- With legible names, the records that are read hold the first addresses. -/
theorem take_legibleAddresses (h : Legible questions records) :
  (legibleAddresses records).take maxDnsResults = (addresses records).take maxDnsResults
  := by
  unfold legibleAddresses
  have hsplit := takeWhile_append_dropWhile (p := fun r : Record => decide (r.steps ≤ 16))
    (l := records)
  have hhead := head?_dropWhile_not (fun r : Record => decide (r.steps ≤ 16)) records
  generalize records.takeWhile (fun r => decide (r.steps ≤ 16)) = good at *
  generalize records.dropWhile (fun r => decide (r.steps ≤ 16)) = rest at *
  subst hsplit
  by_cases hfull : maxDnsResults ≤ (addresses good).length
  · rw [addresses_append, take_append_of_le_length hfull]
  -- An A record in the rest would be reached with room left, across a name that is not legible.
  have hnone : addresses rest = [] := by
    by_contra hne
    obtain ⟨xs, r, ys, rfl, hxs, hr⟩ := exists_first_address hne
    have hnames := (h (good ++ xs) r ys (by rw [append_assoc]) hr
      (by rw [addresses_append, hxs, append_nil]; omega)).2
    cases xs with
    | nil => exact absurd (hnames r (by simp)) (by simpa using hhead)
    | cons b xs => exact absurd (hnames b (by simp)) (by simpa using hhead)
  rw [addresses_append, hnone, append_nil]

/-- `parse_response` returns the first four addresses of a well-formed answer exactly if the names in
front of them are legible. -/
theorem parseResponse_ips_iff {txnId : ℕ} (h : WellFormed data txnId questions records) :
  (parseResponse data txnId).map Parsed.ips = some ((addresses records).take maxDnsResults) ↔
    Legible questions records
  := by
  rw [parseResponse_ips h, Option.some_inj]
  constructor
  · intro heq xs r ys hrecords hr hxs
    have hreached := length_lt_of_reached ys hr hxs
    rw [← hrecords, ← heq] at hreached
    split_ifs at hreached with hquestions
    · use hquestions
      by_contra hbad
      push Not at hbad
      obtain ⟨r', hr', hsteps⟩ := hbad
      have hhidden := length_legibleAddresses_le ys ⟨r', hr', Nat.not_le.mpr hsteps⟩
      rw [← hrecords] at hhidden
      rw [length_take] at hreached
      omega
    · exact absurd hreached (Nat.not_lt_zero _)
  · intro hlegible
    split_ifs with hquestions
    · exact take_legibleAddresses hlegible
    -- A question that is not legible stands in front of every A record.
    by_contra hne
    have hsome : addresses records ≠ [] := by
      intro hnil
      rw [hnil] at hne
      exact hne rfl
    obtain ⟨xs, r, ys, hrecords, hxs, hr⟩ := exists_first_address hsome
    exact hquestions (hlegible xs r ys hrecords hr (by rw [hxs]; decide)).1

/-- An answer all of whose names take at most 16 labels and pointers is legible. -/
theorem legible_of_forall (hquestions : ∀ steps ∈ questions, steps ≤ 16)
    (hrecords : ∀ r ∈ records, r.steps ≤ 16) :
  Legible questions records
  := by
  rintro xs r ys rfl _ _
  refine ⟨hquestions, fun r' hr' => hrecords r' ?_⟩
  rw [mem_append, mem_singleton] at hr'
  rw [mem_append, mem_cons]
  tauto

/-! ## A response -/

/-- What follows the name in the question of the sample response: the rest of the question, and an A
record whose name is a pointer to the question. -/
def sampleTail : List Byte :=
  [0, 1, 0, 1, 0xC0, 12, 0, 1, 0, 1, 0, 0, 0, 60, 0, 4, 10, 0, 2, 2]

/-- The response with identifier 1 to a query for the address of a name. -/
def sampleResponse (labels : List (List Byte)) : List Byte :=
  [0, 1, 0x81, 0x80, 0, 1, 0, 1, 0, 0, 0, 0] ++ wire labels ++ sampleTail

/-- The record in it. -/
def sampleRecord (labels : List (List Byte)) : Record where
  steps := labels.length + 1
  rtype := 1
  ttl := 60
  rdata := [10, 0, 2, 2]

theorem sampleResponse_getElem? (labels : List (List Byte)) (k : ℕ) :
  (sampleResponse labels)[12 + (wire labels).length + k]? = sampleTail[k]?
  := by
  unfold sampleResponse
  rw [getElem?_append_right, length_append]
  · congr 1
    simp
  · rw [length_append]
    exact Nat.le_add_right _ _

theorem sampleResponse_wellFormed {labels : List (List Byte)}
    (hlabels : ∀ label ∈ labels, IsLabel label) (hwire : (wire labels).length ≤ 255) :
  WellFormed (sampleResponse labels) 1 [labels.length] [sampleRecord labels]
  := by
  have hname : NameAt (sampleResponse labels) 12 labels labels.length (wire labels).length :=
    nameAt_wire hlabels _ _
  have hlength : (sampleResponse labels).length = 12 + (wire labels).length + 20 := by
    unfold sampleResponse
    rw [length_append, length_append]
    rfl
  have hget := sampleResponse_getElem? labels
  have hbe16 : ∀ k, be16 (sampleResponse labels) (12 + (wire labels).length + k) =
      be16 sampleTail k := by
    intro k
    unfold be16
    rw [hget, Nat.add_assoc (12 + (wire labels).length), hget]
  have hbe32 : ∀ k, be32 (sampleResponse labels) (12 + (wire labels).length + k) =
      be32 sampleTail k := by
    intro k
    unfold be32
    rw [hbe16, Nat.add_assoc (12 + (wire labels).length), hbe16]
  have hpointer : NameAt (sampleResponse labels) (12 + (wire labels).length + 4) labels
      (labels.length + 1) 2 := by
    apply NameAt.pointer (hget 4) (hget 5) (by decide) _ hname
    change 12 < 12 + (wire labels).length + 4
    omega
  refine ⟨?_, rfl, ⟨_, rfl, by decide⟩, ⟨_, rfl, by decide⟩, rfl, rfl,
    12 + (wire labels).length + 4, ?_, ?_⟩
  · rw [hlength]
    exact (Nat.le_add_right 12 _).trans (Nat.le_add_right _ _)
  · refine .cons ⟨labels, hname, hwire⟩ ?_ .nil
    rw [hlength]
    exact Nat.add_le_add_left (by decide) _
  · have hgood : GoodName (sampleResponse labels) (12 + (wire labels).length + 4)
        (sampleRecord labels).steps 2 := ⟨labels, hpointer, hwire⟩
    refine .cons hgood ?_ (hbe16 6) (hbe32 10) (hbe16 14) ?_ .nil
    · rw [hlength]
      exact le_rfl
    change ((sampleResponse labels).drop (12 + (wire labels).length + 16)).take 4 = _
    apply ext_getElem?
    intro k
    rw [getElem?_take, getElem?_drop, Nat.add_assoc (12 + (wire labels).length), hget]
    split_ifs with hk
    · rw [Nat.add_comm]
      rfl
    · exact (getElem?_eq_none (Nat.not_lt.mp hk)).symm

/-- A name of seventeen labels of one byte. -/
def deepLabels : List (List Byte) := replicate 17 [0x61]

theorem isLabel_singleton {b : Byte} (h : b ≠ dot) :
  IsLabel [b]
  := ⟨Nat.one_pos, Nat.le_of_ble_eq_true rfl, by simpa using Ne.symm h⟩

theorem isLabel_deepLabels :
  ∀ label ∈ deepLabels, IsLabel label
  := by
  intro label hlabel
  rw [eq_of_mem_replicate hlabel]
  exact isLabel_singleton (by decide)

/-! ## Names and responses -/

/-- A host name that was encoded is decoded exactly if it has at most 16 labels, both parsers stay
inside of every message, and `parse_response` returns the first four addresses of a well-formed answer
exactly if the names in front of them take at most 16 labels and pointers. -/
theorem names_roundTrip_and_responses_parse (hostname : List Byte) (labels : List (List Byte)) (room : ℕ)
    (data : List Byte) (txnId : ℕ) (questions : List ℕ) (records : List Record) :
  (Hostname hostname labels → (dotted labels).length + 2 ≤ room →
      ∃ written, encodeHostname hostname room = some written ∧ ∀ before after,
        (decodeName (before ++ written ++ after) before.length =
            some { name := dotted labels, consumed := written.length } ↔
          labels.length ≤ 16)) ∧
    ((∃ parsed, parseResponse data txnId = some parsed) ∧
      ∃ parsed, parsePtrResponse data txnId = some parsed) ∧
    (WellFormed data txnId questions records →
      ((parseResponse data txnId).map Parsed.ips = some ((addresses records).take maxDnsResults) ↔
        Legible questions records))
  := by
  refine ⟨?_, ?_, ?_⟩
  · intro h hroom
    have hwritten := encodeHostname_eq h hroom
    exact ⟨wire labels, hwritten, fun before after => decodeName_wire_iff h before after⟩
  · exact ⟨parseResponse_isSome data txnId, parsePtrResponse_isSome data txnId⟩
  · exact fun h => parseResponse_ips_iff h

/-- The name `ab.c.`, with a dot at its end, and the response to the query for it. -/
theorem roundTrip_and_parse_sample :
  encodeHostname [0x61, 0x62, 0x2E, 0x63, 0x2E] 255 = some (wire [[0x61, 0x62], [0x63]]) ∧
    decodeName (wire [[0x61, 0x62], [0x63]]) 0 = some { name := [0x61, 0x62, 0x2E, 0x63], consumed := 6 } ∧
    (parseResponse (sampleResponse [[0x61, 0x62], [0x63]]) 1).map Parsed.ips = some [0x0A000202]
  := by
  have hlabels : ∀ label ∈ [[(0x61 : Byte), 0x62], [0x63]], IsLabel label := by
    rintro label hlabel
    obtain rfl | rfl : label = [0x61, 0x62] ∨ label = [0x63] := by simpa using hlabel
    · exact ⟨by decide, by decide, by decide⟩
    · exact isLabel_singleton (by decide)
  have hhost : Hostname [0x61, 0x62, 0x2E, 0x63, 0x2E] [[0x61, 0x62], [0x63]] :=
    ⟨by simp, hlabels, .inr (by decide), by decide⟩
  have hwell := sampleResponse_wellFormed hlabels (by decide)
  obtain ⟨hnames, -, hparse⟩ :=
    names_roundTrip_and_responses_parse _ _ 255 (sampleResponse [[0x61, 0x62], [0x63]]) 1 _ _
  obtain ⟨written, hwritten, hdecode⟩ := hnames hhost (by decide)
  obtain rfl : written = wire [[0x61, 0x62], [0x63]] := Option.some.inj (hwritten.symm.trans (by decide))
  have hdecoded := (hdecode [] []).mpr (by decide)
  rw [append_nil] at hdecoded
  exact ⟨hwritten, hdecoded, (hparse hwell).mpr (legible_of_forall (by decide) (by decide))⟩

/-- A host name that is encoded and not decoded again, and a well-formed answer to the query for it in
which the address is not found. -/
theorem deep_name_is_lost :
  Hostname (dotted deepLabels) deepLabels ∧
    encodeHostname (dotted deepLabels) 276 = some (wire deepLabels) ∧
    decodeName (wire deepLabels) 0 = some .failed ∧
    WellFormed (sampleResponse deepLabels) 1 [17] [sampleRecord deepLabels] ∧
    addresses [sampleRecord deepLabels] = [0x0A000202] ∧
    parseResponse (sampleResponse deepLabels) 1 = some .mismatch
  := by
  refine ⟨⟨by decide, isLabel_deepLabels, .inl rfl, by decide⟩, ?_, ?_, ?_, ?_, ?_⟩
  · decide +kernel
  · decide +kernel
  · exact sampleResponse_wellFormed isLabel_deepLabels (by decide)
  · decide +kernel
  · decide +kernel

end SaltyOS.Dns
