import Mathlib.Algebra.Group.Nat.Defs
import Mathlib.Data.List.Basic

/-!
# DNS messages

The coding of host names, the queries that are sent, and the parsing of responses.

A slice is a list of bytes.  A function that indexes into a slice returns an `Option`, and `none` means
that an index was out of range.  The buffers that the source fills from their start on are lists too,
namely of the bytes written so far.
-/

namespace SaltyOS.Dns

/-- A byte. -/
abbrev Byte : Type := BitVec 8

/-- `DNS_HEADER_LEN`. -/
def dnsHeaderLen : ℕ := 12

/-- `DNS_MAX_QUERY_LEN`. -/
def dnsMaxQueryLen : ℕ := 288

/-- `MAX_DNS_RESULTS`. -/
def maxDnsResults : ℕ := 4

/-- `DNS_TYPE_A`. -/
def dnsTypeA : ℕ := 1

/-- `DNS_TYPE_PTR`. -/
def dnsTypePtr : ℕ := 12

/-- The byte between two labels of a host name. -/
def dot : Byte := 0x2E

/-! ## Queries -/

/-- The loop of `encode_hostname` from some position on: `label` are the bytes since the last dot,
`out` the bytes written, and `room` is the length of the buffer. -/
def encodeLoop (room : ℕ) (label out : List Byte) : List Byte → Option (List Byte)
  | [] =>
    if label.length > 63 then none
    else if label.length > 0 then
      if out.length + 1 + label.length > room then none
      else some (out ++ BitVec.ofNat 8 label.length :: label)
    else some out
  | b :: rest =>
    if b = dot then
      if label.length = 0 then none
      else if label.length > 63 then none
      else if out.length + 1 + label.length > room then none
      else encodeLoop room [] (out ++ BitVec.ofNat 8 label.length :: label) rest
    else encodeLoop room (label ++ [b]) out rest

/-- `encode_hostname` into a buffer of `room` bytes: the bytes it writes, or `none` where it
returns 0. -/
def encodeHostname (hostname : List Byte) (room : ℕ) : Option (List Byte) :=
  if hostname.isEmpty ∨ hostname.length > 253 then none
  else
    match encodeLoop room [] [] hostname with
    | none => none
    | some out => if out.length ≥ room then none else some (out ++ [0])

/-- The header of a query: its identifier, the recursion flag, and one question. -/
def queryHeader (txnId : BitVec 16) : List Byte :=
  [(txnId >>> 8).setWidth 8, txnId.setWidth 8, 0x01, 0x00, 0, 1, 0, 0, 0, 0, 0, 0]

/-- The query for a name: what `build_query` and `build_ptr_query` have in common. -/
def buildQueryOf (qtype : ℕ) (hostname : List Byte) (txnId : BitVec 16) : Option (List Byte) :=
  match encodeHostname hostname (dnsMaxQueryLen - dnsHeaderLen) with
  | none => none
  | some qname =>
    if dnsHeaderLen + qname.length + 4 > dnsMaxQueryLen then none
    else some (queryHeader txnId ++ qname ++ [0, BitVec.ofNat 8 qtype, 0, 1])

/-- `build_query`. -/
def buildQuery (hostname : List Byte) (txnId : BitVec 16) : Option (List Byte) :=
  buildQueryOf dnsTypeA hostname txnId

/-- `write_decimal`, into a buffer that has room for three digits. -/
def writeDecimal (val : Byte) : List Byte :=
  if val.toNat ≥ 100 then [0x30 + val / 100, 0x30 + val / 10 % 10, 0x30 + val % 10]
  else if val.toNat ≥ 10 then [0x30 + val / 10, 0x30 + val % 10]
  else [0x30 + val]

/-- The bytes of `.in-addr.arpa`. -/
def ptrSuffix : List Byte :=
  [0x2E, 0x69, 0x6E, 0x2D, 0x61, 0x64, 0x64, 0x72, 0x2E, 0x61, 0x72, 0x70, 0x61]

/-- The name that `build_ptr_query` asks for. -/
def ptrHostname (ip : BitVec 32) : List Byte :=
  writeDecimal (ip.setWidth 8) ++ dot :: writeDecimal ((ip >>> 8).setWidth 8) ++
    dot :: writeDecimal ((ip >>> 16).setWidth 8) ++ dot :: writeDecimal ((ip >>> 24).setWidth 8) ++
    ptrSuffix

/-- `build_ptr_query`. -/
def buildPtrQuery (ip : BitVec 32) (txnId : BitVec 16) : Option (List Byte) :=
  buildQueryOf dnsTypePtr (ptrHostname ip) txnId

/-! ## Names in a message -/

/-- What `decode_name` returns: the name it wrote and the number of bytes it consumed. -/
structure Decoded where
  name : List Byte
  consumed : ℕ
  deriving DecidableEq, Repr

/-- The return value `(0, 0)`. -/
def Decoded.failed : Decoded where
  name := []
  consumed := 0

/-- The dot before a label, except before the first; `none` where the name gets too long. -/
def addDot (out : List Byte) : Option (List Byte) :=
  if out.length > 0 then
    if out.length ≥ 256 then none else some (out ++ [dot])
  else some out

/-- Copy `n` bytes from a position on. The inner `none` is a name that gets too long. -/
def copyLabel (data out : List Byte) (pos : ℕ) : ℕ → Option (Option (List Byte))
  | 0 => some (some out)
  | n + 1 =>
    if out.length ≥ 256 then some none
    else
      match data[pos]? with
      | none => none
      | some b => copyLabel data (out ++ [b]) (pos + 1) n

/-- The offset in a compression pointer. -/
def pointerTarget (hi lo : Byte) : ℕ := ((hi &&& 0x3F).toNat <<< 8) ||| lo.toNat

/-- The loop of `decode_name`, where `rounds` are the rounds that `depth` still allows. -/
def decodeLoop (data : List Byte) :
    (rounds offset : ℕ) → (out : List Byte) → (consumed : ℕ) → (followedPointer : Bool) → Option Decoded
  | 0, _, _, _, _ => some .failed
  | rounds + 1, offset, out, consumed, followedPointer =>
    if offset ≥ data.length then some .failed
    else
      match data[offset]? with
      | none => none
      | some labelLen =>
        if labelLen = 0 then
          some { name := out, consumed := if followedPointer then consumed else consumed + 1 }
        else if labelLen &&& 0xC0 = 0xC0 then
          if offset + 1 ≥ data.length then some .failed
          else
            match data[offset + 1]? with
            | none => none
            | some lo =>
              decodeLoop data rounds (pointerTarget labelLen lo) out
                (if followedPointer then consumed else consumed + 2) true
        else if offset + 1 + labelLen.toNat > data.length then some .failed
        else
          match addDot out with
          | none => some .failed
          | some out =>
            match copyLabel data out (offset + 1) labelLen.toNat with
            | none => none
            | some none => some .failed
            | some (some out) =>
              decodeLoop data rounds (offset + 1 + labelLen.toNat) out
                (if followedPointer then consumed else consumed + (1 + labelLen.toNat))
                followedPointer

/-- The rounds that `decode_name` takes at most: `depth` is at most 16. -/
def maxRounds : ℕ := 17

variable (data : List Byte)

/-- `decode_name`. -/
def decodeName (offset : ℕ) : Option Decoded :=
  decodeLoop data maxRounds offset [] 0 false

/-! ## Responses -/

/-- Two bytes, the higher one first. -/
def be16 (i : ℕ) : Option ℕ :=
  match data[i]?, data[i + 1]? with
  | some hi, some lo => some (hi.toNat <<< 8 ||| lo.toNat)
  | _, _ => none

/-- Four bytes, the highest one first. -/
def be32 (i : ℕ) : Option ℕ :=
  match be16 data i, be16 data (i + 2) with
  | some hi, some lo => some (hi <<< 16 ||| lo)
  | _, _ => none

/-- The outcome of parsing a response. -/
inductive Parsed (α : Type) where
  /-- Not a response to the query, or malformed. -/
  | mismatch
  | ok (a : α)
  /-- A definite error of the server. -/
  | error (rcode : Byte)
  deriving DecidableEq, Repr

/-- The numbers of questions and of answers. -/
structure Counts where
  qdcount : ℕ
  ancount : ℕ
  deriving DecidableEq, Repr

/-- The checks on the header that both parsers start with. -/
def parseHeader (expectedTxnId : ℕ) : Option (Parsed Counts) :=
  if data.length < dnsHeaderLen then some .mismatch
  else do
    let txnId ← be16 data 0
    if txnId ≠ expectedTxnId then some .mismatch
    else do
      let flags ← be16 data 2
      if flags &&& 0x8000 = 0 then some .mismatch
      else do
        let low ← data[3]?
        if low &&& 0x0F ≠ 0 then some (.error (low &&& 0x0F))
        else do
          let qdcount ← be16 data 4
          let ancount ← be16 data 6
          some (.ok { qdcount, ancount })

/-- Skip the question section. The inner `none` is a malformed section. -/
def skipQuestions (data : List Byte) : (count offset : ℕ) → Option (Option ℕ)
  | 0, offset => some (some offset)
  | count + 1, offset =>
    match decodeName data offset with
    | none => none
    | some decoded =>
      if decoded.consumed = 0 then some none
      else if offset + decoded.consumed + 4 > data.length then some none
      else skipQuestions data count (offset + decoded.consumed + 4)

/-- The fixed part of an answer record, and where its data is. -/
structure RecordHeader where
  rtype : ℕ
  ttl : ℕ
  rdlength : ℕ
  rdata : ℕ
  deriving DecidableEq, Repr

/-- Read an answer record up to its data. The inner `none` ends the answer section. -/
def readRecord (offset : ℕ) : Option (Option RecordHeader) :=
  if offset ≥ data.length then some none
  else
    match decodeName data offset with
    | none => none
    | some decoded =>
      if decoded.consumed = 0 then some none
      else if offset + decoded.consumed + 10 > data.length then some none
      else do
        let rtype ← be16 data (offset + decoded.consumed)
        let ttl ← be32 data (offset + decoded.consumed + 4)
        let rdlength ← be16 data (offset + decoded.consumed + 8)
        if offset + decoded.consumed + 10 + rdlength > data.length then some none
        else some (some { rtype, ttl, rdlength, rdata := offset + decoded.consumed + 10 })

/-- A `DnsResult`: the addresses found, and the time to live. -/
structure DnsResult where
  ips : List ℕ
  ttl : ℕ
  deriving DecidableEq, Repr

/-- What a record adds to the result. -/
def addRecord (r : RecordHeader) (result : DnsResult) : Option DnsResult :=
  if r.rtype = dnsTypeA ∧ r.rdlength = 4 then
    match be32 data r.rdata with
    | none => none
    | some ip =>
      some
        { ips := if result.ips.length < maxDnsResults then result.ips ++ [ip] else result.ips
          ttl := if r.ttl < result.ttl then r.ttl else result.ttl }
  else some result

/-- The loop of `parse_response` over the answer records. -/
def parseAnswers (data : List Byte) : (count offset : ℕ) → DnsResult → Option DnsResult
  | 0, _, result => some result
  | count + 1, offset, result =>
    match readRecord data offset with
    | none => none
    | some none => some result
    | some (some r) =>
      match addRecord data r result with
      | none => none
      | some result => parseAnswers data count (r.rdata + r.rdlength) result

/-- The greatest time to live, which stands for no time at all. -/
def ttlMax : ℕ := 2 ^ 32 - 1

/-- The end of `parse_response`. -/
def finishResponse (result : DnsResult) : Parsed DnsResult :=
  if result.ips.length = 0 then .mismatch
  else .ok { result with ttl := if result.ttl = ttlMax then 300 else result.ttl }

/-- `parse_response`. -/
def parseResponse (expectedTxnId : ℕ) : Option (Parsed DnsResult) :=
  match parseHeader data expectedTxnId with
  | none => none
  | some .mismatch => some .mismatch
  | some (.error rcode) => some (.error rcode)
  | some (.ok counts) =>
    match skipQuestions data counts.qdcount dnsHeaderLen with
    | none => none
    | some none => some .mismatch
    | some (some offset) =>
      match parseAnswers data counts.ancount offset { ips := [], ttl := ttlMax } with
      | none => none
      | some result => some (finishResponse result)

/-- The loop of `parse_ptr_response` over the answer records. -/
def parsePtrAnswers (data : List Byte) : (count offset : ℕ) → Option (Parsed (List Byte))
  | 0, _ => some .mismatch
  | count + 1, offset =>
    match readRecord data offset with
    | none => none
    | some none => some .mismatch
    | some (some r) =>
      if r.rtype = dnsTypePtr then
        match decodeName data r.rdata with
        | none => none
        | some decoded =>
          if decoded.name.length > 0 then some (.ok decoded.name)
          else parsePtrAnswers data count (r.rdata + r.rdlength)
      else parsePtrAnswers data count (r.rdata + r.rdlength)

/-- `parse_ptr_response`. -/
def parsePtrResponse (expectedTxnId : ℕ) : Option (Parsed (List Byte)) :=
  match parseHeader data expectedTxnId with
  | none => none
  | some .mismatch => some .mismatch
  | some (.error rcode) => some (.error rcode)
  | some (.ok counts) =>
    match skipQuestions data counts.qdcount dnsHeaderLen with
    | none => none
    | some none => some .mismatch
    | some (some offset) => parsePtrAnswers data counts.ancount offset

end SaltyOS.Dns
