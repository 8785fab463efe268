import Mathlib.Data.List.GetD
import Mathlib.Data.Nat.ModEq
import SaltyOS.Tcp.System

/-!
# Packets on the wire

The headers of IPv4, TCP and UDP as bytes, with the builders and the parsers of the network server. A
checksum is the complement of a sum of 16-bit words that is folded to 16 bits. Folding keeps the sum
modulo `2 ^ 16 - 1`, so a packet that contains the complement of the rest has the checksum zero.
-/

namespace SaltyOS.Wire

open Tcp (Byte)

/-! ## Numbers -/

/-- The bytes of a number, the most significant one first. -/
def bytes16 (x : BitVec 16) : List Byte := [(x >>> 8).setWidth 8, x.setWidth 8]

/-- The four bytes of a number. -/
def bytes32 (x : BitVec 32) : List Byte :=
  [(x >>> 24).setWidth 8, (x >>> 16).setWidth 8, (x >>> 8).setWidth 8, x.setWidth 8]

/-- The number at a position of a packet. -/
def field16 (data : List Byte) (i : ℕ) : BitVec 16 :=
  ((data.getD i 0).setWidth 16 <<< 8) ||| (data.getD (i + 1) 0).setWidth 16

/-- The number in four bytes from a position on. -/
def field32 (data : List Byte) (i : ℕ) : BitVec 32 :=
  ((data.getD i 0).setWidth 32 <<< 24) ||| ((data.getD (i + 1) 0).setWidth 32 <<< 16)
    ||| ((data.getD (i + 2) 0).setWidth 32 <<< 8) ||| (data.getD (i + 3) 0).setWidth 32

/-- A number is put together from its bytes. -/
theorem join16 (x : BitVec 16) :
  (((x >>> 8).setWidth 8).setWidth 16 <<< 8) ||| (x.setWidth 8).setWidth 16 = x
  := by
  ext i hi
  simp
  grind

/-- A number is put together from its four bytes. -/
theorem join32 (x : BitVec 32) :
  (((x >>> 24).setWidth 8).setWidth 32 <<< 24) ||| (((x >>> 16).setWidth 8).setWidth 32 <<< 16)
    ||| (((x >>> 8).setWidth 8).setWidth 32 <<< 8) ||| (x.setWidth 8).setWidth 32 = x
  := by
  ext i hi
  simp
  grind

/-! ## Checksums -/

/-- The loop over the 16-bit words, with the odd byte at the end. -/
def addWords (sum : BitVec 32) : List Byte → BitVec 32
  | a :: b :: data => addWords (sum + ((a.setWidth 32 <<< 8) ||| b.setWidth 32)) data
  | [a] => sum + (a.setWidth 32 <<< 8)
  | [] => sum

/-- The carries are added to the low 16 bits. -/
def addCarries (sum : BitVec 32) : BitVec 32 := (sum &&& 0xFFFF#32) + (sum >>> 16)

theorem toNat_low (x : BitVec 32) :
  (x &&& 0xFFFF#32).toNat = x.toNat % 2 ^ 16
  := Nat.and_two_pow_sub_one_eq_mod x.toNat 16

theorem toNat_high (x : BitVec 32) :
  (x >>> 16).toNat = x.toNat / 2 ^ 16
  := by
  rw [BitVec.toNat_ushiftRight, Nat.shiftRight_eq_div_pow]

/-- The carries cannot overflow. -/
theorem toNat_addCarries (sum : BitVec 32) :
  (addCarries sum).toNat = sum.toNat % 2 ^ 16 + sum.toNat / 2 ^ 16
  := by
  have hlt := sum.isLt
  rw [addCarries, BitVec.toNat_add, toNat_low, toNat_high]
  omega

/-- The sum is folded until it has 16 bits. -/
def fold (sum : BitVec 32) : BitVec 32 :=
  if sum >>> 16 = 0#32 then sum else fold (addCarries sum)
termination_by sum.toNat
decreasing_by
  rename_i h
  have hpos : (sum >>> 16).toNat ≠ 0 := fun h0 => h (BitVec.eq_of_toNat_eq h0)
  rw [toNat_high] at hpos
  rw [toNat_addCarries]
  omega

/-- `internet_checksum`. -/
def internetChecksum (data : List Byte) : BitVec 16 :=
  ~~~(fold (addWords 0 data)).setWidth 16

/-- The words of the pseudo-header. -/
def pseudoHeader (src dst : BitVec 32) (protocol : Byte) (length : ℕ) : BitVec 32 :=
  (src >>> 16) + (src &&& 0xFFFF#32) + (dst >>> 16) + (dst &&& 0xFFFF#32) + protocol.setWidth 32
    + BitVec.ofNat 32 length

/-- `transport_checksum`. -/
def transportChecksum (src dst : BitVec 32) (protocol : Byte) (data : List Byte) : BitVec 16 :=
  ~~~(fold (addWords (pseudoHeader src dst protocol data.length) data)).setWidth 16

/-- The checksum is written to its place. -/
def putChecksum (data : List Byte) (i : ℕ) (c : BitVec 16) : List Byte :=
  (data.set i ((c >>> 8).setWidth 8)).set (i + 1) (c.setWidth 8)

@[simp] theorem length_putChecksum (data : List Byte) (i : ℕ) (c : BitVec 16) :
  (putChecksum data i c).length = data.length
  := by
  simp [putChecksum]

/-- The checksum lies in the first part of a packet. -/
theorem putChecksum_append {data : List Byte} {i : ℕ} (h : i + 1 < data.length) (rest : List Byte)
    (c : BitVec 16) :
  putChecksum (data ++ rest) i c = putChecksum data i c ++ rest
  := by
  simp [putChecksum, h, Nat.lt_of_succ_lt h]

/-- The sum of the words of a packet, without a bound. -/
def total : List Byte → ℕ
  | a :: b :: data => a.toNat * 2 ^ 8 + b.toNat + total data
  | [a] => a.toNat * 2 ^ 8
  | [] => 0

/-- A word of two bytes. -/
theorem toNat_word (a b : Byte) :
  ((a.setWidth 32 <<< 8) ||| b.setWidth 32).toNat = a.toNat * 2 ^ 8 + b.toNat
  := by
  have ha := a.isLt
  have hb := b.isLt
  rw [BitVec.toNat_or, BitVec.toNat_shiftLeft, BitVec.toNat_setWidth, BitVec.toNat_setWidth,
    Nat.shiftLeft_eq, Nat.mod_eq_of_lt (by omega : a.toNat < _), Nat.mod_eq_of_lt (by omega),
    Nat.mod_eq_of_lt (by omega), ← Nat.shiftLeft_eq, Nat.shiftLeft_add_eq_or_of_lt hb, Nat.shiftLeft_eq]

/-- A word is at most `2 ^ 16 - 1`. -/
theorem total_le (data : List Byte) :
  total data ≤ (2 ^ 16 - 1) * ((data.length + 1) / 2)
  := by
  fun_induction total data with
  | case1 a b data ih =>
    have ha := a.isLt
    have hb := b.isLt
    simp only [List.length_cons]
    omega
  | case2 a =>
    have ha := a.isLt
    simp only [List.length_cons, List.length_nil]
    omega
  | case3 => simp

/-- An accumulator that is large enough holds the sum. -/
theorem toNat_addWords {sum : BitVec 32} {data : List Byte} (h : sum.toNat + total data < 2 ^ 32) :
  (addWords sum data).toNat = sum.toNat + total data
  := by
  fun_induction addWords sum data with
  | case1 sum a b data ih =>
    have hword := toNat_word a b
    generalize (a.setWidth 32 <<< 8) ||| b.setWidth 32 = word at ih hword ⊢
    simp only [total] at h ⊢
    have hlt : sum.toNat + (a.toNat * 2 ^ 8 + b.toNat) < 2 ^ 32 :=
      Nat.lt_of_le_of_lt (by omega) h
    have hadd : (sum + word).toNat = sum.toNat + (a.toNat * 2 ^ 8 + b.toNat) := by
      rw [BitVec.toNat_add, hword, Nat.mod_eq_of_lt hlt]
    rw [ih (by omega), hadd]
    omega
  | case2 sum a =>
    have hword : (a.setWidth 32 <<< 8).toNat = a.toNat * 2 ^ 8 := by simpa using toNat_word a 0#8
    simp only [total] at h ⊢
    rw [BitVec.toNat_add, hword, Nat.mod_eq_of_lt h]
  | case3 sum => rfl

/-- Folding keeps the sum modulo `2 ^ 16 - 1`, and only zero becomes zero. -/
theorem fold_spec (sum : BitVec 32) :
  (fold sum).toNat < 2 ^ 16 ∧ (fold sum).toNat % (2 ^ 16 - 1) = sum.toNat % (2 ^ 16 - 1)
    ∧ ((fold sum).toNat = 0 ↔ sum.toNat = 0)
  := by
  fun_induction fold sum with
  | case1 sum h =>
    have hzero : (sum >>> 16).toNat = 0 := by
      rw [h]
      rfl
    rw [toNat_high] at hzero
    omega
  | case2 sum h ih =>
    rw [toNat_addCarries] at ih
    omega

/-- A sum that contains the complement of the rest. -/
theorem complement_fold {s t : BitVec 32}
    (h : t.toNat = s.toNat + (~~~(fold s).setWidth 16).toNat) :
  ~~~(fold t).setWidth 16 = 0
  := by
  obtain ⟨hlt, hmod, hzero⟩ := fold_spec s
  obtain ⟨hlt', hmod', hzero'⟩ := fold_spec t
  rw [BitVec.toNat_not, BitVec.toNat_setWidth, Nat.mod_eq_of_lt hlt] at h
  have hones : (fold t).toNat = 2 ^ 16 - 1 := by omega
  apply BitVec.eq_of_toNat_eq
  rw [BitVec.toNat_not, BitVec.toNat_setWidth, hones]
  rfl

/-- The checksum is written over zeros at an even position. -/
theorem total_putChecksum {data : List Byte} {k : ℕ} (hlen : 2 * k + 1 < data.length)
    (hhigh : data.getD (2 * k) 0 = 0) (hlow : data.getD (2 * k + 1) 0 = 0) (c : BitVec 16) :
  total (putChecksum data (2 * k) c) = total data + c.toNat
  := by
  unfold putChecksum
  induction k generalizing data with
  | zero =>
    match data with
    | a :: b :: data =>
      obtain rfl : a = 0 := hhigh
      obtain rfl : b = 0 := hlow
      have hc := c.isLt
      simp [total]
      omega
  | succ k ih =>
    match data with
    | a :: b :: data =>
      have hrest := @ih data (by simp at hlen; omega) hhigh hlow
      simp only [Nat.mul_succ, List.set_cons_succ, total]
      rw [hrest]
      omega

/-- The numbers that are added up in a checksum, without a bound. -/
def pseudoTotal (src dst : BitVec 32) (protocol : Byte) (length : ℕ) : ℕ :=
  src.toNat / 2 ^ 16 + src.toNat % 2 ^ 16 + dst.toNat / 2 ^ 16 + dst.toNat % 2 ^ 16 + protocol.toNat
    + length

/-- The pseudo-header does not overflow. -/
theorem toNat_pseudoHeader (src dst : BitVec 32) (protocol : Byte) {length : ℕ}
    (h : length < 2 ^ 16) :
  (pseudoHeader src dst protocol length).toNat = pseudoTotal src dst protocol length
    ∧ pseudoTotal src dst protocol length < 6 * 2 ^ 16
  := by
  have hsrc := src.isLt
  have hdst := dst.isLt
  have hprotocol := protocol.isLt
  simp only [pseudoHeader, pseudoTotal, BitVec.toNat_add, toNat_low, toNat_high,
    BitVec.toNat_setWidth, BitVec.toNat_ofNat]
  omega

/-- The accumulator of a packet holds the sum. -/
theorem toNat_sum {init : BitVec 32} {data : List Byte} (hinit : init.toNat < 6 * 2 ^ 16)
    (hlen : data.length < 2 ^ 16) :
  (addWords init data).toNat = init.toNat + total data
  := by
  have htotal := total_le data
  apply toNat_addWords
  omega

/-- A packet with the complement of its sum in it. -/
theorem complement_putChecksum (init : BitVec 32) {data : List Byte} {k : ℕ}
    (hinit : init.toNat < 6 * 2 ^ 16) (hlen : data.length < 2 ^ 16) (hk : 2 * k + 1 < data.length)
    (hhigh : data.getD (2 * k) 0 = 0) (hlow : data.getD (2 * k + 1) 0 = 0) :
  ~~~(fold (addWords init (putChecksum data (2 * k)
    (~~~(fold (addWords init data)).setWidth 16)))).setWidth 16 = 0
  := by
  apply complement_fold (s := addWords init data)
  rw [toNat_sum hinit (by simpa using hlen), toNat_sum hinit hlen,
    total_putChecksum hk hhigh hlow, Nat.add_assoc]

/-- The data of a transport protocol with its checksum. -/
theorem transportChecksum_putChecksum (src dst : BitVec 32) (protocol : Byte) {data : List Byte} {k : ℕ}
    (hlen : data.length < 2 ^ 16) (hk : 2 * k + 1 < data.length)
    (hhigh : data.getD (2 * k) 0 = 0) (hlow : data.getD (2 * k + 1) 0 = 0) :
  transportChecksum src dst protocol
    (putChecksum data (2 * k) (transportChecksum src dst protocol data)) = 0
  := by
  obtain ⟨hinit, hlt⟩ := toNat_pseudoHeader src dst protocol hlen
  unfold transportChecksum
  rw [length_putChecksum]
  exact complement_putChecksum _ (hinit ▸ hlt) hlen hk hhigh hlow

/-! ## Packets -/

/-- The header of an IPv4 packet. -/
structure Ipv4Header where
  versionIhl : Byte
  tos : Byte
  totalLen : BitVec 16
  id : BitVec 16
  flagsFrag : BitVec 16
  ttl : Byte
  protocol : Byte
  checksum : BitVec 16
  src : BitVec 32
  dst : BitVec 32

/-- `parse` of IPv4. -/
def Ipv4Header.parse (data : List Byte) : Option (Ipv4Header × List Byte) :=
  let versionIhl := data.getD 0 0
  let headerLen := (versionIhl &&& 0x0F#8).toNat * 4
  let totalLen := field16 data 2
  let actualLen := min totalLen.toNat data.length
  if data.length < 20 then none
  else if versionIhl >>> 4 ≠ 4#8 ∨ (versionIhl &&& 0x0F#8).toNat < 5 then none
  else if data.length < headerLen then none
  else if actualLen < headerLen then none
  else some
    ({ versionIhl, tos := data.getD 1 0, totalLen, id := field16 data 4, flagsFrag := field16 data 6,
       ttl := data.getD 8 0, protocol := data.getD 9 0, checksum := field16 data 10,
       src := field32 data 12, dst := field32 data 16 },
     (data.take actualLen).drop headerLen)

/-- The header that `build_with_ttl` writes before it knows the checksum. -/
def ipv4Bytes (totalLen id : BitVec 16) (src dst : BitVec 32) (protocol ttl : Byte) : List Byte :=
  [0x45, 0] ++ bytes16 totalLen ++ bytes16 id ++ [0x40, 0, ttl, protocol, 0, 0] ++ bytes32 src
    ++ bytes32 dst

/-- `build_with_ttl` of IPv4, with the identification from the counter. The answer is the length of the
packet, which is zero if the buffer is too small, and the buffer. -/
def buildWithTtl (id : BitVec 16) (src dst : BitVec 32) (protocol ttl : Byte) (payload buf : List Byte) :
    BitVec 16 × ℕ × List Byte :=
  let totalLen := 20 + payload.length
  if buf.length < totalLen then (id, 0, buf)
  else
    let buf := ipv4Bytes (.ofNat 16 totalLen) id src dst protocol ttl ++ payload ++ buf.drop totalLen
    (id + 1, totalLen, putChecksum buf 10 (internetChecksum (buf.take 20)))

/-- The header of a TCP segment. -/
structure TcpHeader where
  srcPort : BitVec 16
  dstPort : BitVec 16
  seq : BitVec 32
  ack : BitVec 32
  dataOffset : Byte
  flags : Byte
  window : BitVec 16

/-- `parse` of TCP. -/
def TcpHeader.parse (data : List Byte) : Option (TcpHeader × List Byte) :=
  let dataOffset := (data.getD 12 0 >>> 4) * 4#8
  if data.length < 20 then none
  else if dataOffset.toNat < 20 ∨ data.length < dataOffset.toNat then none
  else some
    ({ srcPort := field16 data 0, dstPort := field16 data 2, seq := field32 data 4,
       ack := field32 data 8, dataOffset, flags := data.getD 13 0, window := field16 data 14 },
     data.drop dataOffset.toNat)

/-- The header that `build` of TCP writes. -/
def tcpBytes (srcPort dstPort : BitVec 16) (seq ack : BitVec 32) (flags : Byte) (window : BitVec 16) :
    List Byte :=
  bytes16 srcPort ++ bytes16 dstPort ++ bytes32 seq ++ bytes32 ack ++ [0x50, flags] ++ bytes16 window
    ++ [0, 0, 0, 0]

/-- `build` of TCP, which leaves the checksum zero. -/
def TcpHeader.build (srcPort dstPort : BitVec 16) (seq ack : BitVec 32) (flags : Byte)
    (window : BitVec 16) (payload buf : List Byte) : ℕ × List Byte :=
  let total := 20 + payload.length
  if buf.length < total then (0, buf)
  else
    (total, tcpBytes srcPort dstPort seq ack flags window ++ payload ++ buf.drop total)

/-- `send_tcp_segment`: the segment that is handed to IPv4, unless it does not fit. -/
def sendTcpSegment (src dst : BitVec 32) (srcPort dstPort : BitVec 16) (seq ack : BitVec 32)
    (flags : Byte) (window : BitVec 16) (payload : List Byte) : Option (List Byte) :=
  let (segLen, segBuf) :=
    TcpHeader.build srcPort dstPort seq ack flags window payload (List.replicate 1480 0)
  if segLen = 0 then none
  else some ((putChecksum segBuf 16 (transportChecksum src dst 6 (segBuf.take segLen))).take segLen)

/-- The flags as `TCP_FLAG_FIN` to `TCP_FLAG_ACK` name them. -/
def flagsOf (flags : Byte) : Tcp.Flags :=
  ⟨flags.getLsbD 0, flags.getLsbD 1, flags.getLsbD 2, flags.getLsbD 3, flags.getLsbD 4⟩

/-- `handle_segment`, with the addresses of the IPv4 header. -/
def handleSegment (s : Tcp.System) (src dst : BitVec 32) (data : List Byte) (isn : Tcp.Seq) (now : ℕ) :
    Tcp.System :=
  if transportChecksum src dst 6 data ≠ 0 then s
  else
    match TcpHeader.parse data with
    | none => s
    | some (hdr, payload) =>
      s.handleSegment src.toNat dst.toNat ⟨hdr.srcPort.toNat, hdr.dstPort.toNat, hdr.seq, hdr.ack,
        flagsOf hdr.flags, hdr.window.toNat⟩ payload isn now

/-- `parse` of UDP. -/
def parseUdp (data : List Byte) : Option (BitVec 16 × BitVec 16 × List Byte) :=
  let length := (field16 data 4).toNat
  if data.length < 8 then none
  else if length < 8 ∨ data.length < length then none
  else some (field16 data 0, field16 data 2, (data.take length).drop 8)

/-- The header that `build` of UDP writes before it knows the checksum. -/
def udpBytes (srcPort dstPort length : BitVec 16) : List Byte :=
  bytes16 srcPort ++ bytes16 dstPort ++ bytes16 length ++ [0, 0]

/-- `build` of UDP. -/
def buildUdp (srcPort dstPort : BitVec 16) (payload : List Byte) (src dst : BitVec 32)
    (buf : List Byte) : ℕ × List Byte :=
  let total := 8 + payload.length
  if buf.length < total then (0, buf)
  else
    let buf := udpBytes srcPort dstPort (.ofNat 16 total) ++ payload ++ buf.drop total
    (total, putChecksum buf 6 (transportChecksum src dst 17 (buf.take total)))

/-! ## What is built verifies and parses back -/

variable {payload buf : List Byte}

/-- The header of a built IPv4 packet has the checksum zero, and the packet is parsed to what it was
built from. -/
def Ipv4Sound (payload buf : List Byte) : Prop :=
  ∀ id src dst protocol ttl, ∃ packet c,
    buildWithTtl id src dst protocol ttl payload buf =
      (id + 1, packet.length, packet ++ buf.drop packet.length)
    ∧ internetChecksum (packet.take 20) = 0
    ∧ Ipv4Header.parse packet = some
      (⟨0x45, 0, .ofNat 16 (20 + payload.length), id, 0x4000, ttl, protocol, c, src, dst⟩, payload)

/-- The segment that is sent has the checksum zero and is accepted with what it was built from. -/
def TcpSound (payload : List Byte) : Prop :=
  ∀ src dst srcPort dstPort seq ack flags window, ∃ segment,
    sendTcpSegment src dst srcPort dstPort seq ack flags window payload = some segment
    ∧ transportChecksum src dst 6 segment = 0
    ∧ TcpHeader.parse segment = some (⟨srcPort, dstPort, seq, ack, 20, flags, window⟩, payload)
    ∧ ∀ s isn now, handleSegment s src dst segment isn now =
      s.handleSegment src.toNat dst.toNat ⟨srcPort.toNat, dstPort.toNat, seq, ack, flagsOf flags,
        window.toNat⟩ payload isn now

/-- A built datagram has the checksum zero and is parsed to what it was built from. -/
def UdpSound (payload buf : List Byte) : Prop :=
  ∀ srcPort dstPort src dst, ∃ datagram,
    buildUdp srcPort dstPort payload src dst buf =
      (datagram.length, datagram ++ buf.drop datagram.length)
    ∧ transportChecksum src dst 17 datagram = 0
    ∧ parseUdp datagram = some (srcPort, dstPort, payload)

/-- A packet that fits the buffer and whose length fits its field. -/
theorem ipv4Sound (hfit : 20 + payload.length ≤ buf.length) (hlt : 20 + payload.length < 2 ^ 16) :
  Ipv4Sound payload buf
  := by
  intro id src dst protocol ttl
  have hlen : (BitVec.ofNat 16 (20 + payload.length)).toNat = _ := Nat.mod_eq_of_lt hlt
  unfold buildWithTtl
  rw [if_neg (by omega)]
  generalize BitVec.ofNat 16 (20 + payload.length) = n at hlen ⊢
  set header := ipv4Bytes n id src dst protocol ttl with hheader
  have hlength : header.length = 20 := rfl
  refine ⟨putChecksum header 10 (internetChecksum header) ++ payload, internetChecksum header,
    ?_, ?_, ?_⟩
  · dsimp only
    rw [List.append_assoc, List.take_left' hlength, putChecksum_append (by omega)]
    simp [hlength]
  · rw [List.take_left' (by simpa using hlength)]
    apply complement_putChecksum 0 (k := 5) (by decide) _ (by omega) rfl rfl
    omega
  · generalize internetChecksum header = c
    simp [hheader, ipv4Bytes, putChecksum, bytes16, bytes32, Ipv4Header.parse, field16, field32,
      join16, join32, hlen]
    rw [List.take_of_length_le (by simp; omega)]
    rfl

/-- A segment that fits the buffer of `send_tcp_segment`. -/
theorem tcpSound (hfit : 20 + payload.length ≤ 1480) :
  TcpSound payload
  := by
  intro src dst srcPort dstPort seq ack flags window
  set segment := tcpBytes srcPort dstPort seq ack flags window ++ payload with hsegment
  have hlength : segment.length = 20 + payload.length := List.length_append
  have hzero : transportChecksum src dst 6
      (putChecksum segment 16 (transportChecksum src dst 6 segment)) = 0 :=
    transportChecksum_putChecksum src dst 6 (k := 8) (by omega) (by omega) rfl rfl
  have hparse : TcpHeader.parse (putChecksum segment 16 (transportChecksum src dst 6 segment)) =
      some (⟨srcPort, dstPort, seq, ack, 20, flags, window⟩, payload) := by
    generalize transportChecksum src dst 6 segment = c
    simp [hsegment, tcpBytes, putChecksum, bytes16, bytes32, TcpHeader.parse, field16, field32,
      join16, join32]
  refine ⟨_, ?_, hzero, hparse, fun s isn now => ?_⟩
  · unfold sendTcpSegment TcpHeader.build
    rw [if_neg (by rw [List.length_replicate]; omega)]
    dsimp only
    rw [← hsegment, if_neg (by omega), List.take_left' hlength, putChecksum_append (by omega),
      List.take_left' (by rw [length_putChecksum, hlength])]
  · rw [handleSegment, if_neg (not_not.mpr hzero), hparse]

/-- A datagram that fits the buffer and whose length fits its field. -/
theorem udpSound (hfit : 8 + payload.length ≤ buf.length) (hlt : 8 + payload.length < 2 ^ 16) :
  UdpSound payload buf
  := by
  intro srcPort dstPort src dst
  have hlen : (BitVec.ofNat 16 (8 + payload.length)).toNat = _ := Nat.mod_eq_of_lt hlt
  unfold buildUdp
  rw [if_neg (by omega)]
  generalize BitVec.ofNat 16 (8 + payload.length) = n at hlen ⊢
  set datagram := udpBytes srcPort dstPort n ++ payload with hdatagram
  have hlength : datagram.length = 8 + payload.length := List.length_append
  refine ⟨putChecksum datagram 6 (transportChecksum src dst 17 datagram), ?_,
    transportChecksum_putChecksum src dst 17 (k := 3) (by omega) (by omega) rfl rfl, ?_⟩
  · dsimp only
    rw [List.take_left' hlength, putChecksum_append (by omega), length_putChecksum, hlength]
  · generalize transportChecksum src dst 17 datagram = c
    simp [hdatagram, udpBytes, putChecksum, bytes16, parseUdp, field16, join16, hlen]
    rw [List.take_of_length_le (by simp; omega)]
    exact ⟨by omega, rfl⟩

/-- Every packet that fits its buffer verifies and parses back, and the 32-bit accumulators of the
checksums hold the sums of all words. -/
theorem packets_sound :
  (∀ payload buf : List Byte, 20 + payload.length ≤ buf.length → 20 + payload.length < 2 ^ 16 →
      Ipv4Sound payload buf)
    ∧ (∀ payload : List Byte, 20 + payload.length ≤ 1480 → TcpSound payload)
    ∧ (∀ payload buf : List Byte, 8 + payload.length ≤ buf.length → 8 + payload.length < 2 ^ 16 →
      UdpSound payload buf)
    ∧ (∀ (src dst : BitVec 32) (protocol : Byte) (data : List Byte), data.length < 2 ^ 16 →
      (addWords 0 data).toNat = total data
      ∧ (addWords (pseudoHeader src dst protocol data.length) data).toNat =
        pseudoTotal src dst protocol data.length + total data)
    ∧ ∀ sum : BitVec 32, (addCarries sum).toNat = sum.toNat % 2 ^ 16 + sum.toNat / 2 ^ 16
  := by
  refine ⟨fun _ _ => ipv4Sound, fun _ => tcpSound, fun _ _ => udpSound, ?_, toNat_addCarries⟩
  intro src dst protocol data hlen
  obtain ⟨hinit, hlt⟩ := toNat_pseudoHeader src dst protocol hlen
  rw [← hinit] at hlt ⊢
  refine ⟨?_, toNat_sum hlt hlen⟩
  rw [toNat_sum (by decide) hlen]
  exact Nat.zero_add _

/-- A payload of odd length. -/
theorem packets_sound_odd :
  Ipv4Sound [1, 2, 3] (List.replicate 1520 0) ∧ TcpSound [1, 2, 3]
    ∧ UdpSound [1, 2, 3] (List.replicate 1480 0)
  := by
  refine ⟨packets_sound.1 _ _ ?_ (by decide), packets_sound.2.1 _ (by decide),
    packets_sound.2.2.1 _ _ ?_ (by decide)⟩ <;> rw [List.length_replicate] <;> decide

end SaltyOS.Wire
