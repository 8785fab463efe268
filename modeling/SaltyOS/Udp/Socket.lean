import SaltyOS.Lib.RingBuf

/-!
# UDP sockets

The receiving side of a UDP socket of the network server. A datagram that arrives completes a receive
that is waiting, or it is buffered: its bytes go to a ring of 16384 bytes, and an entry for it to a
ring of 32 entries. A receive takes the first entry.

The socket is handled together with the queue of completions, which has room for 63 of them. Datagrams
are those that were parsed and whose destination is the port of the socket. The clock is an argument.

Two things are not part of the implementation: which datagrams the socket did not drop when they
arrived, and which ones it gave to a receive, with the limit of the caller.
-/

namespace SaltyOS.Udp

/-- A byte. -/
abbrev Byte : Type := BitVec 8

/-- `UDP_RX_BUF_SIZE`. -/
def udpRxBufSize : ℕ := 16384

/-- `MAX_UDP_RX_ENTRIES`. -/
def maxUdpRxEntries : ℕ := 32

/-- `MAX_COMPLETIONS`. -/
def maxCompletions : ℕ := 64

/-- `TIMESTAMP_NONE_NS`. -/
def timestampNoneNs : ℕ := 2 ^ 64 - 1

/-- `UdpRxEntry`. -/
structure UdpRxEntry where
  active : Bool
  srcIp : ℕ
  srcPort : ℕ
  offset : ℕ
  len : ℕ
  timestampNs : ℕ
  deriving DecidableEq, Repr

/-- `UdpRxEntry::zeroed`. -/
def UdpRxEntry.zeroed : UdpRxEntry where
  active := false
  srcIp := 0
  srcPort := 0
  offset := 0
  len := 0
  timestampNs := timestampNoneNs

/-- The receives that a completion can be for. -/
inductive OpType where
  | recv
  | recvfrom
  deriving DecidableEq, Repr

/-- The completion of a receive. -/
structure Completion where
  opType : OpType
  data : List Byte
  extraIp : ℕ
  extraPort : ℕ
  timestampNs : ℕ
  deriving DecidableEq, Repr

/-- The receiving side of `UdpSocket`. -/
structure UdpSocket where
  rxBuf : ℕ → Byte
  rxHead : ℕ
  rxEntries : ℕ → UdpRxEntry
  rxEntryHead : ℕ
  rxEntryTail : ℕ
  pendingRecv : Bool
  pendingRecvMaxLen : ℕ
  pendingRecvOpType : OpType
  pendingRecvTimestamp : Bool

/-- A datagram, with the time at which it arrives. -/
structure Datagram where
  srcIp : ℕ
  srcPort : ℕ
  payload : List Byte
  timestampNs : ℕ
  deriving DecidableEq, Repr

namespace UdpSocket

/-- `UdpSocket::zeroed`. -/
def zeroed : UdpSocket where
  rxBuf := fun _ => 0
  rxHead := 0
  rxEntries := fun _ => .zeroed
  rxEntryHead := 0
  rxEntryTail := 0
  pendingRecv := false
  pendingRecvMaxLen := 0
  pendingRecvOpType := .recv
  pendingRecvTimestamp := false

/-! ## The buffer -/

/-- The index after an entry. -/
def nextEntry (i : ℕ) : ℕ := (i + 1) % maxUdpRxEntries

variable (s : UdpSocket)

/-- The first entry, if there is one. -/
def firstEntry : Option UdpRxEntry :=
  if s.rxEntryHead = s.rxEntryTail then none
  else if (s.rxEntries s.rxEntryTail).active = false then none
  else some (s.rxEntries s.rxEntryTail)

/-- Some bytes of an entry, from its start. -/
def entryBytes (entry : UdpRxEntry) (count : ℕ) : List Byte :=
  RingBuf.walk udpRxBufSize s.rxBuf entry.offset count

/-- Consume the first entry. -/
def consume : UdpSocket :=
  { s with
    rxEntries := Function.update s.rxEntries s.rxEntryTail
      { s.rxEntries s.rxEntryTail with active := false }
    rxEntryTail := nextEntry s.rxEntryTail }

/-- The number of bytes of the entries from the given one on. The loop visits every entry at most
once. -/
def usedFrom (s : UdpSocket) : ℕ → ℕ → ℕ
  | 0, _ => 0
  | fuel + 1, scan =>
    if scan = s.rxEntryHead then 0
    else
      (if (s.rxEntries scan).active then (s.rxEntries scan).len else 0) +
        s.usedFrom fuel (nextEntry scan)

/-- The number of bytes in use. -/
def used : ℕ := s.usedFrom maxUdpRxEntries s.rxEntryTail

/-- There is room for a datagram. -/
def hasRoom (d : Datagram) : Bool :=
  nextEntry s.rxEntryHead != s.rxEntryTail && decide (d.payload.length ≤ udpRxBufSize) &&
    decide (d.payload.length ≤ udpRxBufSize - s.used)

/-- Put a datagram into the buffer. -/
def store (d : Datagram) : UdpSocket :=
  { s with
    rxBuf := (RingBuf.fill udpRxBufSize s.rxBuf s.rxHead d.payload).1
    rxEntries := Function.update s.rxEntries s.rxEntryHead
      { active := true, srcIp := d.srcIp, srcPort := d.srcPort, offset := s.rxHead
        len := d.payload.length, timestampNs := d.timestampNs }
    rxEntryHead := nextEntry s.rxEntryHead
    rxHead := (s.rxHead + d.payload.length) % udpRxBufSize }

end UdpSocket

/-- A datagram that was given to a receive with the given limit. -/
structure Delivery where
  srcIp : ℕ
  srcPort : ℕ
  limit : ℕ
  data : List Byte
  deriving DecidableEq, Repr

/-- The socket with the queue of completions, the datagrams that were not dropped when they arrived,
and those that were given to a receive. -/
structure Receiver where
  sock : UdpSocket
  completions : List Completion
  accepted : List Datagram
  delivered : List Delivery

namespace Receiver

/-- The socket when it is created. -/
def initial : Receiver where
  sock := .zeroed
  completions := []
  accepted := []
  delivered := []

variable (r : Receiver)

/-- There is room in the queue of completions. -/
def hasRoom : Bool := decide (r.completions.length + 1 < maxCompletions)

/-- `push_completion`: a completion is dropped if the queue is full. -/
def push (c : Completion) : Receiver :=
  if r.hasRoom then { r with completions := r.completions ++ [c] } else r

/-- Note what a receive is given. -/
def deliver (d : Delivery) : Receiver := { r with delivered := r.delivered ++ [d] }

/-- `push_completion` for a completion that gives a datagram to a receive. -/
def complete (c : Completion) (limit : ℕ) : Receiver :=
  if r.hasRoom then
    (r.push c).deliver { srcIp := c.extraIp, srcPort := c.extraPort, limit, data := c.data }
  else r.push c

/-- `udp_recvfrom` into a buffer of the given size. -/
def udpRecvfrom (size : ℕ) (wantTimestamp : Bool) : Receiver × Option (List Byte × ℕ × ℕ × ℕ) :=
  match r.sock.firstEntry with
  | none => (r, none)
  | some entry =>
    ({ r with sock := r.sock.consume }.deliver
        { srcIp := entry.srcIp, srcPort := entry.srcPort, limit := size
          data := r.sock.entryBytes entry (min entry.len size) },
      some (r.sock.entryBytes entry (min entry.len size), entry.srcIp, entry.srcPort,
        if wantTimestamp then entry.timestampNs else timestampNoneNs))

/-- The number of bytes that a completion has room for. -/
def completionRoom : OpType → ℕ
  | .recv => 152
  | .recvfrom => 104

/-- The common part of `set_pending_recv` and `set_pending_recvfrom`: the first buffered datagram
completes the receive, or the receive waits. -/
def setPending (opType : OpType) (maxLen : ℕ) (wantTimestamp : Bool) : Receiver :=
  match r.sock.firstEntry with
  | some entry =>
    { r with sock := r.sock.consume }.complete
      { opType
        data := r.sock.entryBytes entry (min (min entry.len maxLen) (completionRoom opType))
        extraIp := entry.srcIp
        extraPort := entry.srcPort
        timestampNs := if wantTimestamp then entry.timestampNs else timestampNoneNs } maxLen
  | none =>
    { r with
      sock :=
        { r.sock with
          pendingRecv := true
          pendingRecvMaxLen := maxLen
          pendingRecvOpType := opType
          pendingRecvTimestamp := wantTimestamp } }

/-- `set_pending_recv`. -/
def setPendingRecv (maxLen : ℕ) : Receiver := r.setPending .recv maxLen false

/-- `set_pending_recvfrom`. -/
def setPendingRecvfrom (maxLen : ℕ) (wantTimestamp : Bool) : Receiver :=
  r.setPending .recvfrom maxLen wantTimestamp

/-- The socket accepts a datagram. -/
def accept (d : Datagram) : Receiver := { r with accepted := r.accepted ++ [d] }

/-- The receive that waits is completed with a datagram. If the completion is dropped then so is the
datagram. -/
def completePending (d : Datagram) : Receiver :=
  (if r.hasRoom then
    { r with sock := { r.sock with pendingRecv := false, pendingRecvTimestamp := false } }.accept d
  else
    { r with sock := { r.sock with pendingRecv := false, pendingRecvTimestamp := false } }).complete
    { opType := r.sock.pendingRecvOpType
      data := d.payload.take (min (min d.payload.length r.sock.pendingRecvMaxLen)
        (completionRoom r.sock.pendingRecvOpType))
      extraIp := d.srcIp
      extraPort := d.srcPort
      timestampNs := if r.sock.pendingRecvTimestamp then d.timestampNs else timestampNoneNs }
    r.sock.pendingRecvMaxLen

/-- The completion that says that there is something to receive. -/
def wakeup : Completion where
  opType := .recv
  data := []
  extraIp := 0
  extraPort := 0
  timestampNs := timestampNoneNs

/-- `handle_datagram`. -/
def handleDatagram (d : Datagram) : Receiver :=
  if r.sock.pendingRecv then r.completePending d
  else if r.sock.hasRoom d = false then r
  else if r.sock.rxEntryHead = r.sock.rxEntryTail then
    ({ r with sock := r.sock.store d }.accept d).push wakeup
  else { r with sock := r.sock.store d }.accept d

/-- What happens at the socket. -/
inductive Event where
  | datagram (d : Datagram)
  | recvfrom (size : ℕ) (wantTimestamp : Bool)
  | pendingRecv (maxLen : ℕ)
  | pendingRecvfrom (maxLen : ℕ) (wantTimestamp : Bool)
  | drain

/-- The state after an event. -/
def exec : Event → Receiver
  | .datagram d => r.handleDatagram d
  | .recvfrom size wantTimestamp => (r.udpRecvfrom size wantTimestamp).1
  | .pendingRecv maxLen => r.setPendingRecv maxLen
  | .pendingRecvfrom maxLen wantTimestamp => r.setPendingRecvfrom maxLen wantTimestamp
  | .drain => { r with completions := [] }

end Receiver

end SaltyOS.Udp
