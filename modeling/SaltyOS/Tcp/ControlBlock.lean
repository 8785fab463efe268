import SaltyOS.Lib.RingBuf

/-!
# TCP control blocks

The control block of a TCP socket and everything that one block does by itself: sending and
receiving, the handling of incoming segments in every state other than `listen`, retransmission,
and closing. A block is handled together with the segments it emits and the completions it produces.

Times are in nanoseconds. The clock and the initial sequence numbers are arguments.

Some fields are not part of the implementation. A flag for a deferred operation has the number of the
call that set it, and a completion has the number of the call that it answers. A block keeps the
bytes accepted by `tcpSend`, and the number of times it was reset. An emitted segment keeps the
initial sequence number of the block that emitted it, and the bytes accepted by then.
-/

namespace SaltyOS.Tcp

/-- A byte. -/
abbrev Byte : Type := BitVec 8

/-- A sequence number. -/
abbrev Seq : Type := BitVec 32

/-- The size of the receive and transmit buffers. -/
def bufSize : ℕ := 8192

/-! ## Segments -/

/-- The flags of a segment. -/
structure Flags where
  fin : Bool
  syn : Bool
  rst : Bool
  psh : Bool
  ack : Bool
  deriving DecidableEq, Repr

/-- No flag. -/
def Flags.none : Flags :=
  { fin := false, syn := false, rst := false, psh := false, ack := false }

/-- The header of an incoming segment. -/
structure Header where
  srcPort : ℕ
  dstPort : ℕ
  seq : Seq
  ack : Seq
  flags : Flags
  window : ℕ
  deriving DecidableEq, Repr

/-- An emitted segment. -/
structure Segment where
  srcIp : ℕ
  dstIp : ℕ
  srcPort : ℕ
  dstPort : ℕ
  ttl : ℕ
  seq : Seq
  ack : Seq
  flags : Flags
  window : ℕ
  payload : List Byte
  deriving DecidableEq, Repr

/-- `a` is at most `b`, for sequence numbers that wrap around. -/
def seqLe (a b : Seq) : Bool := (a - b).toInt ≤ 0

/-- `a` is greater than `b`, for sequence numbers that wrap around. -/
def seqGt (a b : Seq) : Bool := 0 < (a - b).toInt

/-! ## Control blocks -/

/-- The states of a connection. -/
inductive TcpState where
  | closed
  | listen
  | synSent
  | synReceived
  | established
  | finWait1
  | finWait2
  | closeWait
  | closing
  | lastAck
  | timeWait
  deriving DecidableEq, Repr

/-- The states in which no more data will arrive. -/
def TcpState.atEnd : TcpState → Bool
  | .closeWait | .closing | .lastAck | .timeWait => true
  | _ => false

/-- The results of a deferred operation. -/
inductive Label where
  | ok
  | connRefused
  | timedOut
  deriving DecidableEq, Repr

/-- The operations that can be deferred. -/
inductive OpType where
  | connect
  | recv
  | accept
  deriving DecidableEq, Repr

/-- The completion of an operation. `call` is the call that it answers, if any. `gen` is the number
of times that the block had been reset. `peek` says that the bytes stay in the receive buffer, and
`eof` that the completion reports the end of the stream. -/
structure Completion where
  connId : ℕ
  result : Label
  opType : OpType
  data : List Byte
  extraConnId : ℕ
  extraIp : ℕ
  extraPort : ℕ
  call : Option ℕ
  gen : ℕ
  peek : Bool
  eof : Bool
  deriving DecidableEq, Repr

/-- A connection request in the backlog of a listening socket. -/
structure PendingSyn where
  remoteIp : ℕ
  remotePort : ℕ
  irs : Seq
  iss : Seq
  deriving DecidableEq, Repr

/-- The options of a socket that are used here. -/
structure SocketOptions where
  lastError : Option Label
  ipTtl : ℕ
  deriving DecidableEq, Repr

/-- The options of a new socket. -/
def SocketOptions.new : SocketOptions := { lastError := none, ipTtl := 64 }

/-- A control block. -/
structure Tcb where
  active : Bool
  state : TcpState
  localIp : ℕ
  dynamicLocalIp : Bool
  localPort : ℕ
  remoteIp : ℕ
  remotePort : ℕ
  sndUna : Seq
  sndNxt : Seq
  sndWnd : ℕ
  rcvNxt : Seq
  rcvWnd : ℕ
  iss : Seq
  irs : Seq
  rxBuf : RingBuf Byte bufSize
  txBuf : RingBuf Byte bufSize
  rtoMs : ℕ
  retxDeadlineNs : ℕ
  retxCount : ℕ
  mss : ℕ
  pendingConnect : Option ℕ
  pendingRecv : Option ℕ
  pendingRecvMax : ℕ
  pendingRecvPeek : Bool
  pendingAccept : Option ℕ
  backlog : List PendingSyn
  maxBacklog : ℕ
  connId : ℕ
  opts : SocketOptions
  parentConnId : ℕ
  timewaitDeadlineNs : ℕ
  finSeq : Seq
  accepted : List Byte
  gen : ℕ

/-- The control block in its initial state, over the given buffers. -/
def Tcb.init (rxBuf txBuf : RingBuf Byte bufSize) (gen : ℕ) : Tcb where
  active := false
  state := .closed
  localIp := 0
  dynamicLocalIp := false
  localPort := 0
  remoteIp := 0
  remotePort := 0
  sndUna := 0
  sndNxt := 0
  sndWnd := 0
  rcvNxt := 0
  rcvWnd := 8192
  iss := 0
  irs := 0
  rxBuf
  txBuf
  rtoMs := 1000
  retxDeadlineNs := 0
  retxCount := 0
  mss := 1460
  pendingConnect := none
  pendingRecv := none
  pendingRecvMax := 0
  pendingRecvPeek := false
  pendingAccept := none
  backlog := []
  maxBacklog := 0
  connId := 0
  opts := SocketOptions.new
  parentConnId := 0
  timewaitDeadlineNs := 0
  finSeq := 0
  accepted := []
  gen

/-- `reset_tcb`: the block becomes inactive. -/
def Tcb.reset (t : Tcb) : Tcb := Tcb.init t.rxBuf.reset t.txBuf.reset (t.gen + 1)

/-- `close_tcb_preserve_socket`: the connection is given up, the socket stays. -/
def Tcb.closePreserveSocket (t : Tcb) (err : Label) : Tcb :=
  { t.reset with
    active := true
    state := .closed
    connId := t.connId
    localIp := t.localIp
    dynamicLocalIp := t.dynamicLocalIp
    localPort := t.localPort
    rcvWnd := 8192
    mss := 1460
    opts := { t.opts with lastError := some err } }

/-- An emitted segment, with the initial sequence number of the block that emitted it and the bytes
that the block had accepted. Segments that belong to no block have neither. -/
structure Sent where
  seg : Segment
  origin : Option (Seq × List Byte)
  deriving DecidableEq, Repr

/-- A control block at work, with the segments emitted and the completions pushed so far. -/
structure Conn where
  tcb : Tcb
  sent : List Sent
  comps : List Completion

namespace Conn

variable (c : Conn) (hdr : Header) (payload : List Byte) (now : ℕ)

/-- Replace the control block. -/
def update (f : Tcb → Tcb) : Conn := { c with tcb := f c.tcb }

/-- `send_tcp_segment` with the addresses of the block. -/
def sendSegment (seq ack : Seq) (flags : Flags) (window : ℕ) (payload : List Byte) : Conn :=
  { c with sent := c.sent ++ [{
      seg :=
        { srcIp := c.tcb.localIp, dstIp := c.tcb.remoteIp, srcPort := c.tcb.localPort
          dstPort := c.tcb.remotePort, ttl := c.tcb.opts.ipTtl, seq, ack, flags, window, payload }
      origin := some (c.tcb.iss, c.tcb.accepted) }] }

/-- `send_rst` with the given addresses. -/
def sendRst (srcIp dstIp srcPort dstPort : ℕ) (seq ack : Seq) : Conn :=
  { c with sent := c.sent ++ [{
      seg :=
        { srcIp, dstIp, srcPort, dstPort, ttl := 64, seq, ack
          flags := { Flags.none with rst := true, ack := true }, window := 0, payload := [] }
      origin := some (c.tcb.iss, c.tcb.accepted) }] }

/-- `send_tcp_segment` for an acknowledgement. -/
def sendAck : Conn :=
  c.sendSegment c.tcb.sndNxt c.tcb.rcvNxt { Flags.none with ack := true } c.tcb.rcvWnd []

/-- `push_completion`. Whether the queue has room is decided by the system. -/
def push (comp : Completion) : Conn := { c with comps := c.comps ++ [comp] }

/-- A completion of the block without data. -/
def completion (connId : ℕ) (result : Label) (opType : OpType) (call : Option ℕ) : Completion :=
  { connId, result, opType, data := [], extraConnId := 0, extraIp := 0, extraPort := 0, call
    gen := c.tcb.gen, peek := false, eof := false }

/-- `set_retx_timer`. -/
def setRetxTimer : Conn :=
  c.update fun t => { t with retxDeadlineNs := now + 1000000 * t.rtoMs }

/-- `cancel_retx_timer`. -/
def cancelRetxTimer : Conn :=
  c.update fun t => { t with retxDeadlineNs := 0, retxCount := 0, rtoMs := 1000 }

/-- `reset_tcb`. -/
def reset (c : Conn) : Conn := c.update Tcb.reset

/-! ## Sending -/

/-- The number of bytes that `flush_tx` sends. -/
def sendLen : ℕ :=
  let inFlight := (c.tcb.sndNxt - c.tcb.sndUna).toNat
  min (min c.tcb.txBuf.len c.tcb.mss) (c.tcb.sndWnd - inFlight)

/-- Emit data at `sndNxt`. -/
def emitData : Conn :=
  (c.sendSegment c.tcb.sndNxt c.tcb.rcvNxt { Flags.none with ack := true, psh := true } c.tcb.rcvWnd
    payload).update fun t => { t with sndNxt := t.sndNxt + BitVec.ofNat 32 payload.length }

/-- Start the retransmission timer if it does not run. -/
def armRetxTimer : Conn := if c.tcb.retxDeadlineNs = 0 then c.setRetxTimer now else c

/-- `flush_tx`. -/
def flushTx : Conn :=
  if c.tcb.txBuf.len = 0 then c
  else if c.sendLen = 0 then c
  else (c.emitData (c.tcb.txBuf.peekAll c.sendLen)).armRetxTimer now

/-- Put data into the transmit buffer, as far as there is room. -/
def acceptData (data : List Byte) : Conn :=
  c.update fun t =>
    { t with
      txBuf := (t.txBuf.write data).2
      accepted := t.accepted ++ data.take (t.txBuf.write data).1 }

/-- `tcp_send`. Returns the number of bytes accepted. -/
def tcpSend (data : List Byte) (now : ℕ) : Option ℕ × Conn :=
  if c.tcb.state ≠ .established ∧ c.tcb.state ≠ .closeWait then (none, c)
  else
    (some (c.tcb.txBuf.write data).1,
      if (c.tcb.txBuf.write data).1 > 0 then (c.acceptData data).flushTx now
      else c.acceptData data)

/-- Take over an acknowledgement of new data. -/
def advance : Conn :=
  c.update fun t =>
    { t with sndUna := hdr.ack, txBuf := t.txBuf.drain (hdr.ack - t.sndUna).toNat }

/-- The retransmission timer after an acknowledgement of new data. -/
def restartRetxTimer : Conn :=
  if c.tcb.sndUna = c.tcb.sndNxt then c.cancelRetxTimer
  else (c.update fun t => { t with rtoMs := 1000, retxCount := 0 }).setRetxTimer now

/-- Send more data if there is any. -/
def sendMore : Conn := if c.tcb.txBuf.len > 0 then c.flushTx now else c

/-- `process_ack`. -/
def processAck : Conn :=
  if seqGt hdr.ack c.tcb.sndNxt then c
  else
    (if seqGt hdr.ack c.tcb.sndUna then ((c.advance hdr).restartRetxTimer now).sendMore now
      else c).update fun t => { t with sndWnd := hdr.window }

/-! ## Receiving -/

/-- Store a payload in the receive buffer and acknowledge it. -/
def storeData : Conn :=
  (c.update fun t =>
    { t with
      rxBuf := (t.rxBuf.write payload).2
      rcvNxt := t.rcvNxt + BitVec.ofNat 32 (t.rxBuf.write payload).1
      rcvWnd := (t.rxBuf.write payload).2.available }).sendAck

/-- The number of bytes that a pending receive is completed with at most. -/
def pendingMax : ℕ := min c.tcb.pendingRecvMax 152

/-- Complete a pending receive with data. -/
def completeData : Conn :=
  (c.update fun t =>
    { t with
      pendingRecv := none
      pendingRecvPeek := false
      rxBuf := if t.pendingRecvPeek then t.rxBuf else (t.rxBuf.read c.pendingMax).2
      rcvWnd := (if t.pendingRecvPeek then t.rxBuf else (t.rxBuf.read c.pendingMax).2).available }).push
    { c.completion c.tcb.connId .ok .recv c.tcb.pendingRecv with
      data := c.tcb.rxBuf.peekAll c.pendingMax, peek := c.tcb.pendingRecvPeek }

/-- `process_data`. -/
def processData : Conn :=
  if hdr.seq ≠ c.tcb.rcvNxt then c.sendAck
  else if (c.storeData payload).tcb.pendingRecv.isSome ∧ (c.storeData payload).tcb.rxBuf.len > 0 then
    (c.storeData payload).completeData
  else if c.tcb.rxBuf.len = 0 ∧ (c.tcb.rxBuf.write payload).1 > 0 then
    (c.storeData payload).push (c.completion c.tcb.connId .ok .recv none)
  else c.storeData payload

/-- `tcp_recv` into a buffer of the given size. Returns the bytes read. No bytes mean the end of the
stream, unless the buffer has no room. -/
def tcpRecv (size : ℕ) : Option (List Byte) × Conn :=
  if c.tcb.state.atEnd ∧ c.tcb.rxBuf.len = 0 then (some [], c)
  else if c.tcb.state = .closed then (none, c)
  else if c.tcb.rxBuf.len > 0 then
    (some (c.tcb.rxBuf.read size).1, c.update fun t =>
      { t with rxBuf := (t.rxBuf.read size).2, rcvWnd := (t.rxBuf.read size).2.available })
  else (none, c)

/-- `tcp_recv_peek`. -/
def tcpRecvPeek (size : ℕ) : Option (List Byte) :=
  if c.tcb.state.atEnd ∧ c.tcb.rxBuf.len = 0 then some []
  else if c.tcb.state = .closed then none
  else if c.tcb.rxBuf.len > 0 then some (c.tcb.rxBuf.peekAll size)
  else none

/-! ## Completions -/

/-- Complete a pending connect. -/
def completeConnect (result : Label) : Conn :=
  if c.tcb.pendingConnect.isSome then
    (c.update fun t => { t with pendingConnect := none }).push
      (c.completion c.tcb.connId result .connect c.tcb.pendingConnect)
  else c

/-- Complete a pending receive without data. -/
def completeRecv (result : Label) (eof : Bool) : Conn :=
  if c.tcb.pendingRecv.isSome then
    (c.update fun t => { t with pendingRecv := none, pendingRecvPeek := false }).push
      { c.completion c.tcb.connId result .recv c.tcb.pendingRecv with eof }
  else c

/-- Complete a pending accept that fails. The completion is for the listening socket. -/
def failAccept (result : Label) : Conn :=
  if c.tcb.pendingAccept.isSome then
    (c.update fun t => { t with pendingAccept := none }).push
      (c.completion c.tcb.parentConnId result .accept c.tcb.pendingAccept)
  else c

/-- Complete a pending accept with the connection of the block. -/
def completeAccept : Conn :=
  if c.tcb.pendingAccept.isSome then
    (c.update fun t => { t with pendingAccept := none }).push
      { c.completion c.tcb.parentConnId .ok .accept c.tcb.pendingAccept with
        extraConnId := c.tcb.connId, extraIp := c.tcb.remoteIp, extraPort := c.tcb.remotePort }
  else c

/-- Set the error of the socket. -/
def setError (err : Option Label) : Conn :=
  c.update fun t => { t with opts := { t.opts with lastError := err } }

/-- `complete_pending_with_error`. -/
def completePendingWithError (err : Label) : Conn :=
  (((c.setError (some err)).completeConnect err).completeRecv err false).failAccept err

/-- Reset a block, or make it available again if it was connecting. -/
def abandon (err : Label) : Conn :=
  if c.tcb.pendingConnect.isSome ∨ c.tcb.state = .synSent then
    c.update fun t => t.closePreserveSocket err
  else c.reset

/-- What is done with a block whose connection is lost. -/
def giveUp (err : Label) : Conn := (c.completePendingWithError err).abandon err

/-! ## Incoming segments -/

/-- Emit a SYN. -/
def sendSyn : Conn :=
  c.sendSegment c.tcb.iss 0 { Flags.none with syn := true } c.tcb.rcvWnd []

/-- Emit a SYN that acknowledges a SYN. -/
def sendSynAck : Conn :=
  c.sendSegment c.tcb.iss c.tcb.rcvNxt { Flags.none with syn := true, ack := true } c.tcb.rcvWnd []

/-- Take over a SYN. -/
def takeSyn : Conn :=
  c.update fun t =>
    { t with
      irs := hdr.seq
      rcvNxt := hdr.seq + 1
      sndWnd := hdr.window
      sndUna := if hdr.flags.ack then hdr.ack else t.sndUna }

/-- Set the state. -/
def setState (state : TcpState) : Conn := c.update fun t => { t with state }

/-- Report a successful connect. -/
def reportConnect : Conn :=
  if c.tcb.pendingConnect.isSome then (c.setError none).completeConnect .ok else c

/-- The reaction to a SYN in the state `synSent`. -/
def answerSyn : Conn :=
  if seqGt c.tcb.sndUna c.tcb.iss then
    (c.setState .established).cancelRetxTimer.sendAck.reportConnect
  else (c.setState .synReceived).sendSynAck

/-- `handle_syn_sent`. -/
def handleSynSent (ipSrc ipDst : ℕ) (hdr : Header) : Conn :=
  if hdr.flags.ack ∧ (seqLe hdr.ack c.tcb.iss ∨ seqGt hdr.ack c.tcb.sndNxt) then
    if hdr.flags.rst then c else c.sendRst ipDst ipSrc hdr.dstPort hdr.srcPort hdr.ack 0
  else if hdr.flags.rst then
    if hdr.flags.ack then
      (c.completeConnect .connRefused).update fun t => t.closePreserveSocket .connRefused
    else c
  else if ¬ hdr.flags.syn then c
  else (c.takeSyn hdr).answerSyn

/-- `handle_syn_received`. -/
def handleSynReceived : Conn :=
  if hdr.flags.rst then (c.failAccept .connRefused).reset
  else if ¬ hdr.flags.ack then c
  else if ¬ seqLe c.tcb.sndUna hdr.ack ∨ ¬ seqLe hdr.ack c.tcb.sndNxt then c
  else
    (c.update fun t =>
      { t with sndUna := hdr.ack, sndWnd := hdr.window, state := .established
        }).cancelRetxTimer.completeAccept

/-- `process_data` is called only if there is a payload. -/
def processPayload : Conn := if payload = [] then c else c.processData hdr payload

/-- The acknowledgement and the payload of a segment. -/
def receive : Conn := (c.processAck hdr now).processPayload hdr payload

/-- Receive a FIN that comes after a payload. -/
def takeFin (state : TcpState) : Conn :=
  c.update fun t => { t with rcvNxt := hdr.seq + BitVec.ofNat 32 payload.length + 1, state }

/-- `handle_established`. -/
def handleEstablished : Conn :=
  if hdr.flags.rst then (c.completePendingWithError .connRefused).reset
  else if hdr.flags.syn then
    ((c.sendRst c.tcb.localIp c.tcb.remoteIp c.tcb.localPort c.tcb.remotePort hdr.ack
      0).completePendingWithError .connRefused).reset
  else if ¬ hdr.flags.ack then c
  else if hdr.flags.fin then
    (((c.receive hdr payload now).takeFin hdr payload .closeWait).sendAck).completeRecv .ok true
  else c.receive hdr payload now

/-- Enter the state `timeWait`. -/
def enterTimeWait : Conn :=
  c.update fun t => { t with state := .timeWait, timewaitDeadlineNs := now + 60000000000 }

/-- The reaction to a FIN, or to the acknowledgement of the own FIN, in the state `finWait1`. -/
def leaveFinWait1 : Conn :=
  if hdr.flags.fin then
    if seqGt hdr.ack c.tcb.finSeq then
      ((c.takeFin hdr payload .timeWait).enterTimeWait now).cancelRetxTimer.sendAck
    else (c.takeFin hdr payload .closing).sendAck
  else if seqGt hdr.ack c.tcb.finSeq then (c.setState .finWait2).cancelRetxTimer
  else c

/-- `handle_fin_wait1`. -/
def handleFinWait1 : Conn :=
  if hdr.flags.rst then c.reset
  else if ¬ hdr.flags.ack then c
  else (c.receive hdr payload now).leaveFinWait1 hdr payload now

/-- The acknowledgement of a segment, if it has one. -/
def processAckIf : Conn := if hdr.flags.ack then c.processAck hdr now else c

/-- The reaction to a FIN in the state `finWait2`. -/
def leaveFinWait2 : Conn :=
  if hdr.flags.fin then ((c.takeFin hdr payload .timeWait).enterTimeWait now).sendAck else c

/-- `handle_fin_wait2`. -/
def handleFinWait2 : Conn :=
  if hdr.flags.rst then c.reset
  else ((c.processAckIf hdr now).processPayload hdr payload).leaveFinWait2 hdr payload now

/-- `handle_close_wait`. -/
def handleCloseWait : Conn := if hdr.flags.rst then c.reset else c.processAckIf hdr now

/-- `handle_closing`. -/
def handleClosing : Conn :=
  if hdr.flags.rst then c.reset
  else if hdr.flags.ack ∧ seqGt hdr.ack c.tcb.finSeq then (c.enterTimeWait now).cancelRetxTimer
  else c

/-- `handle_last_ack`. -/
def handleLastAck : Conn :=
  if hdr.flags.rst then c.reset
  else if hdr.flags.ack ∧ seqGt hdr.ack c.tcb.finSeq then c.reset
  else c

/-- `handle_time_wait`. -/
def handleTimeWait : Conn :=
  if hdr.flags.rst then c.reset
  else if hdr.flags.fin then
    (c.update fun t => { t with timewaitDeadlineNs := now + 60000000000 }).sendSegment
      c.tcb.sndNxt c.tcb.rcvNxt { Flags.none with ack := true } 0 []
  else c

/-- `dispatch_segment` for a block that is not listening. -/
def dispatchSegment (ipSrc ipDst : ℕ) (hdr : Header) (payload : List Byte) (now : ℕ) : Conn :=
  match c.tcb.state with
  | .closed | .listen => c
  | .synSent => c.handleSynSent ipSrc ipDst hdr
  | .synReceived => c.handleSynReceived hdr
  | .established => c.handleEstablished hdr payload now
  | .finWait1 => c.handleFinWait1 hdr payload now
  | .finWait2 => c.handleFinWait2 hdr payload now
  | .closeWait => c.handleCloseWait hdr now
  | .closing => c.handleClosing hdr now
  | .lastAck => c.handleLastAck hdr
  | .timeWait => c.handleTimeWait hdr now

/-! ## Connecting and closing -/

/-- `tcp_connect`, once the block has its local address. -/
def tcpConnect (ip port : ℕ) (isn : Seq) (call now : ℕ) : Conn :=
  (c.update fun t =>
    { t with
      opts := { t.opts with lastError := none }
      remoteIp := ip
      remotePort := port
      iss := isn
      sndNxt := isn + 1
      sndUna := isn
      state := .synSent
      pendingConnect := some call }).sendSyn.setRetxTimer now

/-- Emit a FIN at `finSeq`. -/
def emitFin : Conn :=
  c.sendSegment c.tcb.finSeq c.tcb.rcvNxt { Flags.none with fin := true, ack := true } c.tcb.rcvWnd []

/-- Send a FIN and enter the given state. -/
def sendFin (state : TcpState) (now : ℕ) : Conn :=
  ((c.update fun t => { t with finSeq := t.sndNxt }).emitFin.update fun t =>
    { t with sndNxt := t.sndNxt + 1, state }).setRetxTimer now

/-- `tcp_close`. -/
def tcpClose : Conn :=
  match c.tcb.state with
  | .closed | .listen | .synSent => c.reset
  | .synReceived | .established => c.sendFin .finWait1 now
  | .closeWait => c.sendFin .lastAck now
  | .finWait1 | .finWait2 | .closing | .lastAck | .timeWait => c

/-! ## Timers -/

/-- Go back to the first byte that is not acknowledged. -/
def rewind : Conn := c.update fun t => { t with sndNxt := t.sndUna }

/-- The retransmission of a block. -/
def retransmit : Conn :=
  match c.tcb.state with
  | .synSent => c.sendSyn
  | .synReceived => c.sendSynAck
  | .established | .closeWait =>
    if c.tcb.txBuf.len > 0 then
      c.rewind.emitData (c.tcb.txBuf.peekAll (min c.tcb.txBuf.len c.tcb.mss))
    else c
  | .finWait1 | .closing | .lastAck => c.emitFin
  | _ => c

/-- Count a timeout. -/
def countTimeout : Conn := c.update fun t => { t with retxCount := t.retxCount + 1 }

/-- Double the time until the next retransmission. -/
def backOff : Conn := c.update fun t => { t with rtoMs := min (t.rtoMs * 2) 64000 }

/-- The reaction to a timeout. -/
def timeout : Conn :=
  if c.tcb.retxCount > 5 then
    (c.sendRst c.tcb.localIp c.tcb.remoteIp c.tcb.localPort c.tcb.remotePort c.tcb.sndNxt
      c.tcb.rcvNxt).giveUp .timedOut
  else c.backOff.retransmit.setRetxTimer now

/-- `process_timers` for one block. -/
def processTimers : Conn :=
  if ¬ c.tcb.active then c
  else if c.tcb.state = .timeWait ∧ c.tcb.timewaitDeadlineNs ≠ 0 ∧ c.tcb.timewaitDeadlineNs ≤ now then
    c.reset
  else if c.tcb.retxDeadlineNs = 0 ∨ now < c.tcb.retxDeadlineNs then c
  else c.countTimeout.timeout now

/-! ## Changes of the local address -/

/-- `handle_local_ip_change` and `handle_local_ip_loss` for one block. -/
def changeLocalIp (newIp : ℕ) : Conn :=
  if ¬ c.tcb.active ∨ ¬ c.tcb.dynamicLocalIp then c
  else
    match c.tcb.state with
    | .closed => c.update fun t => { t with localIp := newIp }
    | .listen => c.update fun t => { t with localIp := newIp, backlog := [] }
    | _ => c.giveUp .timedOut

end Conn

end SaltyOS.Tcp
