import Mathlib.Data.List.FinRange
import SaltyOS.Tcp.ControlBlock

/-!
# The TCP sockets of the network server

The table of control blocks, the queue of completions, and the requests and events that the network
server handles: the socket calls of the file server, incoming segments, timers, changes of the local
address, and the delivery of completions to the file server.

The file server is served only when the queue of completions is empty: the server delivers all
completions before it waits for the next request.

Some fields are not part of the implementation: `nextCall` numbers the calls that can be deferred,
`sent` has all segments that were emitted, `pushed` all completions that entered the queue, and `log`
has for every block, and for every number of resets of it, what the application was given.
-/

namespace SaltyOS.Tcp

/-- The number of control blocks. -/
abbrev maxTcpConns : ℕ := 16

/-- What the application is given: bytes that it consumes, bytes that it only looks at, or the end of
the stream. -/
inductive Delivery where
  | bytes (data : List Byte)
  | peek (data : List Byte)
  | eof
  deriving DecidableEq, Repr

/-- The state of the TCP sockets. -/
structure System where
  tcbs : Fin maxTcpConns → Tcb
  completions : List (Fin maxTcpConns × Completion)
  nextConnId : ℕ
  ephemeralPort : ℕ
  ourIp : ℕ
  vfsRegistered : Bool
  nextCall : ℕ
  sent : List Sent
  pushed : List (Fin maxTcpConns × Completion)
  log : Fin maxTcpConns → ℕ → List Delivery

namespace System

/-! ## Blocks and completions -/

variable (s : System) (i : Fin maxTcpConns)

/-- `push_completion`: a completion is dropped if the queue is full. -/
def push (c : Completion) : System :=
  if s.completions.length ≥ 64 then s
  else { s with completions := s.completions ++ [(i, c)], pushed := s.pushed ++ [(i, c)] }

/-- Push several completions. -/
def pushAll (cs : List Completion) : System := cs.foldl (fun s c => s.push i c) s

/-- Replace a control block. -/
def setTcb (t : Tcb) : System := { s with tcbs := Function.update s.tcbs i t }

/-- Change a control block. -/
def updateTcb (f : Tcb → Tcb) : System := s.setTcb i (f (s.tcbs i))

/-- The control block at work. -/
def conn : Conn := { tcb := s.tcbs i, sent := [], comps := [] }

/-- Take over the work of a control block. -/
def finish (c : Conn) : System :=
  ({ s.setTcb i c.tcb with sent := s.sent ++ c.sent }).pushAll i c.comps

/-- Let a control block work. -/
def onBlock (f : Conn → Conn) : System := s.finish i (f (s.conn i))

/-- Let the control blocks work one after another. -/
def onBlocks (f : Conn → Conn) : System :=
  (List.finRange maxTcpConns).foldl (fun s i => s.onBlock i f) s

/-- Emit a segment that belongs to no block. -/
def sendSegment (seg : Segment) : System :=
  { s with sent := s.sent ++ [{ seg, origin := none }] }

/-- `send_rst` for a segment that belongs to no block. -/
def sendRst (srcIp dstIp srcPort dstPort : ℕ) (seq ack : Seq) : System :=
  s.sendSegment
    { srcIp, dstIp, srcPort, dstPort, ttl := 64, seq, ack
      flags := { Flags.none with rst := true, ack := true }, window := 0, payload := [] }

/-! ## Looking for blocks, identifiers and ports -/

/-- `find_free_tcb`. -/
def findFreeTcb : Option (Fin maxTcpConns) :=
  (List.finRange maxTcpConns).find? fun i => !(s.tcbs i).active

/-- `find_tcb_by_conn_id`. -/
def findTcbByConnId (connId : ℕ) : Option (Fin maxTcpConns) :=
  (List.finRange maxTcpConns).find? fun i => (s.tcbs i).active && (s.tcbs i).connId == connId

/-- `find_tcb_by_tuple`. -/
def findTcbByTuple (localPort remoteIp remotePort : ℕ) : Option (Fin maxTcpConns) :=
  (List.finRange maxTcpConns).find? fun i =>
    (s.tcbs i).active && (s.tcbs i).localPort == localPort && (s.tcbs i).remoteIp == remoteIp &&
      (s.tcbs i).remotePort == remotePort && (s.tcbs i).state != .listen

/-- `find_listener`. -/
def findListener (localPort : ℕ) : Option (Fin maxTcpConns) :=
  (List.finRange maxTcpConns).find? fun i =>
    (s.tcbs i).active && (s.tcbs i).localPort == localPort && (s.tcbs i).state == .listen

/-- `alloc_conn_id`. The identifier is the value of `nextConnId` before. -/
def allocConnId : System :=
  { s with nextConnId := if s.nextConnId ≥ 999 then 1 else s.nextConnId + 1 }

/-- `port_in_use`. -/
def portInUse (port : ℕ) : Bool :=
  (List.finRange maxTcpConns).any fun i => (s.tcbs i).active && (s.tcbs i).localPort == port

/-- The port after the given one. -/
def nextPort (port : ℕ) : ℕ := if port ≥ 65535 then 49152 else port + 1

/-- The search of `alloc_ephemeral_port` for a port, with `fuel` ports left. -/
def findPort (s : System) : (fuel port : ℕ) → Option ℕ
  | 0, _ => none
  | fuel + 1, port => if s.portInUse port then s.findPort fuel (nextPort port) else some port

/-- `alloc_ephemeral_port`. -/
def allocEphemeralPort : Option ℕ := s.findPort 16384 s.ephemeralPort

/-- Take a number for a call. -/
def newCall : System := { s with nextCall := s.nextCall + 1 }

/-! ## Socket calls -/

/-- `tcp_socket`. -/
def tcpSocket : System :=
  match s.findFreeTcb with
  | none => s
  | some i =>
    s.allocConnId.updateTcb i fun t =>
      { t with active := true, state := .closed, connId := s.nextConnId, rcvWnd := 8192, mss := 1460 }

/-- `tcp_bind`. -/
def tcpBind (connId ip port : ℕ) : System :=
  match s.findTcbByConnId connId with
  | none => s
  | some i =>
    if (s.tcbs i).state ≠ .closed then s
    else
      s.updateTcb i fun t =>
        { t with
          dynamicLocalIp := ip == 0, localIp := if ip = 0 then s.ourIp else ip, localPort := port }

/-- `tcp_listen`. -/
def tcpListen (connId backlog : ℕ) : System :=
  match s.findTcbByConnId connId with
  | none => s
  | some i =>
    if (s.tcbs i).state ≠ .closed then s
    else if (s.tcbs i).localPort = 0 then s
    else s.updateTcb i fun t => { t with state := .listen, maxBacklog := max (min backlog 16) 1 }

/-- The block for a connection that a listening block accepts. -/
def childTcb (listener child : Tcb) (connId remoteIp remotePort : ℕ) (irs iss : Seq) (call : Option ℕ) :
    Tcb :=
  { child with
    active := true
    state := .synReceived
    connId
    parentConnId := listener.connId
    localIp := listener.localIp
    dynamicLocalIp := listener.dynamicLocalIp
    localPort := listener.localPort
    remoteIp
    remotePort
    irs
    rcvNxt := irs + 1
    iss
    sndNxt := iss + 1
    sndUna := iss
    rcvWnd := 8192
    mss := 1460
    opts := listener.opts
    pendingAccept := call }

/-- Give a free block to the first request of the backlog. -/
def acceptFirst (i j : Fin maxTcpConns) (pending : PendingSyn) (rest : List PendingSyn) (call : ℕ) :
    System :=
  (s.allocConnId.updateTcb i fun t => { t with backlog := rest }).updateTcb j fun t =>
    childTcb (s.tcbs i) t s.nextConnId pending.remoteIp pending.remotePort pending.irs pending.iss
      (some call)

/-- `tcp_accept`. It never returns a connection at once. -/
def tcpAccept (connId call : ℕ) : System :=
  match s.findTcbByConnId connId with
  | none => s
  | some i =>
    if (s.tcbs i).state ≠ .listen then s
    else
      match (s.tcbs i).backlog, s.findFreeTcb with
      | pending :: rest, some j => s.acceptFirst i j pending rest call
      | _, _ => s

/-- `set_pending_accept`. -/
def setPendingAccept (connId call : ℕ) : System :=
  match s.findTcbByConnId connId with
  | none => s
  | some i => s.updateTcb i fun t => { t with pendingAccept := some call }

/-- `handle_net_accept`. -/
def handleNetAccept (connId : ℕ) (armPending : Bool) : System :=
  if armPending then (s.newCall.tcpAccept connId s.nextCall).setPendingAccept connId s.nextCall
  else s.newCall.tcpAccept connId s.nextCall

/-- Give a block a local port if it has none. -/
def choosePort : Option System :=
  if (s.tcbs i).localPort = 0 then
    s.allocEphemeralPort.map fun port =>
      { s with ephemeralPort := nextPort port }.updateTcb i fun t => { t with localPort := port }
  else some s

/-- Give a block a local address if it has none. -/
def chooseAddress : System :=
  if (s.tcbs i).localIp = 0 then
    s.updateTcb i fun t => { t with localIp := s.ourIp, dynamicLocalIp := true }
  else s

/-- `tcp_connect`. -/
def tcpConnect (s : System) (connId ip port : ℕ) (isn : Seq) (now : ℕ) : System :=
  match s.findTcbByConnId connId with
  | none => s
  | some i =>
    if (s.tcbs i).state ≠ .closed then s
    else
      match s.choosePort i with
      | none => s
      | some s' =>
        (s'.chooseAddress i).newCall.onBlock i fun c => c.tcpConnect ip port isn s.nextCall now

/-- `tcp_send`. -/
def tcpSend (s : System) (connId : ℕ) (data : List Byte) (now : ℕ) : System :=
  match s.findTcbByConnId connId with
  | none => s
  | some i => s.onBlock i fun c => (c.tcpSend data now).2

/-- Note what the application is given. -/
def deliver (gen : ℕ) (d : Delivery) : System :=
  { s with
    log := Function.update s.log i (Function.update (s.log i) gen (s.log i gen ++ [d])) }

/-- `set_pending_recv`. -/
def setPendingRecv (maxLen : ℕ) (peek : Bool) (call : ℕ) : System :=
  s.updateTcb i fun t =>
    { t with pendingRecv := some call, pendingRecvMax := maxLen, pendingRecvPeek := peek }

/-- What a receive gives the application: no bytes in a state in which no more will arrive are the
end of the stream. -/
def delivery (t : Tcb) (peek : Bool) (data : List Byte) : Delivery :=
  if t.state.atEnd ∧ t.rxBuf.len = 0 then .eof
  else if peek then .peek data
  else .bytes data

/-- A receive by `tcp_recv`. -/
def recvNow (size : ℕ) (armPending : Bool) (call : ℕ) : System :=
  match (s.conn i).tcpRecv size with
  | (some data, c) => (s.finish i c).deliver i (s.tcbs i).gen (delivery (s.tcbs i) false data)
  | (none, c) =>
    if armPending then (s.finish i c).setPendingRecv i size false call else s.finish i c

/-- A receive by `tcp_recv_peek`. -/
def recvPeek (size : ℕ) (armPending : Bool) (call : ℕ) : System :=
  match (s.conn i).tcpRecvPeek size with
  | some data => s.deliver i (s.tcbs i).gen (delivery (s.tcbs i) true data)
  | none => if armPending then s.setPendingRecv i size true call else s

/-- `handle_net_recv` for a TCP socket. -/
def handleNetRecv (connId maxLen : ℕ) (peek armPending : Bool) : System :=
  match s.findTcbByConnId connId with
  | none => s.newCall
  | some i =>
    if peek then s.newCall.recvPeek i (min maxLen 152) armPending s.nextCall
    else s.newCall.recvNow i (min maxLen 152) armPending s.nextCall

/-- `tcp_close`. -/
def tcpClose (s : System) (connId now : ℕ) : System :=
  match s.findTcbByConnId connId with
  | none => s
  | some i => s.onBlock i fun c => c.tcpClose now

/-- `tcp_shutdown`. -/
def tcpShutdown (connId how now : ℕ) : System :=
  if how = 1 ∨ how = 2 then s.tcpClose connId now
  else
    match s.findTcbByConnId connId with
    | none => s
    | some i => s.updateTcb i fun t => { t with rxBuf := t.rxBuf.reset }

/-! ## Incoming segments -/

/-- Give a free block to a connection request that a pending accept waits for. -/
def acceptSyn (i j : Fin maxTcpConns) (ipSrc : ℕ) (hdr : Header) (isn : Seq) (now : ℕ) : System :=
  ((s.allocConnId.updateTcb j fun t =>
    { childTcb (s.tcbs i) t s.nextConnId ipSrc hdr.srcPort hdr.seq isn (s.tcbs i).pendingAccept with
      sndWnd := hdr.window }).onBlock j fun c => c.sendSynAck.setRetxTimer now).updateTcb i
    fun t => { t with pendingAccept := none }

/-- Put a connection request into the backlog. -/
def queueSyn (ipSrc : ℕ) (hdr : Header) (isn : Seq) : System :=
  (s.updateTcb i fun t =>
    { t with
      backlog := t.backlog ++
        [{ remoteIp := ipSrc, remotePort := hdr.srcPort, irs := hdr.seq, iss := isn }]
      }).sendSegment
    { srcIp := (s.tcbs i).localIp, dstIp := ipSrc, srcPort := (s.tcbs i).localPort
      dstPort := hdr.srcPort, ttl := (s.tcbs i).opts.ipTtl, seq := isn, ack := hdr.seq + 1
      flags := { Flags.none with syn := true, ack := true }, window := (s.tcbs i).rcvWnd
      payload := [] }

/-- `handle_listen`. -/
def handleListen (ipSrc ipDst : ℕ) (hdr : Header) (isn : Seq) (now : ℕ) : System :=
  if hdr.flags.rst then s
  else if hdr.flags.ack then s.sendRst ipDst ipSrc hdr.dstPort hdr.srcPort hdr.ack 0
  else if ¬ hdr.flags.syn then s
  else if (s.tcbs i).pendingAccept.isSome then
    match s.findFreeTcb with
    | none => s
    | some j => s.acceptSyn i j ipSrc hdr isn now
  else if (s.tcbs i).backlog.length ≥ (s.tcbs i).maxBacklog then s
  else s.queueSyn i ipSrc hdr isn

/-- `segment_len`. -/
def segmentLen (hdr : Header) (payload : List Byte) : ℕ :=
  payload.length + (if hdr.flags.syn then 1 else 0) + (if hdr.flags.fin then 1 else 0)

/-- `handle_segment`, for a segment whose checksum and header are right. -/
def handleSegment (ipSrc ipDst : ℕ) (hdr : Header) (payload : List Byte) (isn : Seq) (now : ℕ) :
    System :=
  match s.findTcbByTuple hdr.dstPort ipSrc hdr.srcPort with
  | some i => s.onBlock i fun c => c.dispatchSegment ipSrc ipDst hdr payload now
  | none =>
    match s.findListener hdr.dstPort with
    | some i => s.handleListen i ipSrc ipDst hdr isn now
    | none =>
      if hdr.flags.rst then s
      else if hdr.flags.ack then s.sendRst ipDst ipSrc hdr.dstPort hdr.srcPort hdr.ack 0
      else
        s.sendRst ipDst ipSrc hdr.dstPort hdr.srcPort 0
          (hdr.seq + BitVec.ofNat 32 (segmentLen hdr payload))

/-! ## Timers, addresses and the delivery of completions -/

/-- `process_timers`. -/
def processTimers (s : System) (now : ℕ) : System :=
  s.onBlocks fun c => c.processTimers now

/-- `handle_local_ip_change`, and `handle_local_ip_loss` for the address zero. -/
def changeLocalIp (s : System) (newIp : ℕ) : System :=
  { s with ourIp := newIp }.onBlocks fun c => c.changeLocalIp newIp

/-- `notify_vfs_completion`: at most 128 bytes of a receive reach the file server. -/
def notifyVfs (c : Completion) : System :=
  if ¬ s.vfsRegistered then s
  else if c.opType ≠ .recv ∨ c.result ≠ .ok ∨ c.call = none then s
  else if c.eof then s.deliver i c.gen .eof
  else if c.peek then s.deliver i c.gen (.peek (c.data.take 128))
  else s.deliver i c.gen (.bytes (c.data.take 128))

/-- `drain_completion_queue`. -/
def drainCompletionQueue : System :=
  s.completions.foldl (fun s ic => s.notifyVfs ic.1 ic.2) { s with completions := [] }

/-! ## Events -/

/-- The requests of the file server and the other events. -/
inductive Event where
  | registerVfs
  | socket
  | bind (connId ip port : ℕ)
  | listen (connId backlog : ℕ)
  | accept (connId : ℕ) (armPending : Bool)
  | connect (connId ip port : ℕ) (isn : Seq) (now : ℕ)
  | send (connId : ℕ) (data : List Byte) (now : ℕ)
  | recv (connId maxLen : ℕ) (peek armPending : Bool)
  | close (connId now : ℕ)
  | shutdown (connId how now : ℕ)
  | segment (ipSrc ipDst : ℕ) (hdr : Header) (payload : List Byte) (isn : Seq) (now : ℕ)
  | timers (now : ℕ)
  | ipChange (newIp : ℕ)
  | drain

namespace Event

/-- The state after an event. -/
def exec (e : Event) (s : System) : System :=
  match e with
  | registerVfs => { s with vfsRegistered := true }
  | socket => s.tcpSocket
  | bind connId ip port => s.tcpBind connId ip port
  | listen connId backlog => s.tcpListen connId backlog
  | accept connId armPending => s.handleNetAccept connId armPending
  | connect connId ip port isn now => s.tcpConnect connId ip port isn now
  | send connId data now => s.tcpSend connId data now
  | recv connId maxLen peek armPending => s.handleNetRecv connId maxLen peek armPending
  | close connId now => s.tcpClose connId now
  | shutdown connId how now => s.tcpShutdown connId how now
  | segment ipSrc ipDst hdr payload isn now => s.handleSegment ipSrc ipDst hdr payload isn now
  | timers now => s.processTimers now
  | ipChange newIp => s.changeLocalIp newIp
  | drain => s.drainCompletionQueue

/-- The event is a request of the file server. -/
def isRequest : Event → Bool
  | segment .. | timers _ | ipChange _ | drain => false
  | _ => true

/-- The event can happen. -/
def Enabled (e : Event) (s : System) : Prop :=
  e.isRequest = true → s.completions.isEmpty = true

instance (e : Event) (s : System) : Decidable (e.Enabled s) :=
  inferInstanceAs (Decidable (_ → _))

end Event

/-- The state in which the server starts. -/
def initial (ourIp : ℕ) : System where
  tcbs := fun _ =>
    Tcb.init (RingBuf.empty (fun _ => 0) (by decide)) (RingBuf.empty (fun _ => 0) (by decide)) 0
  completions := []
  nextConnId := 1
  ephemeralPort := 49152
  ourIp
  vfsRegistered := false
  nextCall := 0
  sent := []
  pushed := []
  log := fun _ _ => []

/-! ## Runs -/

/-- A step by an event that satisfies a condition. -/
def StepOf (P : System → Event → Prop) (s t : System) : Prop :=
  ∃ e, P s e ∧ t = e.exec s

/-- A step of the sockets. -/
def Step : System → System → Prop := StepOf fun s e => e.Enabled s

/-- The state after a sequence of events. -/
def execAll (s : System) : List Event → System
  | [] => s
  | e :: es => (e.exec s).execAll es

/-- Every event of a sequence satisfies a condition when it happens. -/
def Follows (P : System → Event → Prop) (s : System) : List Event → Prop
  | [] => True
  | e :: es => P s e ∧ Follows P (e.exec s) es

instance decidableFollows (P : System → Event → Prop) [∀ s e, Decidable (P s e)] :
    (s : System) → (es : List Event) → Decidable (Follows P s es)
  | _, [] => inferInstanceAs (Decidable True)
  | s, e :: es =>
    have := decidableFollows P (e.exec s) es
    inferInstanceAs (Decidable (P s e ∧ Follows P (e.exec s) es))

theorem run_execAll {P : System → Event → Prop} {s : System} {es : List Event} (h : Follows P s es) :
  Relation.ReflTransGen (StepOf P) s (s.execAll es)
  := by
  induction es generalizing s with
  | nil => exact .refl
  | cons e es ih => exact .head ⟨e, h.1, rfl⟩ (ih h.2)

end System

end SaltyOS.Tcp
