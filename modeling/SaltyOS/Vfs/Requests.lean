import SaltyOS.Vfs.Poll

/-!
# Requests to the file server

The handlers of the requests about descriptors, pipes, sockets and terminals, and the events of the
server: a request, the exit of a client, a timer, and the notifications of the other servers. Every
event takes a state to a state.

The answers of the other servers and of the parts of the server that are not modelled are given with
a request: whether there is memory, what a path leads to, and what terminals and the network say.
-/

namespace SaltyOS.Vfs

/-! ## What comes from outside -/

/-- The answer of the terminal server to a read. -/
inductive PtyAnswer where
  | error
  | data (bytes : List Byte)
  | empty
  | wait (deadline : ℕ)
  deriving DecidableEq, Repr

/-- The answer of the network server to a request, or to a request to wait. -/
inductive InetAnswer where
  | reply (reply : Reply)
  | accepted (connId : ℕ)
  | pending
  deriving DecidableEq, Repr

/-- What comes from outside with a request. -/
structure External where
  mem : Bool
  mem' : Bool
  ready : Readiness
  ready' : Readiness
  path : Except Label ℕ
  pick : ℕ
  pty : PtyAnswer
  inet : InetAnswer
  inetWait : InetAnswer
  reply : Reply
  now : ℕ

/-- There is memory, no path leads anywhere, and terminals and the network have nothing to say. -/
def External.quiet : External where
  mem := true
  mem' := true
  ready := fun _ _ => .none
  ready' := fun _ _ => .none
  path := .error .notFound
  pick := 0
  pty := .error
  inet := .reply (.error .invalidOperation)
  inetWait := .reply (.error .invalidOperation)
  reply := .ok []
  now := 0

/-- The slot of an end of a pipe. -/
def ObjectSlot.pipeEnd (h : ℕ) (isReadEnd nonblocking : Bool) : ObjectSlot :=
  { backing := .pipe h, canRead := isReadEnd, canWrite := !isReadEnd, nonblocking, cloexec := false }

namespace State

/-! ## Pipes -/

variable (s : State) (b : ℕ) (mem : Bool) (h : ℕ)

/-- `handle_pipe`. -/
def handlePipe (mem nonblocking : Bool) : Outcome :=
  if mem = false then s.fail .outOfMemory
  else
    match s.freeFd b 0 with
    | none => s.fail .outOfMemory
    | some r =>
      match (s.setObject b r (.of .reserved)).freeFd b 0 with
      | none => (s.setObject b r .zeroed).fail .outOfMemory
      | some w =>
        ((s.addPipe.setObject b r (.pipeEnd s.nextPipe true nonblocking)).setObject b w
          (.pipeEnd s.nextPipe false nonblocking)).ok [r, w]

/-- The caller was saved, and the pipe may have a new waiter. -/
def parkPipe (effect : Waiter → PipeEffect) : Outcome :=
  s.park fun t w => { state := t.setPipe h (effect w).pipe, reply := (effect w).reply }

/-- `handle_pipe_read`, for a slot of a pipe. -/
def handlePipeRead (o : ObjectSlot) (h requested : ℕ) : Outcome :=
  if o.canRead = false then s.fail .invalidArgument
  else
    match s.pipes h with
    | none => s.fail .invalidOperation
    | some p =>
      if 0 < p.buf.len then
        { state := ((s.setPipe h (p.readNow (PipeState.readCount p.buf.len requested)).pipe).sendAll
              (p.readNow (PipeState.readCount p.buf.len requested)).sends).wakePollWaitersPipe h
              false { Events.none with pollout := true }
          reply := (p.readNow (PipeState.readCount p.buf.len requested)).reply }
      else if p.writeRefcount = 0 then { state := s, reply := some (.bytes []) }
      else if o.nonblocking = true then s.fail .wouldBlock
      else s.parkPipe h fun w => p.read requested false w

/-- `handle_pipe_write`, for a slot of a pipe. -/
def handlePipeWrite (o : ObjectSlot) (h : ℕ) (data : List Byte) : Outcome :=
  if o.canWrite = false then s.fail .invalidArgument
  else
    match s.pipes h with
    | none => s.fail .invalidOperation
    | some p =>
      if p.readRefcount = 0 then s.fail .invalidOperation
      else if p.buf.free = 0 then
        if o.nonblocking = true then s.fail .wouldBlock
        else s.parkPipe h fun w => p.write data false w
      else if p.buf.writeLen (data.take 144) = 0 then s.ok [0]
      else
        { state := ((s.setPipe h (p.writeNow (data.take 144)).pipe).sendAll
              (p.writeNow (data.take 144)).sends).wakePollWaitersPipe h
              true { Events.none with pollin := true }
          reply := (p.writeNow (data.take 144)).reply }

/-- The pipe is released if both its ends are closed. -/
def releaseClosed (p : PipeState) : State :=
  if p.isClosed = true then s.releasePipe h else s

/-- The clients that wait at an end of a pipe are sent away. -/
def tearEnd (isReadEnd : Bool) (messages : List (Waiter × Reply)) : State :=
  State.sendAll { s with tornEnds := s.tornEnds ++ [(h, isReadEnd)] } messages

/-- `close_pipe`. -/
def closePipe (isReadEnd : Bool) : State :=
  match s.pipes h with
  | none => s
  | some p =>
    if isReadEnd = true then
      State.releaseClosed (if p.closeRead.1.readRefcount = 0 then
          ((s.setPipe h p.closeRead.1).tearEnd h true p.closeRead.2).wakePollWaitersPipe h false
            { Events.none with pollerr := true }
        else s.setPipe h p.closeRead.1) h p.closeRead.1
    else
      State.releaseClosed (if p.closeWrite.1.writeRefcount = 0 then
          ((s.setPipe h p.closeWrite.1).tearEnd h false p.closeWrite.2).wakePollWaitersPipe h true
            { Events.none with pollhup := true }
        else s.setPipe h p.closeWrite.1) h p.closeWrite.1

/-- A pipe with a name is created (`mkfifo`). -/
def handleMkfifo (reply : Reply) : Outcome :=
  if mem = false then s.fail .outOfMemory else { state := s.addPipe, reply := some reply }

/-! ## Descriptors -/

/-- An object is opened and gets the first free descriptor. -/
def install (o : ObjectSlot) : Outcome :=
  match s.freeFd b 0 with
  | none => s.fail .outOfMemory
  | some fd => (s.setObject b fd o).ok [fd]

/-- `handle_dup` and the `F_DUPFD` of `handle_fcntl`. -/
def handleDup (b old low : ℕ) (cloexec : Bool) : Outcome :=
  match s.resolveFd b old with
  | none => s.fail .invalidArgument
  | some o =>
    match s.freeFd b low with
    | none => s.fail .outOfMemory
    | some fd => (s.setObject b fd { o with cloexec }).ok [fd]

/-- `handle_dup2`. -/
def handleDup2 (b old new : ℕ) : Outcome :=
  if new ≥ maxClientObjects then s.fail .invalidArgument
  else
    match s.resolveFd b old with
    | none => s.fail .invalidArgument
    | some o =>
      if old = new then s.ok [new] else (s.setObject b new { o with cloexec := false }).ok [new]

/-- `handle_dup3`. -/
def handleDup3 (b old new : ℕ) (cloexec : Bool) : Outcome :=
  if new ≥ maxClientObjects ∨ old = new then s.fail .invalidArgument
  else
    match s.resolveFd b old with
    | none => s.fail .invalidArgument
    | some o => (s.setObject b new { o with cloexec }).ok [new]

/-- `handle_clone_fds`. -/
def handleCloneFds (parent child : ℕ) (mem : Bool) : Outcome :=
  if parent ∉ s.clients then s.fail .invalidArgument
  else
    match s.resolveClient child mem with
    | none => s.fail .outOfMemory
    | some t =>
      State.ok { t with toTables := t.toTables.cloneObjects parent child } []

/-- The flags of `handle_fcntl`. A flag that is not given stays. -/
def handleSetFlags (b fd : ℕ) (cloexec nonblocking : Option Bool) : Outcome :=
  match s.resolveFd b fd with
  | none => s.fail .invalidArgument
  | some o =>
    (s.setObject b fd
      { o with
        cloexec := cloexec.getD o.cloexec
        nonblocking := nonblocking.getD o.nonblocking }).ok [0]

/-! ## Sockets -/

/-- `handle_socket`. -/
def handleSocket : Outcome :=
  if mem = false then s.fail .outOfMemory
  else
    match s.freeFd b 0 with
    | none => s.fail .outOfMemory
    | some fd => ((s.addSocket .new).setObject b fd (.of (.unixSocket s.nextSocket))).ok [fd]

/-- `handle_bind`. The path leads to the number of the new vnode. -/
def handleBind (b fd : ℕ) (path : Except Label ℕ) : Outcome :=
  match s.unixSocketHandle b fd with
  | none => s.fail .invalidArgument
  | some h =>
    match s.sockets h with
    | none => s.fail .invalidOperation
    | some k =>
      if k.state ≠ .unbound then s.fail .invalidOperation
      else
        match path with
        | .error label => s.fail label
        | .ok ino => (s.setSocket h { k with state := .bound, boundIno := ino }).ok []

/-- `handle_listen`. -/
def handleListen (b fd backlog : ℕ) : Outcome :=
  match s.unixSocketHandle b fd with
  | none => s.fail .invalidArgument
  | some h =>
    match s.sockets h with
    | none => s.fail .invalidOperation
    | some k =>
      if k.state ≠ .bound then s.fail .invalidOperation
      else
        (s.setSocket h
          { k with state := .listening, backlog := min (backlog % 256) initialPendingConn }).ok []

/-- The accepted socket of a connection between two sockets. -/
def accepted (peer badge : ℕ) : SocketState := SocketState.new.connect peer badge

/-- The rest of `handle_accept` once a waiting connection was taken from the queue. -/
def acceptPending (p : PendingConn) : Outcome :=
  if mem = false then (s.send p.waiter (.error .outOfMemory)).fail .outOfMemory
  else
    match s.sockets p.socket with
    | none => (s.send p.waiter (.error .invalidOperation)).fail .invalidOperation
    | some c =>
      match s.freeFd b 0 with
      | none =>
        ((((s.addSocket (accepted p.socket p.waiter.badge)).setSocket p.socket
          (c.connect s.nextSocket b)).releaseSocket s.nextSocket).send p.waiter
          (.error .outOfMemory)).fail .outOfMemory
      | some fd =>
        ((((s.addSocket (accepted p.socket p.waiter.badge)).setSocket p.socket
          (c.connect s.nextSocket b)).setObject b fd (.of (.unixSocket s.nextSocket))).send
          p.waiter (.ok [])).ok [fd]

/-- `handle_accept`. -/
def handleAccept (b fd : ℕ) (mem : Bool) : Outcome :=
  match s.unixSocketHandle b fd with
  | none => s.fail .invalidArgument
  | some h =>
    match s.sockets h with
    | none => s.fail .invalidOperation
    | some k =>
      if k.state ≠ .listening then s.fail .invalidOperation
      else
        match k.pending.takeSlot fun _ => true with
        | some r =>
          (s.setSocket h { k with pending := r.2, pendingCount := k.pendingCount - 1 }).acceptPending
            b mem r.1
        | none => s.park fun t w => (t.setSocket h { k with acceptWaiter := some w }).deferred

/-- The rest of `handle_connect` if a client waits to accept. The accepted socket gets the first free
descriptor of that client. -/
def connectNow (b h : ℕ) (c : SocketState) (l : ℕ) (k : SocketState) (w : Waiter) : State :=
  ((s.addSocket (accepted h b)).setSocket h (c.connect s.nextSocket w.badge)).setSocket l
    { k with acceptWaiter := none }

/-- The descriptor that a waiting client gets for the accepted socket. -/
def acceptFd (w : Waiter) : Option ℕ :=
  if w.badge ∈ s.clients then s.freeFd w.badge 0 else none

/-- A waiting client gets the accepted socket `srv`, or a number that is not a descriptor. -/
def giveAccepted (w : Waiter) (srv : ℕ) : State :=
  match s.acceptFd w with
  | some fd => (s.setObject w.badge fd (.of (.unixSocket srv))).send w (.ok [fd])
  | none => s.send w (.ok [2 ^ 64 - 1])

/-- `find_listening_socket_by_bound_ino`: one of the sockets that listen at a vnode. -/
def listener (ino pick : ℕ) : Option SocketState :=
  (s.sockets pick).filter fun k => decide (k.state = .listening) && decide (k.boundIno = ino)

/-- The connection waits in the queue of the listening socket. -/
def queueConn (c : SocketState) (l : ℕ) (k : SocketState) (w : Waiter) : State :=
  match k.pending.putSlot { waiter := w, socket := h } with
  | none => s.setSocket h { c with state := .connecting }
  | some pending =>
    (s.setSocket h { c with state := .connecting }).setSocket l
      { k with pending, pendingCount := k.pendingCount + 1 }

/-- `handle_connect`. The path leads to the number of a vnode. -/
def handleConnect (b fd : ℕ) (path : Except Label ℕ) (pick : ℕ) (mem : Bool) : Outcome :=
  match s.unixSocketHandle b fd with
  | none => s.fail .invalidArgument
  | some h =>
    match s.sockets h with
    | none => s.fail .invalidOperation
    | some c =>
      if c.state ≠ .unbound then s.fail .invalidOperation
      else
        match path with
        | .error label => s.fail label
        | .ok ino =>
          match s.listener ino pick with
          | none => s.fail .invalidOperation
          | some k =>
            match k.acceptWaiter with
            | some w =>
              if mem = false then s.fail .outOfMemory
              else ((s.connectNow b h c pick k w).giveAccepted w s.nextSocket).ok []
            | none =>
              if k.pendingCount ≥ k.backlog then s.fail .busy
              else s.park fun t w => (t.queueConn h c pick k w).deferred

/-- The peer of the socket `h` learns that it gets nothing more. -/
def hangUpPeer (peer : Option ℕ) : State :=
  match peer with
  | none => s
  | some q =>
    match s.sockets q with
    | none => s
    | some k => (s.setSocket q (k.hangUp h).1).sendAll (k.hangUp h).2

/-- `handle_shutdown`. -/
def handleShutdown (b fd how : ℕ) : Outcome :=
  match s.unixSocketHandle b fd with
  | none => s.fail .invalidArgument
  | some h =>
    match s.sockets h with
    | none => s.fail .invalidArgument
    | some k =>
      if how = 1 ∨ how = 2 then
        ((s.setSocket h { k with shutRd := k.shutRd || how == 2, shutWr := true }).hangUpPeer
          h k.peerSocket).ok []
      else (s.setSocket h { k with shutRd := k.shutRd || how == 0 }).ok []

/-- `handle_sockpair`. -/
def handleSockpair (mem mem' : Bool) : Outcome :=
  if mem = false ∨ mem' = false then s.fail .outOfMemory
  else
    match s.freeFd b 0 with
    | none => s.fail .outOfMemory
    | some fd =>
      match (s.setObject b fd (.of .reserved)).freeFd b 0 with
      | none => (s.setObject b fd .zeroed).fail .outOfMemory
      | some fd' =>
        (((((s.addSocket (accepted (s.nextSocket + 1) b)).addSocket
          (accepted s.nextSocket b)).setObject b fd (.of (.unixSocket s.nextSocket))).setObject b
          fd' (.of (.unixSocket (s.nextSocket + 1))))).ok [fd, fd']

/-- `close_socket`. The client that waits to receive from the socket gets no message. -/
def closeSocket : State :=
  match s.sockets h with
  | none => s
  | some k =>
    if 0 < k.refcount - 1 then s.setSocket h { k with refcount := k.refcount - 1 }
    else ((s.hangUpPeer h k.peerSocket).sendAll k.farewell).releaseSocket h

/-- `handle_socket_read`. -/
def handleSocketRead : Outcome :=
  match s.sockets h with
  | none => s.fail .invalidOperation
  | some k =>
    if k.state ≠ .connected then s.fail .invalidOperation
    else if k.shutRd = true then { state := s, reply := some (.bytes []) }
    else if 0 < k.buf.len then
      { state := s.setSocket h { k with buf := k.buf.drop 152 }
        reply := some (.bytes (k.buf.peek 152)) }
    else if k.peerClosed = true then { state := s, reply := some (.bytes []) }
    else s.park fun t w => (t.setSocket h { k with recvWaiter := some w }).deferred

/-- Bytes arrive at a socket, and a waiting client may get them. -/
def arriveAt (q : ℕ) (k : SocketState) (data : List Byte) (limit : ℕ) (reply : List Byte → Reply) :
    State :=
  (s.setSocket q (k.arrive data limit reply).1).sendAll (k.arrive data limit reply).2

/-- `handle_socket_write`. -/
def handleSocketWrite (data : List Byte) : Outcome :=
  match s.sockets h with
  | none => s.fail .invalidOperation
  | some k =>
    if k.state ≠ .connected ∨ k.shutWr = true then s.fail .invalidOperation
    else
      match k.peerSocket with
      | none => s.fail .invalidOperation
      | some q =>
        match s.sockets q with
        | none => s.fail .invalidOperation
        | some peer =>
          if peer.peerClosed = true then s.fail .invalidOperation
          else
            (s.arriveAt q peer (data.take 144) 152 .bytes).ok [peer.buf.writeLen (data.take 144)]

/-- `handle_sendmsg`. -/
def handleSendmsg (b fd : ℕ) (data : List Byte) (fds : List ℕ) : Outcome :=
  match s.unixSocketHandle b fd with
  | none => s.fail .invalidArgument
  | some h =>
    match s.sockets h with
    | none => s.fail .invalidOperation
    | some k =>
      if k.state ≠ .connected ∨ k.shutWr = true then s.fail .invalidOperation
      else
        match k.peerSocket with
        | none => s.fail .invalidOperation
        | some q =>
          match s.sockets q with
          | none => s.fail .invalidOperation
          | some peer =>
            (s.arriveAt q { peer with pendingCaps := (fds.take 4).map (packCap b) }
              (data.take 120) 120 (fun bytes => .message bytes [])).ok
              [peer.buf.writeLen (data.take 120)]

/-- The slot that a packed descriptor refers to now. -/
def capSlot (packed : ℕ) : Option ObjectSlot :=
  if capBadge packed ∈ s.clients then s.resolveFd (capBadge packed) (capFd packed) else none

/-- The descriptors of a message are installed one after the other, each in the first free slot. A
descriptor that is not live any more, or for which there is no slot, is left out. -/
def installCaps (s : State) (b : ℕ) : List ℕ → State × List ℕ
  | [] => (s, [])
  | packed :: caps =>
    match s.capSlot packed with
    | none => s.installCaps b caps
    | some o =>
      match s.freeFd b 0 with
      | none => s.installCaps b caps
      | some fd =>
        (((s.setObject b fd o).installCaps b caps).1, fd :: ((s.setObject b fd o).installCaps b caps).2)

/-- `handle_recvmsg`. -/
def handleRecvmsg (b fd maxData : ℕ) : Outcome :=
  match s.unixSocketHandle b fd with
  | none => s.fail .invalidArgument
  | some h =>
    match s.sockets h with
    | none => s.fail .invalidOperation
    | some k =>
      if k.state ≠ .connected then s.fail .invalidOperation
      else if k.buf.len = 0 ∧ k.pendingCaps = [] then
        if k.peerClosed = true then { state := s, reply := some (.message [] []) }
        else s.park fun t w => (t.setSocket h { k with recvWaiter := some w }).deferred
      else
        { state := ((s.setSocket h (k.takeMessage maxData)).installCaps b k.pendingCaps).1
          reply := some (.message (k.buf.peek (min 120 maxData))
            ((s.setSocket h (k.takeMessage maxData)).installCaps b k.pendingCaps).2) }

/-! ## Closing -/

/-- What a slot refers to loses a reference. -/
def closeObject (o : ObjectSlot) : State :=
  match o.backing with
  | .unixSocket h => s.closeSocket h
  | .pipe h => s.closePipe h o.canRead
  | .epoll h => { s with epolls := Function.update s.epolls h none }
  | _ => s

/-- `pre_close`: what is released before a slot is cleared. -/
def preClose (b fd : ℕ) : State := (s.resolveFd b fd).elim s s.closeObject

/-- `handle_close_owned`, after `pre_close`. -/
def handleClose (b fd : ℕ) : Outcome :=
  match s.resolveFd b fd with
  | none => s.fail .invalidArgument
  | some _ => ((s.preClose b fd).setObject b fd .zeroed).ok []

/-- `clear_pty_pending_badge`. -/
def clearPtyPending : State :=
  State.sendAll
    { s with ptyPending := s.ptyPending.filter fun r => !decide (r.waiter.badge = b) }
    ((s.ptyPending.filter fun r => decide (r.waiter.badge = b)).map fun r =>
      (r.waiter, .error .invalidOperation))

/-- `cleanup_client_objects`. -/
def cleanupClientObjects : State :=
  (List.range maxClientObjects).foldl (fun t fd => t.preClose b fd) s

/-- The table of a client is cleared and the client is forgotten. -/
def removeClient (s : State) (b : ℕ) : State :=
  { s with toTables := s.toTables.removeClient b }

/-- `dispatch_client_exit`. -/
def clientExit : State :=
  if b ∈ s.clients then (((s.clearPtyPending b).cleanupClientObjects b).removeClient b) else s

/-! ## Terminals and the network -/

/-- `handle_pty_dev_read`. -/
def handlePtyDevRead (o : ObjectSlot) (ptyId requested : ℕ) (answer : PtyAnswer) : Outcome :=
  match answer with
  | .error => s.fail .invalidOperation
  | .data bytes => { state := s, reply := some (.bytes bytes) }
  | .empty =>
    if o.nonblocking = true then s.fail .wouldBlock else { state := s, reply := some (.bytes []) }
  | .wait deadline =>
    if o.nonblocking = true then s.fail .wouldBlock
    else if ptyId ≥ maxPtys ∨
        (s.ptyPending.filter fun r => decide (r.ptyId = ptyId)).length ≥ maxPtyWaiters then
      s.fail .busy
    else
      s.park fun t w => State.deferred
        { t with
          ptyPending := t.ptyPending ++
            [{ ptyId, waiter := w, maxCount := min requested 152, deadline }] }

/-- The readers of a terminal get what was collected, in their order. -/
def collect (s : State) (ptyId : ℕ) : List (List Byte) → State
  | [] => s
  | bytes :: rest =>
    match s.ptyPending.find? fun r => decide (r.ptyId = ptyId) with
    | none => s
    | some r =>
      (State.send { s with ptyPending := s.ptyPending.erase r } r.waiter (.bytes bytes)).collect
        ptyId rest

/-- `handle_pty_notification`, for one terminal. -/
def ptyNotification (ready : Readiness) (ptyId : ℕ) (collected : List (List Byte)) : State :=
  (s.collect ptyId collected).wakePtyPollWaiters ready ptyId

/-- `expire_pty_read_timeouts`. -/
def expirePtyTimeouts (now : ℕ) : State :=
  State.sendAll
    { s with
      ptyPending := s.ptyPending.filter fun r =>
        !(decide (r.deadline ≠ 0) && decide (r.deadline ≤ now)) }
    ((s.ptyPending.filter fun r => decide (r.deadline ≠ 0) && decide (r.deadline ≤ now)).map
      fun r => (r.waiter, .bytes []))

/-- `alloc_inet_fd`, with the reply that tells the descriptor. -/
def allocInetFd (b connId : ℕ) : Outcome :=
  if b ∈ s.clients then s.install b (.of (.inetSocket connId)) else s.fail .outOfMemory

/-- The reply of the network server reaches a client that was saved. -/
def answerInet (w : Waiter) (answer : InetAnswer) : State :=
  match answer with
  | .reply reply => s.send w reply
  | .accepted connId =>
    (s.allocInetFd w.badge connId).state.send w ((s.allocInetFd w.badge connId).reply.getD (.ok []))
  | .pending => s

/-- `alloc_pending`: the client waits for the network server if there is a slot. -/
def allocPending (op : InetOp) : State :=
  match s.inetPending.putSlot op with
  | none => s.send op.waiter (.error .outOfMemory)
  | some inetPending => { s with inetPending }

/-- The requests on network connections that can be deferred. A connection is not asked a second
time. -/
def handleInet (b fd : ℕ) (opType : InetOpType) (answer wait : InetAnswer) : Outcome :=
  match (s.resolveFd b fd).bind fun o => o.inetSocketId.map fun id => (o, id) with
  | none => s.fail .invalidArgument
  | some x =>
    match answer with
    | .reply reply => { state := s, reply := some reply }
    | .accepted connId => s.allocInetFd b connId
    | .pending =>
      if x.1.nonblocking = true then
        s.fail (if opType = .connect then .inProgress else .wouldBlock)
      else if opType ≠ .connect ∧ s.inetPending.reduceOption.length ≥ maxPendingInet then
        s.fail .outOfMemory
      else
        s.park fun t w =>
          if opType = .connect ∨ wait = .pending then
            (t.allocPending { waiter := w, connId := x.2, opType }).deferred
          else (t.answerInet w wait).deferred

/-- `handle_netsrv_callback`: the network server completes a request. -/
def netsrvCallback (connId : ℕ) (opType : InetOpType) (answer : InetAnswer) : Outcome :=
  match s.inetPending.takeSlot fun op => decide (op.connId = connId) && decide (op.opType = opType) with
  | none => s.ok []
  | some r =>
    State.ok (State.answerInet { s with inetPending := r.2 } r.1.waiter
        (if answer = .pending then .reply (.ok []) else answer)) []

end State

/-! ## Events -/

/-- The requests of a client. The last one stands for all requests that touch nothing of this. -/
inductive Request where
  | pipe (nonblocking : Bool)
  | mkfifo
  | openFifo (handle : ℕ) (canRead canWrite nonblocking : Bool)
  | removeFifo (handle : ℕ)
  | openVnode (id : ℕ) (slot : ObjectSlot)
  | openDevice (devType : DevType) (ptyId : ℕ) (slot : ObjectSlot)
  | openInet (id : ℕ)
  | dup (old : ℕ)
  | dupfd (old low : ℕ) (cloexec : Bool)
  | dup2 (old new : ℕ)
  | dup3 (old new : ℕ) (cloexec : Bool)
  | cloneFds (parent child : ℕ)
  | setCloexec (fd : ℕ) (cloexec : Bool)
  | setNonblocking (fd : ℕ) (nonblocking : Bool)
  | socket
  | bind (fd : ℕ)
  | listen (fd backlog : ℕ)
  | accept (fd : ℕ)
  | connect (fd : ℕ)
  | shutdown (fd how : ℕ)
  | sockpair
  | read (fd requested : ℕ)
  | write (fd : ℕ) (data : List Byte)
  | sendmsg (fd : ℕ) (data : List Byte) (fds : List ℕ)
  | recvmsg (fd maxData : ℕ)
  | inet (fd : ℕ) (opType : InetOpType)
  | close (fd : ℕ)
  | poll (fds : List (ℕ × Events)) (timeout : ℤ)
  | epollCreate
  | epollCtl (epfd op : ℕ) (entry : Watch)
  | epollWait (epfd maxEvents : ℕ) (timeout : ℤ)
  | other
  deriving DecidableEq

namespace State

/-- `dispatch_read`. -/
def dispatchRead (s : State) (b fd requested : ℕ) (ext : External) : Outcome :=
  match s.resolveFd b fd with
  | none => { state := s, reply := some ext.reply }
  | some o =>
    match o.backing with
    | .unixSocket h => s.handleSocketRead h
    | .pipe h => s.handlePipeRead o h requested
    | .device .ptySlave id => s.handlePtyDevRead o id requested ext.pty
    | .inetSocket _ => s.handleInet b fd .recv ext.inet ext.inetWait
    | _ => { state := s, reply := some ext.reply }

/-- `dispatch_write`. -/
def dispatchWrite (s : State) (b fd : ℕ) (data : List Byte) (ext : External) : Outcome :=
  match s.resolveFd b fd with
  | none => { state := s, reply := some ext.reply }
  | some o =>
    match o.backing with
    | .unixSocket h => s.handleSocketWrite h data
    | .pipe h => s.handlePipeWrite o h data
    | _ => { state := s, reply := some ext.reply }

/-- The handler of a request of a client. -/
def handle (s : State) (b : ℕ) (ext : External) : Request → Outcome
  | .pipe nonblocking => s.handlePipe b ext.mem nonblocking
  | .mkfifo => s.handleMkfifo ext.mem ext.reply
  | .openFifo h canRead canWrite nonblocking =>
    if h < s.nextPipe then
      s.install b { backing := .pipe h, canRead, canWrite, nonblocking, cloexec := false }
    else s.fail .invalidOperation
  | .removeFifo h => { state := s.releasePipe h, reply := some ext.reply }
  | .openVnode id o => s.install b { o with backing := .vnode id }
  | .openDevice devType id o => s.install b { o with backing := .device devType id }
  | .openInet id => s.install b (.of (.inetSocket id))
  | .dup old => s.handleDup b old 0 false
  | .dupfd old low cloexec => s.handleDup b old low cloexec
  | .dup2 old new => s.handleDup2 b old new
  | .dup3 old new cloexec => s.handleDup3 b old new cloexec
  | .cloneFds parent child => s.handleCloneFds parent child ext.mem
  | .setCloexec fd cloexec => s.handleSetFlags b fd (some cloexec) none
  | .setNonblocking fd nonblocking => s.handleSetFlags b fd none (some nonblocking)
  | .socket => s.handleSocket b ext.mem
  | .bind fd => s.handleBind b fd ext.path
  | .listen fd backlog => s.handleListen b fd backlog
  | .accept fd => s.handleAccept b fd ext.mem
  | .connect fd => s.handleConnect b fd ext.path ext.pick ext.mem
  | .shutdown fd how => s.handleShutdown b fd how
  | .sockpair => s.handleSockpair b ext.mem ext.mem'
  | .read fd requested => s.dispatchRead b fd requested ext
  | .write fd data => s.dispatchWrite b fd data ext
  | .sendmsg fd data fds => s.handleSendmsg b fd data fds
  | .recvmsg fd maxData => s.handleRecvmsg b fd maxData
  | .inet fd opType => s.handleInet b fd opType ext.inet ext.inetWait
  | .close fd => s.handleClose b fd
  | .poll fds timeout => s.handlePoll b ext.ready ext.ready' ext.mem ext.now fds timeout
  | .epollCreate => s.handleEpollCreate b ext.mem
  | .epollCtl epfd op entry => s.handleEpollCtl b epfd op entry
  | .epollWait epfd maxEvents timeout =>
    s.handleEpollWait b ext.ready ext.ready' ext.mem ext.now epfd maxEvents timeout
  | .other => { state := s, reply := some ext.reply }

end State

/-- The events of the server. All clients have the POSIX personality: a registration that asks for the
other one, with requests and a clean-up of its own, is not an event here. -/
inductive Event where
  | request (b : ℕ) (mem : Bool) (ext : External) (r : Request)
  | register (b target : ℕ) (mem : Bool)
  | exit (b : ℕ)
  | exec (b : ℕ)
  | pollTimer (now : ℕ)
  | ptyTimer (now : ℕ)
  | ptyNotification (ready : Readiness) (ptyId : ℕ) (collected : List (List Byte))
  | netsrvCallback (b connId : ℕ) (opType : InetOpType) (answer : InetAnswer)

namespace State

/-- What an event does. -/
def exec (s : State) : Event → State
  | .request b mem ext r =>
    match (s.receive b).resolveClient b mem with
    | none => ((s.receive b).fail .outOfMemory).finish
    | some t => (t.handle b ext r).finish
  | .register b target mem =>
    match (s.receive b).resolveClient target mem with
    | none => ((s.receive b).fail .outOfMemory).finish
    | some t => (t.ok []).finish
  | .exit b => s.clientExit b
  | .exec b => s.clearPtyPending b
  | .pollTimer now => s.expirePollTimeouts now
  | .ptyTimer now => s.expirePtyTimeouts now
  | .ptyNotification ready ptyId collected => s.ptyNotification ready ptyId collected
  | .netsrvCallback b connId opType answer =>
    ((s.receive b).netsrvCallback connId opType answer).finish

/-- What several events do. -/
def execAll (s : State) (events : List Event) : State := events.foldl exec s

/-- A step that meets a condition on the state and the event. -/
def StepOf (C : State → Event → Prop) (s t : State) : Prop := ∃ e, C s e ∧ t = s.exec e

/-- Every event of a list meets a condition in the state in which it happens. -/
def Follows (C : State → Event → Prop) (s : State) : List Event → Prop
  | [] => True
  | e :: events => C s e ∧ (s.exec e).Follows C events

/-- A list of events is a run. -/
theorem run_execAll {C : State → Event → Prop} {s : State} {events : List Event}
    (h : s.Follows C events) :
  Relation.ReflTransGen (StepOf C) s (s.execAll events)
  := by
  induction events generalizing s with
  | nil => rfl
  | cons e events ih => exact Relation.ReflTransGen.head ⟨e, h.1, rfl⟩ (ih h.2)

end State

end SaltyOS.Vfs
