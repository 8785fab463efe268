import SaltyOS.Vfs.Frame

/-!
# What the handlers do

All that a handler can do, with the conditions under which it does it. Most handlers answer at once
and change little, or save the caller. The others overwrite or clear slots, read and write pipes,
pass descriptors, or put a client to sleep.
-/

namespace SaltyOS.Vfs

namespace State

/-! ## Acts -/

/-- How a request goes on at a socket, a terminal or the network after its caller was saved. -/
inductive Wait (s : State) (b : ℕ) : Request → (State → Waiter → Outcome) → Prop
  | accept {fd h : ℕ} {k : SocketState} (hh : s.unixSocketHandle b fd = some h)
    (hk : s.sockets h = some k) (htake : k.pending.takeSlot (fun _ => true) = none) :
    Wait s b (.accept fd) fun t w => (t.setSocket h { k with acceptWaiter := some w }).deferred
  | connect {fd h l : ℕ} {c k : SocketState} (hc : s.sockets h = some c)
    (hk : s.sockets l = some k) (hne : l ≠ h) (hroom : ¬k.pendingCount ≥ k.backlog) :
    Wait s b (.connect fd) fun t w => (t.queueConn h c l k w).deferred
  | receive {r : Request} {fd n h : ℕ} {k : SocketState} (hr : r = .read fd n ∨ r = .recvmsg fd n)
    (hh : s.unixSocketHandle b fd = some h) (hk : s.sockets h = some k) (hempty : k.buf.len = 0) :
    Wait s b r fun t w => (t.setSocket h { k with recvWaiter := some w }).deferred
  | terminal {r : Request} (ptyId maxCount deadline : ℕ) :
    Wait s b r fun t w => State.deferred
      { t with ptyPending := t.ptyPending ++ [{ ptyId, waiter := w, maxCount, deadline }] }
  | network {r : Request} (connId : ℕ) (opType : InetOpType) (wait : InetAnswer) :
    Wait s b r fun t w =>
      if opType = .connect ∨ wait = .pending then
        (t.allocPending { waiter := w, connId, opType }).deferred
      else (t.answerInet w wait).deferred

/-- What a handler does that overwrites nothing and wakes nobody up. -/
inductive SmallAct (s : State) (b : ℕ) (ext : External) : Request → Outcome → Prop
  | answer {r : Request} (reply : Reply) : SmallAct s b ext r { state := s, reply := some reply }
  | wait {r : Request} {next : State → Waiter → Outcome} (h : s.Wait b r next) :
    SmallAct s b ext r (s.park next)
  | fill {r : Request} {fd : ℕ} {o : ObjectSlot} (reply : Reply) (hfd : s.freeFd b 0 = some fd)
    (hpipe : o.pipeHandle = none) (hsocket : o.unixSocketHandle = none) :
    SmallAct s b ext r { state := s.setObject b fd o, reply := some reply }
  | pipe {nonblocking : Bool} {fd fd' : ℕ} (hfd : s.freeFd b 0 = some fd)
    (hfd' : (s.setObject b fd (.of .reserved)).freeFd b 0 = some fd') :
    SmallAct s b ext (.pipe nonblocking)
      (((s.addPipe.setObject b fd (.pipeEnd s.nextPipe true nonblocking)).setObject b fd'
        (.pipeEnd s.nextPipe false nonblocking)).ok [fd, fd'])
  | mkfifo : SmallAct s b ext .mkfifo { state := s.addPipe, reply := some ext.reply }
  | openFifo {h fd : ℕ} {canRead canWrite nonblocking : Bool} (hlt : h < s.nextPipe)
    (hfd : s.freeFd b 0 = some fd) :
    SmallAct s b ext (.openFifo h canRead canWrite nonblocking) ((s.setObject b fd
        { backing := .pipe h, canRead, canWrite, nonblocking, cloexec := false }).ok [fd])
  | copy {r : Request} {old low fd : ℕ} {cloexec : Bool} {o : ObjectSlot}
    (hr : r = .dup old ∨ r = .dupfd old low cloexec) (ho : s.resolveFd b old = some o)
    (hfd : s.freeFd b low = some fd) :
    SmallAct s b ext r ((s.setObject b fd { o with cloexec }).ok [fd])
  | flags {r : Request} {fd : ℕ} {o : ObjectSlot} (cloexec nonblocking : Bool)
    (ho : s.resolveFd b fd = some o) :
    SmallAct s b ext r ((s.setObject b fd { o with cloexec, nonblocking }).ok [0])
  | socket {fd : ℕ} (hfd : s.freeFd b 0 = some fd) :
    SmallAct s b ext .socket
      (((s.addSocket .new).setObject b fd (.of (.unixSocket s.nextSocket))).ok [fd])
  | setSocket {r : Request} {h : ℕ} {k : SocketState} (reply : Reply) (state : SockState)
    (boundIno backlog : ℕ) (buf : GapRing Byte sockBufSize) (shutRd : Bool)
    (hk : s.sockets h = some k)
    (hbacklog : k.backlog ≤ initialPendingConn → backlog ≤ initialPendingConn) :
    SmallAct s b ext r
      { state := s.setSocket h { k with state, boundIno, backlog, buf, shutRd }
        reply := some reply }
  | accept {fd h : ℕ} {k : SocketState} {p : PendingConn × List (Option PendingConn)}
    (hk : s.sockets h = some k) (htake : k.pending.takeSlot (fun _ => true) = some p) :
    SmallAct s b ext (.accept fd)
      ((s.setSocket h { k with pending := p.2, pendingCount := k.pendingCount - 1 }).acceptPending
        b ext.mem p.1)
  | connect {fd h ino : ℕ} {c k : SocketState} {w : Waiter} (hc : s.sockets h = some c)
    (hpath : ext.path = .ok ino) (hk : s.listener ino ext.pick = some k) (hne : ext.pick ≠ h)
    (hw : k.acceptWaiter = some w) :
    SmallAct s b ext (.connect fd)
      (((s.connectNow b h c ext.pick k w).giveAccepted w s.nextSocket).ok [])
  | shutdown {fd how h : ℕ} {k : SocketState} (shutRd : Bool) (hk : s.sockets h = some k) :
    SmallAct s b ext (.shutdown fd how)
      (((s.setSocket h { k with shutRd, shutWr := true }).hangUpPeer h k.peerSocket).ok [])
  | sockpair {fd fd' : ℕ} (hfd : s.freeFd b 0 = some fd)
    (hfd' : (s.setObject b fd (.of .reserved)).freeFd b 0 = some fd') :
    SmallAct s b ext .sockpair (((((s.addSocket (accepted (s.nextSocket + 1) b)).addSocket
        (accepted s.nextSocket b)).setObject b fd (.of (.unixSocket s.nextSocket))).setObject b
        fd' (.of (.unixSocket (s.nextSocket + 1)))).ok [fd, fd'])
  | arrive {r : Request} {q : ℕ} {peer : SocketState} (data : List Byte) (limit : ℕ)
    (reply : List Byte → Reply) (values : List ℕ) (hq : s.sockets q = some peer) :
    SmallAct s b ext r ((s.arriveAt q peer data limit reply).ok values)
  | epollCreate {fd : ℕ} (hfd : s.freeFd b 0 = some fd) :
    SmallAct s b ext .epollCreate ((s.addEpoll.setObject b fd (.of (.epoll s.nextEpoll))).ok [fd])
  | setEpoll {r : Request} (h : ℕ) (entries : List (Option Watch)) :
    SmallAct s b ext r ((s.setEpoll h entries).ok [])

/-- What a handler does. -/
inductive Act (s : State) (b : ℕ) (ext : External) : Request → Outcome → Prop
  | small {r : Request} {o : Outcome} (h : s.SmallAct b ext r o) : Act s b ext r o
  | removeFifo {h : ℕ} :
    Act s b ext (.removeFifo h) { state := s.releasePipe h, reply := some ext.reply }
  | replace {r : Request} {old new : ℕ} {cloexec : Bool} {o : ObjectSlot}
    (hr : r = .dup2 old new ∨ r = .dup3 old new cloexec) (ho : s.resolveFd b old = some o)
    (hnew : new < maxClientObjects) (hne : old ≠ new) :
    Act s b ext r ((s.setObject b new { o with cloexec }).ok [new])
  | cloneFds {parent child : ℕ} {t : State} (ht : s.resolveClient child ext.mem = some t) :
    Act s b ext (.cloneFds parent child)
      (State.ok { t with toTables := t.toTables.cloneObjects parent child } [])
  | read {fd requested h : ℕ} {o : ObjectSlot} {p : PipeState} (ho : s.resolveFd b fd = some o)
    (hh : o.backing = .pipe h) (hp : s.pipes h = some p) (hlen : 0 < p.buf.len) :
    Act s b ext (.read fd requested)
      { state := ((s.setPipe h (p.readNow (PipeState.readCount p.buf.len requested)).pipe).sendAll
            (p.readNow (PipeState.readCount p.buf.len requested)).sends).wakePollWaitersPipe h
            false { Events.none with pollout := true }
        reply := (p.readNow (PipeState.readCount p.buf.len requested)).reply }
  | readWait {fd requested h : ℕ} {o : ObjectSlot} {p : PipeState}
    (ho : s.resolveFd b fd = some o) (hh : o.backing = .pipe h) (hp : s.pipes h = some p)
    (hempty : ¬0 < p.buf.len) (hopen : p.writeRefcount ≠ 0) (hblock : ¬o.nonblocking = true) :
    Act s b ext (.read fd requested) (s.parkPipe h fun w => p.read requested false w)
  | write {fd h : ℕ} {data : List Byte} {o : ObjectSlot} {p : PipeState}
    (ho : s.resolveFd b fd = some o) (hh : o.backing = .pipe h) (hp : s.pipes h = some p)
    (hlen : p.buf.writeLen (data.take 144) ≠ 0) :
    Act s b ext (.write fd data)
      { state := ((s.setPipe h (p.writeNow (data.take 144)).pipe).sendAll
            (p.writeNow (data.take 144)).sends).wakePollWaitersPipe h
            true { Events.none with pollin := true }
        reply := (p.writeNow (data.take 144)).reply }
  | writeWait {fd h : ℕ} {data : List Byte} {o : ObjectSlot} {p : PipeState}
    (ho : s.resolveFd b fd = some o) (hh : o.backing = .pipe h) (hp : s.pipes h = some p)
    (hopen : p.readRefcount ≠ 0) (hfull : p.buf.free = 0) (hblock : ¬o.nonblocking = true) :
    Act s b ext (.write fd data) (s.parkPipe h fun w => p.write data false w)
  | sendmsg {fd q : ℕ} {data : List Byte} {fds : List ℕ} {peer : SocketState}
    (hq : s.sockets q = some peer) :
    Act s b ext (.sendmsg fd data fds)
      ((s.arriveAt q { peer with pendingCaps := (fds.take 4).map (packCap b) }
        (data.take 120) 120 (fun bytes => .message bytes [])).ok
        [peer.buf.writeLen (data.take 120)])
  | recvmsg {fd maxData h : ℕ} {k : SocketState} (hh : s.unixSocketHandle b fd = some h)
    (hk : s.sockets h = some k) :
    Act s b ext (.recvmsg fd maxData)
      { state := ((s.setSocket h (k.takeMessage maxData)).installCaps b k.pendingCaps).1
        reply := some (.message (k.buf.peek (min 120 maxData))
          ((s.setSocket h (k.takeMessage maxData)).installCaps b k.pendingCaps).2) }
  | close {fd : ℕ} {o : ObjectSlot} (ho : s.resolveFd b fd = some o) :
    Act s b ext (.close fd) (((s.preClose b fd).setObject b fd .zeroed).ok [])
  | poll {fds : List (ℕ × Events)} {timeout : ℤ}
    (hwait : ¬(timeout = 0 ∨ ∃ x ∈ fds.take 8, s.checkFdReadiness ext.ready b x.1 x.2 ≠ .none)) :
    Act s b ext (.poll fds timeout) (s.park fun t w => t.sleep ext.ready' ext.mem
      { kind := .poll
        waiter := w
        objects := (fds.take 8).map fun x => { fd := x.1, events := x.2, data := 0 }
        deadline := timeoutDeadline ext.now timeout })
  | epollWait {epfd maxEvents : ℕ} {timeout : ℤ} {x : ℕ × List (Option Watch)}
    (hx : s.epollOf b epfd = some x)
    (hwait : ¬(timeout = 0 ∨ (0 < maxEvents ∧
      ∃ e ∈ x.2.reduceOption, s.checkFdReadiness ext.ready b e.fd e.events ≠ .none))) :
    Act s b ext (.epollWait epfd maxEvents timeout) (s.park fun t w => t.sleep ext.ready' ext.mem
        { kind := .epoll
          waiter := w
          objects := x.2.reduceOption.take 8
          deadline := timeoutDeadline ext.now timeout })

/-! ## Pipes and descriptors -/

variable {s : State} {b : ℕ} {ext : External} {r : Request}

/-- An answer at once, with the state as it was. -/
theorem Act.same (reply : Reply) :
  s.Act b ext r { state := s, reply := some reply }
  := .small (.answer reply)

/-- A new pipe gets two descriptors, or none. -/
theorem act_handlePipe (nonblocking : Bool) :
  s.Act b ext (.pipe nonblocking) (s.handlePipe b ext.mem nonblocking)
  := by
  unfold handlePipe
  split
  · apply Act.same
  split
  · apply Act.same
  rename_i hfd
  split
  · exact .small (.fill _ hfd rfl rfl)
  next hfd' => exact .small (.pipe hfd hfd')

/-- An object that is no pipe and no socket is opened. -/
theorem act_install {o : ObjectSlot} (hpipe : o.pipeHandle = none)
    (hsocket : o.unixSocketHandle = none) :
  s.Act b ext r (s.install b o)
  := by
  unfold install
  split
  · apply Act.same
  next hfd => exact .small (.fill _ hfd hpipe hsocket)

/-- The copy gets the lowest free descriptor. -/
theorem act_handleDup {old low : ℕ} {cloexec : Bool} (hr : r = .dup old ∨ r = .dupfd old low cloexec) :
  s.Act b ext r (s.handleDup b old low cloexec)
  := by
  unfold handleDup
  split
  · apply Act.same
  rename_i ho
  split
  · apply Act.same
  next hfd => exact .small (.copy hr ho hfd)

/-- The copy overwrites a descriptor, unless it is the old one. -/
theorem act_handleDup2 (old new : ℕ) :
  s.Act b ext (.dup2 old new) (s.handleDup2 b old new)
  := by
  unfold handleDup2
  split
  · apply Act.same
  rename_i hnew
  split
  · apply Act.same
  rename_i ho
  split
  · apply Act.same
  next hne => exact .replace (.inl rfl) ho (Nat.lt_of_not_le hnew) hne

/-- The same, but the old descriptor is refused. -/
theorem act_handleDup3 (old new : ℕ) (cloexec : Bool) :
  s.Act b ext (.dup3 old new cloexec) (s.handleDup3 b old new cloexec)
  := by
  unfold handleDup3
  split_ifs with hbad
  · apply Act.same
  obtain ⟨hnew, hne⟩ := not_or.mp hbad
  split
  · apply Act.same
  next ho => exact .replace (.inr rfl) ho (Nat.lt_of_not_le hnew) hne

/-- A child gets the descriptors of its parent. -/
theorem act_handleCloneFds (parent child : ℕ) :
  s.Act b ext (.cloneFds parent child) (s.handleCloneFds parent child ext.mem)
  := by
  unfold handleCloneFds
  split
  · apply Act.same
  split
  · apply Act.same
  next ht => exact .cloneFds ht

/-- The flags of a descriptor. -/
theorem act_handleSetFlags (fd : ℕ) (cloexec nonblocking : Option Bool) :
  s.Act b ext r (s.handleSetFlags b fd cloexec nonblocking)
  := by
  unfold handleSetFlags
  split
  · apply Act.same
  next ho => exact .small (.flags _ _ ho)

/-- A read finds bytes, the end of the stream, or nothing to read. -/
theorem act_handlePipeRead {fd h : ℕ} {o : ObjectSlot} (ho : s.resolveFd b fd = some o)
    (hh : o.backing = .pipe h) (requested : ℕ) :
  s.Act b ext (.read fd requested) (s.handlePipeRead o h requested)
  := by
  unfold handlePipeRead
  split
  · apply Act.same
  split
  · apply Act.same
  rename_i hp
  split
  next hlen => exact .read ho hh hp hlen
  rename_i hempty
  split
  · apply Act.same
  rename_i hopen
  split
  · apply Act.same
  next hblock => exact .readWait ho hh hp hempty hopen hblock

/-- A write finds room, no reader, or a full buffer. -/
theorem act_handlePipeWrite {fd h : ℕ} {o : ObjectSlot} (ho : s.resolveFd b fd = some o)
    (hh : o.backing = .pipe h) (data : List Byte) :
  s.Act b ext (.write fd data) (s.handlePipeWrite o h data)
  := by
  unfold handlePipeWrite
  split
  · apply Act.same
  split
  · apply Act.same
  rename_i hp
  split
  · apply Act.same
  rename_i hopen
  split
  next hfull =>
    split
    · apply Act.same
    next hblock => exact .writeWait ho hh hp hopen hfull hblock
  · split
    · apply Act.same
    next hlen => exact .write ho hh hp hlen

/-! ## Sockets -/

/-- A new socket is not connected. -/
theorem act_handleSocket :
  s.Act b ext .socket (s.handleSocket b ext.mem)
  := by
  unfold handleSocket
  split
  · apply Act.same
  split
  · apply Act.same
  next hfd => exact .small (.socket hfd)

/-- The name of a socket is an inode of the file system. -/
theorem act_handleBind (fd : ℕ) (path : Except Label ℕ) :
  s.Act b ext r (s.handleBind b fd path)
  := by
  unfold handleBind
  split
  · apply Act.same
  split
  · apply Act.same
  rename_i k hk
  split
  · apply Act.same
  split
  · apply Act.same
  · exact .small (.setSocket _ .bound _ k.backlog k.buf k.shutRd hk id)

/-- The backlog is bounded by the initial number of pending connections. -/
theorem act_handleListen (fd backlog : ℕ) :
  s.Act b ext r (s.handleListen b fd backlog)
  := by
  unfold handleListen
  split
  · apply Act.same
  split
  · apply Act.same
  rename_i k hk
  split
  · apply Act.same
  · exact .small (.setSocket _ .listening k.boundIno _ k.buf k.shutRd hk fun _ => Nat.min_le_right _ _)

/-- A pending connection is taken, or the caller is saved as the one that accepts. -/
theorem act_handleAccept (fd : ℕ) :
  s.Act b ext (.accept fd) (s.handleAccept b fd ext.mem)
  := by
  unfold handleAccept
  split
  · apply Act.same
  rename_i hh
  split
  · apply Act.same
  rename_i hk
  split
  · apply Act.same
  split
  next htake => exact .small (.accept hk htake)
  next htake => exact .small (.wait (.accept hh hk htake))

/-- A client that accepts gets the connection, or the caller is queued at the listener. -/
theorem act_handleConnect (fd : ℕ) :
  s.Act b ext (.connect fd) (s.handleConnect b fd ext.path ext.pick ext.mem)
  := by
  unfold handleConnect
  split
  · apply Act.same
  split
  · apply Act.same
  rename_i hc
  split
  · apply Act.same
  rename_i hunbound
  split
  · apply Act.same
  rename_i hpath
  split
  · apply Act.same
  rename_i hk
  obtain ⟨hl, hne⟩ := listener_ne hc (not_not.mp hunbound) hk
  split
  next hw =>
    split
    · apply Act.same
    · exact .small (.connect hc hpath hk hne hw)
  · split
    · apply Act.same
    next hroom => exact .small (.wait (.connect hc hl hne hroom))

/-- A shutdown of the sending direction hangs the peer up. -/
theorem act_handleShutdown (fd how : ℕ) :
  s.Act b ext (.shutdown fd how) (s.handleShutdown b fd how)
  := by
  unfold handleShutdown
  split
  · apply Act.same
  split
  · apply Act.same
  rename_i k hk
  split
  · exact .small (.shutdown _ hk)
  · exact .small (.setSocket _ k.state k.boundIno k.backlog k.buf _ hk id)

/-- Two sockets that are connected from the start. -/
theorem act_handleSockpair :
  s.Act b ext .sockpair (s.handleSockpair b ext.mem ext.mem')
  := by
  unfold handleSockpair
  split
  · apply Act.same
  split
  · apply Act.same
  rename_i hfd
  split
  · exact .small (.fill _ hfd rfl rfl)
  next hfd' => exact .small (.sockpair hfd hfd')

/-- A read finds bytes or the end of the stream, or saves the caller. -/
theorem act_handleSocketRead {fd h : ℕ} (hh : s.unixSocketHandle b fd = some h) (n : ℕ) :
  s.Act b ext (.read fd n) (s.handleSocketRead h)
  := by
  unfold handleSocketRead
  split
  · apply Act.same
  rename_i k hk
  split
  · apply Act.same
  split
  · apply Act.same
  split
  · exact .small (.setSocket _ k.state k.boundIno k.backlog _ k.shutRd hk id)
  rename_i hempty
  split
  · apply Act.same
  · exact .small (.wait (.receive (.inl rfl) hh hk (Nat.eq_zero_of_not_pos hempty)))

/-- The bytes arrive at the peer. -/
theorem act_handleSocketWrite (h : ℕ) (data : List Byte) :
  s.Act b ext r (s.handleSocketWrite h data)
  := by
  unfold handleSocketWrite
  split
  · apply Act.same
  split
  · apply Act.same
  split
  · apply Act.same
  split
  · apply Act.same
  rename_i hq
  split
  · apply Act.same
  · exact .small (.arrive _ _ _ _ hq)

/-- The bytes arrive at the peer, and the descriptors wait there for a receive. -/
theorem act_handleSendmsg (fd : ℕ) (data : List Byte) (fds : List ℕ) :
  s.Act b ext (.sendmsg fd data fds) (s.handleSendmsg b fd data fds)
  := by
  unfold handleSendmsg
  split
  · apply Act.same
  split
  · apply Act.same
  split
  · apply Act.same
  split
  · apply Act.same
  split
  · apply Act.same
  next hq => exact .sendmsg hq

/-- Bytes and descriptors are taken, or the caller is saved. -/
theorem act_handleRecvmsg (fd maxData : ℕ) :
  s.Act b ext (.recvmsg fd maxData) (s.handleRecvmsg b fd maxData)
  := by
  unfold handleRecvmsg
  split
  · apply Act.same
  rename_i hh
  split
  · apply Act.same
  rename_i hk
  split
  · apply Act.same
  split
  next hempty =>
    split
    · apply Act.same
    · exact .small (.wait (.receive (.inr rfl) hh hk hempty.1))
  · exact .recvmsg hh hk

/-! ## Terminals, the network and polling -/

/-- The terminal server answers at once, or the caller is saved. -/
theorem act_handlePtyDevRead (o : ObjectSlot) (ptyId requested : ℕ) (answer : PtyAnswer) :
  s.Act b ext r (s.handlePtyDevRead o ptyId requested answer)
  := by
  unfold handlePtyDevRead
  cases answer with
  | error => apply Act.same
  | data bytes => apply Act.same
  | empty =>
    dsimp only
    split <;> apply Act.same
  | wait deadline =>
    dsimp only
    split
    · apply Act.same
    split
    · apply Act.same
    · exact .small (.wait (.terminal ..))

/-- The network server answers at once, or the caller is saved. -/
theorem act_handleInet (fd : ℕ) (opType : InetOpType) (answer wait : InetAnswer) :
  s.Act b ext r (s.handleInet b fd opType answer wait)
  := by
  unfold handleInet
  split
  · apply Act.same
  cases answer with
  | reply reply => apply Act.same
  | accepted connId =>
    dsimp only
    unfold allocInetFd
    split
    · exact act_install rfl rfl
    · apply Act.same
  | pending =>
    dsimp only
    split
    · apply Act.same
    split
    · apply Act.same
    · exact .small (.wait (.network ..))

/-- A new set of watched descriptors. -/
theorem act_handleEpollCreate :
  s.Act b ext .epollCreate (s.handleEpollCreate b ext.mem)
  := by
  unfold handleEpollCreate
  split
  · apply Act.same
  split
  · apply Act.same
  next hfd => exact .small (.epollCreate hfd)

/-- A descriptor is added to a set, removed from it, or watched for other events. -/
theorem act_handleEpollCtl (epfd op : ℕ) (o : Watch) :
  s.Act b ext r (s.handleEpollCtl b epfd op o)
  := by
  unfold handleEpollCtl
  split
  · apply Act.same
  split
  · apply Act.same
  split
  · split
    · apply Act.same
    split
    · apply Act.same
    · exact .small (.setEpoll _ _)
  · split
    · apply Act.same
    · exact .small (.setEpoll _ _)
  · split
    · exact .small (.setEpoll _ _)
    · apply Act.same
  · apply Act.same

/-! ## Requests -/

/-- A read goes to the handler for the kind of its descriptor. -/
theorem act_dispatchRead (fd requested : ℕ) :
  s.Act b ext (.read fd requested) (s.dispatchRead b fd requested ext)
  := by
  unfold dispatchRead
  split
  · apply Act.same
  rename_i o ho
  split
  next h hh =>
    apply act_handleSocketRead
    unfold Tables.unixSocketHandle
    rw [ho, Option.bind_some, ObjectSlot.unixSocketHandle, hh]
  next h hh => exact act_handlePipeRead ho hh requested
  · apply act_handlePtyDevRead
  · apply act_handleInet
  · apply Act.same

/-- A write goes to the handler for the kind of its descriptor. -/
theorem act_dispatchWrite (fd : ℕ) (data : List Byte) :
  s.Act b ext (.write fd data) (s.dispatchWrite b fd data ext)
  := by
  unfold dispatchWrite
  split
  · apply Act.same
  rename_i o ho
  split
  · apply act_handleSocketWrite
  next h hh => exact act_handlePipeWrite ho hh data
  · apply Act.same

/-- Every handler acts. -/
theorem act_handle (s : State) (b : ℕ) (ext : External) (r : Request) :
  s.Act b ext r (s.handle b ext r)
  := by
  cases r with
  | pipe nonblocking => apply act_handlePipe
  | mkfifo =>
    change Act _ _ _ _ (ite ..)
    split
    · apply Act.same
    · exact .small .mkfifo
  | openFifo h canRead canWrite nonblocking =>
    change Act _ _ _ _ (ite ..)
    split
    next hlt =>
      unfold install
      split
      · apply Act.same
      next hfd => exact .small (.openFifo hlt hfd)
    · apply Act.same
  | removeFifo h => exact .removeFifo
  | openVnode id o => exact act_install rfl rfl
  | openDevice devType id o => exact act_install rfl rfl
  | openInet id => exact act_install rfl rfl
  | dup old => exact act_handleDup (.inl rfl)
  | dupfd old low cloexec => exact act_handleDup (.inr rfl)
  | dup2 old new => apply act_handleDup2
  | dup3 old new cloexec => apply act_handleDup3
  | cloneFds parent child => apply act_handleCloneFds
  | setCloexec fd cloexec => apply act_handleSetFlags
  | setNonblocking fd nonblocking => apply act_handleSetFlags
  | socket => exact act_handleSocket
  | bind fd => apply act_handleBind
  | listen fd backlog => apply act_handleListen
  | accept fd => apply act_handleAccept
  | connect fd => apply act_handleConnect
  | shutdown fd how => apply act_handleShutdown
  | sockpair => exact act_handleSockpair
  | read fd requested => apply act_dispatchRead
  | write fd data => apply act_dispatchWrite
  | sendmsg fd data fds => apply act_handleSendmsg
  | recvmsg fd maxData => apply act_handleRecvmsg
  | inet fd opType => apply act_handleInet
  | close fd =>
    change Act _ _ _ _ (State.handleClose ..)
    unfold handleClose
    split
    · apply Act.same
    next ho => exact .close ho
  | poll fds timeout =>
    change Act _ _ _ _ (ite ..)
    split
    · apply Act.same
    next hwait => exact .poll hwait
  | epollCreate => exact act_handleEpollCreate
  | epollCtl epfd op entry => apply act_handleEpollCtl
  | epollWait epfd maxEvents timeout =>
    change Act _ _ _ _ (State.handleEpollWait ..)
    unfold handleEpollWait
    split
    · apply Act.same
    rename_i hx
    split
    · apply Act.same
    next hwait => exact .epollWait hx hwait
  | other => apply Act.same

end State

end SaltyOS.Vfs
