import SaltyOS.Vfs.Acts
import SaltyOS.Vfs.Refcount

/-!
# Reference counts over runs

In every run in which no slot of a pipe or a socket is copied or overwritten, and in which the
accepted socket of a waiting client finds a descriptor, the reference counts are exact, and nothing
is torn down that a slot refers to.
-/

namespace SaltyOS.Vfs

namespace Tables

variable {T : Tables} {b fd low : ℕ} {o : ObjectSlot}

/-! ## Descriptors -/

/-- A free slot counts for nothing. -/
theorem ref_of_isFree (ho : o.isFree = true) :
  o.ref = none
  := by
  have hnone : o.backing = .none := by simpa [ObjectSlot.isFree] using ho
  simp [ObjectSlot.ref, hnone]

theorem ref_of_handles (hpipe : o.pipeHandle = none) (hsocket : o.unixSocketHandle = none) :
  o.ref = none
  := by
  unfold ObjectSlot.pipeHandle at hpipe
  unfold ObjectSlot.unixSocketHandle at hsocket
  unfold ObjectSlot.ref
  cases hbacking : o.backing with
  | pipe h => simp [hbacking] at hpipe
  | unixSocket h => simp [hbacking] at hsocket
  | _ => rfl

/-- The first free descriptor is filled with a slot that is not counted. -/
theorem Owes.install {l : List Ref} (hT : T.Owes l) (hb : b ∈ T.clients)
    (hfd : T.freeFd b low = some fd) (ho : o.ref = none) :
  (T.setObject b fd o).Owes l
  := by
  obtain ⟨hlt, hfree⟩ := freeFd_spec hfd
  apply hT.setObject hb hlt
  rw [ho, ref_of_isFree hfree]

/-- The first free descriptor is filled with a slot that is counted. -/
theorem Owes.fillFree {l : List Ref} {r : Ref} (hT : T.Owes (r :: l)) (hb : b ∈ T.clients)
    (hfd : T.freeFd b low = some fd) (ho : o.ref = some r) :
  (T.setObject b fd o).Owes l
  := by
  obtain ⟨hlt, hfree⟩ := freeFd_spec hfd
  exact hT.fill hb hlt (ref_of_isFree hfree) ho

end Tables

namespace State

variable {s : State} {b : ℕ}
variable {h : ℕ} {c k : SocketState}

/-! ## Clients and pipes -/

/-- A client is registered. -/
theorem owes_resolveClient (hs : s.Owes []) {mem : Bool} {t : State}
    (ht : s.resolveClient b mem = some t) :
  t.Owes [] ∧ b ∈ t.clients
  := by
  unfold resolveClient at ht
  split_ifs at ht with hb hmem
  · cases ht
    exact ⟨hs, hb⟩
  · cases ht
    exact ⟨hs.addClient hb, List.mem_append_right _ (List.mem_singleton_self b)⟩

/-- A read opens and closes no end. -/
theorem read_counts (p : PipeState) (requested : ℕ) (nonblocking : Bool) (w : Waiter) :
  (p.read requested nonblocking w).pipe.readRefcount = p.readRefcount ∧
    (p.read requested nonblocking w).pipe.writeRefcount = p.writeRefcount
  := by
  unfold PipeState.read
  split_ifs
  · apply PipeState.refcounts_readNow
  · exact ⟨rfl, rfl⟩
  · exact ⟨rfl, rfl⟩
  · exact ⟨rfl, rfl⟩
  · exact ⟨rfl, rfl⟩

theorem write_counts (p : PipeState) (data : List Byte) (nonblocking : Bool) (w : Waiter) :
  (p.write data nonblocking w).pipe.readRefcount = p.readRefcount ∧
    (p.write data nonblocking w).pipe.writeRefcount = p.writeRefcount
  := by
  unfold PipeState.write
  split_ifs
  · exact ⟨rfl, rfl⟩
  · exact ⟨rfl, rfl⟩
  · exact ⟨rfl, rfl⟩
  · exact ⟨rfl, rfl⟩
  · exact ⟨rfl, rfl⟩
  · apply PipeState.refcounts_writeNow

/-- A caller that waits at a pipe holds no reference. -/
theorem owes_parkPipe (hs : s.Owes []) {p : PipeState} (hp : s.pipes h = some p)
    {effect : Waiter → PipeEffect} (hcounts : ∀ w, (effect w).pipe.readRefcount = p.readRefcount ∧
      (effect w).pipe.writeRefcount = p.writeRefcount) :
  (s.parkPipe h effect).state.Owes []
  := by
  apply toTables_park (P := fun T => T.Owes []) hs
  intro t w ht
  have hT : t.Owes [] := by
    rw [ht]
    exact hs
  refine hT.setPipe (p := p) ?_ (hcounts w).1 (hcounts w).2
  rw [ht]
  exact hp

/-! ## Sockets -/

section

variable (hs : s.Owes [])
include hs

/-- An accepted socket is created and another socket becomes its peer. -/
theorem owes_addAccepted (hc : s.sockets h = some c) (badge badge' : ℕ) :
  ((s.addSocket (accepted h badge)).setSocket h (c.connect s.nextSocket badge')).Owes
    [.socket s.nextSocket]
  := by
  have hadd := hs.addSocket (k := accepted h badge) rfl rfl
  refine hadd.setSocket (k := c) ?_ rfl rfl rfl id
  rw [Tables.sockets_addSocket, if_neg (Nat.ne_of_lt (hs.torn.lt_nextSocket hc))]
  exact hc

/-- A socket that was created and connected is released again. -/
theorem owes_releaseAccepted (hc : s.sockets h = some c) (badge badge' : ℕ) :
  (((s.addSocket (accepted h badge)).setSocket h (c.connect s.nextSocket badge')).releaseSocket
    s.nextSocket).Owes []
  := by
  have hT := owes_addAccepted hs hc badge badge'
  refine ⟨?_, hT.torn.releaseSocket s.nextSocket⟩
  intro r
  have hcounts := hT.counts r
  have hnone : s.recorded (.socket s.nextSocket) = 0 := by
    simp [Tables.recorded, hs.torn.sockets_lt s.nextSocket le_rfl]
  have hzero := hs.counts (.socket s.nextSocket)
  rw [hnone] at hzero
  by_cases hr : Ref.socket s.nextSocket = r
  · subst hr
    change Tables.recorded (Tables.releaseSocket _ _) _ = s.refs _ + _
    simp only [Tables.recorded, Tables.sockets_releaseSocket, if_true, Option.elim_none]
    exact hzero
  rw [List.count_cons_of_ne (by simpa using hr)] at hcounts
  refine Eq.trans ?_ hcounts
  cases r with
  | readEnd g => rfl
  | writeEnd g => rfl
  | socket g =>
    have hg : g ≠ s.nextSocket := fun hg => hr (hg ▸ rfl)
    change ((Tables.releaseSocket _ _).sockets g).elim _ _ = _
    rw [Tables.sockets_releaseSocket, if_neg hg]
    rfl

/-- The accepted socket is held by the descriptor that is made for it. -/
theorem owes_acceptPending (hb : b ∈ s.clients) (mem : Bool) (p : PendingConn) :
  (s.acceptPending b mem p).state.Owes []
  := by
  unfold acceptPending
  split
  · exact (s.toTables_send _ _).symm ▸ hs
  rcases hc : s.sockets p.socket with _ | c
  · exact (s.toTables_send _ _).symm ▸ hs
  cases hfd : s.freeFd b 0 with
  | none =>
    change (State.send ..).Owes []
    rw [toTables_send]
    exact owes_releaseAccepted hs hc _ _
  | some fd =>
    change (State.send ..).Owes []
    rw [toTables_send]
    exact (owes_addAccepted hs hc _ _).fillFree hb hfd rfl

/-- The socket is held by the descriptor that the waiting client gets. -/
theorem owes_connectNow {l : ℕ} (hc : s.sockets h = some c) (hl : s.sockets l = some k)
    (hne : l ≠ h) {w : Waiter} (hfd : (s.acceptFd w).isSome = true) :
  ((s.connectNow b h c l k w).giveAccepted w s.nextSocket).Owes []
  := by
  have hT : (s.connectNow b h c l k w).Owes [.socket s.nextSocket] := by
    refine (owes_addAccepted hs hc b w.badge).setSocket (k := k) ?_ rfl rfl rfl id
    change (Tables.setSocket ..).sockets l = some k
    rw [Tables.sockets_setSocket, if_neg hne]
    change (Tables.addSocket _ _).sockets l = some k
    rw [Tables.sockets_addSocket, if_neg (Nat.ne_of_lt (hs.torn.lt_nextSocket hl))]
    exact hl
  obtain ⟨fd, hfd⟩ := Option.isSome_iff_exists.mp hfd
  have hsame : (s.connectNow b h c l k w).acceptFd w = some fd := hfd
  unfold giveAccepted
  rw [hsame]
  rw [toTables_send]
  unfold acceptFd at hfd
  split_ifs at hfd with hmem
  exact hT.fillFree hmem hfd rfl

end

/-- A connection that waits is held by nobody yet. -/
theorem owes_queueConn (hs : s.Owes []) {l : ℕ} (hc : s.sockets h = some c)
    (hl : s.sockets l = some k) (hne : l ≠ h) (w : Waiter) :
  (s.queueConn h c l k w).Owes []
  := by
  have hset : (s.setSocket h { c with state := .connecting }).Owes [] := hs.setSocket hc rfl rfl rfl id
  unfold queueConn
  split
  · exact hset
  refine hset.setSocket (k := k) ?_ rfl rfl rfl id
  change (Tables.setSocket ..).sockets l = some k
  rw [Tables.sockets_setSocket, if_neg hne]
  exact hl

/-! ## Messages on sockets -/

/-- Passed descriptors are not counted until they are installed. -/
theorem owes_arriveAt (hs : s.Owes []) {q : ℕ} {peer : SocketState} (hq : s.sockets q = some peer)
    (caps : List ℕ) (data : List Byte) (limit : ℕ) (reply : List Byte → Reply) :
  (s.arriveAt q { peer with pendingCaps := caps } data limit reply).Owes []
  := by
  obtain ⟨buf, recvWaiter, harrive⟩ := arrive_eq { peer with pendingCaps := caps } data limit reply
  unfold arriveAt
  rw [toTables_sendAll, harrive]
  exact hs.setSocket hq rfl rfl rfl id

/-- Descriptors that are not counted are installed. -/
theorem owes_installCaps (hs : s.Owes []) (hb : b ∈ s.clients) {caps : List ℕ}
    (hcaps : ∀ packed ∈ caps, ∀ o, s.capSlot packed = some o → o.ref = none) :
  (s.installCaps b caps).1.Owes []
  := by
  induction caps generalizing s with
  | nil => exact hs
  | cons packed caps ih =>
    have hrest : ∀ packed' ∈ caps, ∀ o, s.capSlot packed' = some o → o.ref = none :=
      fun packed' hmem => hcaps packed' (List.mem_cons_of_mem _ hmem)
    unfold installCaps
    rcases ho : s.capSlot packed with _ | o
    · exact ih hs hb hrest
    have href := hcaps packed List.mem_cons_self o ho
    rcases hfd : s.freeFd b 0 with _ | fd
    · exact ih hs hb hrest
    apply ih (s := s.setObject b fd o) (hs.install hb hfd href) hb
    intro packed' hmem o' ho'
    obtain hold | rfl := capSlot_setObject ho'
    · exact hrest packed' hmem o' hold
    · exact href

/-! ## Closing -/

/-- All references of a client are dropped with it. -/
theorem owes_clientExit (hs : s.Owes []) :
  (s.clientExit b).Owes []
  := by
  unfold clientExit
  split_ifs with hb
  · change ((State.cleanupClientObjects _ b).toTables.removeClient b).Owes []
    rw [toTables_cleanupClientObjects, toTables_clearPtyPending]
    exact hs.exit hb
  · exact hs

/-! ## The network and event queues -/

section

variable (hs : s.Owes [])
include hs

theorem owes_answerInet (w : Waiter) (answer : InetAnswer) :
  (s.answerInet w answer).Owes []
  := by
  unfold answerInet
  cases answer with
  | reply reply =>
    rw [toTables_send]
    exact hs
  | accepted connId =>
    rw [toTables_send]
    unfold allocInetFd install
    split
    next hb =>
      split
      · exact hs
      next hfd => exact hs.install hb hfd rfl
    · exact hs
  | pending => exact hs

/-- An accepted connection of the network is no pipe and no socket. -/
theorem owes_netsrvCallback (connId : ℕ) (opType : InetOpType) (answer : InetAnswer) :
  (s.netsrvCallback connId opType answer).state.Owes []
  := by
  unfold netsrvCallback
  split
  · exact hs
  next r _ => exact owes_answerInet (s := { s with inetPending := r.2 }) hs _ _

theorem owes_setEpolls (epolls : ℕ → Option (List (Option Watch))) (nextEpoll : ℕ) :
  ({ s.toTables with epolls, nextEpoll } : Tables).Owes []
  := ⟨hs.counts, ⟨hs.torn.pipes_lt, hs.torn.sockets_lt, hs.torn.torn, hs.torn.closed⟩⟩

end

/-! ## Acts -/

/-- The requests after which the counts stay exact: no slot of a pipe or a socket is copied or
overwritten, and if a connection finds a client that waits to accept, then that client is registered
and has a free descriptor. Pipes with a name are left out. -/
def RefCareful (s : State) (b : ℕ) (ext : External) : Request → Prop
  | .dup old => (s.objects b old).ref = none
  | .dupfd old _ _ => (s.objects b old).ref = none
  | .dup2 old new => (s.objects b old).ref = none ∧ (s.objects b new).ref = none
  | .dup3 old new _ => (s.objects b old).ref = none ∧ (s.objects b new).ref = none
  | .cloneFds parent child =>
    (∀ fd < maxClientObjects, (s.objects parent fd).ref = none) ∧
      ∀ fd < maxClientObjects, (s.objects child fd).ref = none
  | .recvmsg fd _ =>
    ∀ h k, s.unixSocketHandle b fd = some h → s.sockets h = some k →
      ∀ packed ∈ k.pendingCaps, ∀ o, s.capSlot packed = some o → o.ref = none
  | .connect _ =>
    ∀ ino k w, ext.path = .ok ino → s.listener ino ext.pick = some k → k.acceptWaiter = some w →
      (s.acceptFd w).isSome = true
  | .mkfifo => False
  | .openFifo _ _ _ _ => False
  | .removeFifo _ => False
  | _ => True

theorem owes_wait (hs : s.Owes []) {r : Request} {next : State → Waiter → Outcome}
    (h : s.Wait b r next) :
  (s.park next).state.Owes []
  := by
  apply toTables_park (P := fun T => T.Owes []) hs
  intro t w ht
  have hT : t.Owes [] := ht.symm ▸ hs
  cases h with
  | @accept fd h k hh hk htake =>
    exact hT.setSocket (k := k) (ht.symm ▸ hk) rfl rfl rfl id
  | connect hc hk hne hroom => exact owes_queueConn hT (ht.symm ▸ hc) (ht.symm ▸ hk) hne w
  | @receive r fd n h k hr hh hk hempty =>
    exact hT.setSocket (k := k) (ht.symm ▸ hk) rfl rfl rfl id
  | terminal ptyId maxCount deadline => exact hT
  | network connId opType wait =>
    split
    · exact (t.toTables_allocPending _).symm ▸ hT
    · exact owes_answerInet hT w wait

theorem owes_sleep (hs : s.Owes []) (ready : Readiness) (mem : Bool) (waiter : Waiter → PollWaiter) :
  (s.park fun t w => t.sleep ready mem (waiter w)).state.Owes []
  := by
  apply toTables_park (P := fun T => T.Owes []) hs
  intro t w ht
  rw [toTables_sleep, ht]
  exact hs

section

variable (hs : s.Owes []) (hb : b ∈ s.clients) {ext : External} {r : Request} {o : Outcome}
  (hr : s.RefCareful b ext r)
include hs hb hr

/-- One case for each small act. -/
theorem owes_smallAct (h : s.SmallAct b ext r o) :
  o.state.Owes []
  := by
  cases h with
  | answer reply => exact hs
  | wait h => exact owes_wait hs h
  | fill reply hfd hpipe hsocket =>
    exact hs.install hb hfd (Tables.ref_of_handles hpipe hsocket)
  | @pipe nonblocking fd fd' hfd hfd' =>
    obtain ⟨hlt, hfree⟩ := Tables.freeFd_spec hfd
    obtain ⟨hlt', hne, hfree'⟩ := Tables.freeFd_reserved hfd'
    have hread := hs.addPipe.fill hb hlt (Tables.ref_of_isFree hfree)
      (o := .pipeEnd s.nextPipe true nonblocking) rfl
    apply hread.fill hb hlt' _ rfl
    rw [Tables.objects_setObject_of_ne _ hne]
    exact Tables.ref_of_isFree hfree'
  | mkfifo => exact hr.elim
  | openFifo hlt hfd => exact hr.elim
  | copy hcopy ho hfd =>
    obtain ⟨-, rfl⟩ := Tables.resolveFd_spec ho
    obtain rfl | rfl := hcopy
    · exact hs.install hb hfd hr
    · exact hs.install hb hfd hr
  | flags cloexec nonblocking ho =>
    obtain ⟨hlt, rfl⟩ := Tables.resolveFd_spec ho
    exact hs.setObject hb hlt rfl
  | socket hfd => exact (hs.addSocket rfl rfl).fillFree hb hfd rfl
  | setSocket reply state boundIno backlog buf shutRd hk hbacklog =>
    exact hs.setSocket hk rfl rfl rfl id
  | @accept fd h k p hk htake =>
    have hset : (s.setSocket h
        { k with pending := p.2, pendingCount := k.pendingCount - 1 }).Owes [] :=
      hs.setSocket hk rfl rfl rfl id
    exact owes_acceptPending hset hb ext.mem p.1
  | connect hc hpath hk hne hw =>
    apply owes_connectNow hs hc (Option.filter_eq_some_iff.mp hk).1 hne
    exact hr _ _ _ hpath hk hw
  | @shutdown fd how h k shutRd hk =>
    change (State.hangUpPeer ..).Owes []
    rw [toTables_hangUpPeer]
    have hset : (s.setSocket h { k with shutRd, shutWr := true }).Owes [] :=
      hs.setSocket hk rfl rfl rfl (fun _ => rfl)
    refine hset.hangUpPeer (hs.torn.lt_nextSocket hk) ?_ k.peerSocket
    intro c hc
    change (Tables.setSocket ..).sockets h = some c at hc
    rw [Tables.sockets_setSocket, if_pos rfl] at hc
    cases hc
    rfl
  | sockpair hfd hfd' =>
    obtain ⟨hlt, hfree⟩ := Tables.freeFd_spec hfd
    obtain ⟨hlt', hne, hfree'⟩ := Tables.freeFd_reserved hfd'
    have hone := hs.addSocket (k := accepted (s.nextSocket + 1) b) rfl rfl
    have htwo := hone.addSocket (k := accepted s.nextSocket b) rfl rfl
    have hswap : (Tables.addSocket (s.toTables.addSocket (accepted (s.nextSocket + 1) b))
        (accepted s.nextSocket b)).Owes [.socket s.nextSocket, .socket (s.nextSocket + 1)] := by
      refine ⟨?_, htwo.torn⟩
      intro r
      rw [htwo.counts r]
      exact congrArg (_ + ·) ((List.Perm.swap _ _ []).count_eq r)
    have hfill := hswap.fill hb hlt (Tables.ref_of_isFree hfree)
      (o := .of (.unixSocket s.nextSocket)) rfl
    refine hfill.fill hb hlt' ?_ rfl
    rw [Tables.objects_setObject_of_ne _ hne]
    exact Tables.ref_of_isFree hfree'
  | @arrive r q peer data limit reply values hq =>
    exact owes_arriveAt hs hq peer.pendingCaps data limit reply
  | epollCreate hfd =>
    have hT : s.addEpoll.Owes [] := owes_setEpolls hs _ _
    exact hT.install hb hfd rfl
  | setEpoll h entries => exact owes_setEpolls hs _ _

/-- One case for each act. -/
theorem owes_act (h : s.Act b ext r o) :
  o.state.Owes []
  := by
  cases h with
  | small h => exact owes_smallAct hs hb hr h
  | removeFifo => exact hr.elim
  | replace hcopy ho hnew hne =>
    obtain ⟨-, rfl⟩ := Tables.resolveFd_spec ho
    obtain rfl | rfl := hcopy
    · exact hs.setObject hb hnew (hr.1.trans hr.2.symm)
    · exact hs.setObject hb hnew (hr.1.trans hr.2.symm)
  | @cloneFds parent child t ht =>
    obtain ⟨hT, -⟩ := owes_resolveClient hs ht
    have hrow : ∀ c, (∀ fd < maxClientObjects, (s.objects c fd).ref = none) →
        ∀ fd < maxClientObjects, (t.objects c fd).ref = none := by
      intro c hc fd hfd
      unfold resolveClient at ht
      split_ifs at ht with hmem
      · cases ht
        exact hc fd hfd
      cases ht
      by_cases hcc : c = child
      · simp [Tables.addClient, hcc, ObjectSlot.zeroed, ObjectSlot.ref]
      · simpa [Tables.addClient, hcc] using hc fd hfd
    exact hT.cloneObjects (hrow parent hr.1) (hrow child hr.2)
  | @read fd requested h o p ho hh hp hlen =>
    obtain ⟨hread, hwrite⟩ := p.refcounts_readNow (PipeState.readCount p.buf.len requested)
    rw [toTables_wakePollWaitersPipe, toTables_sendAll]
    exact hs.setPipe hp hread hwrite
  | readWait ho hh hp hempty hopen hblock => exact owes_parkPipe hs hp (read_counts _ _ false)
  | @write fd h data o p ho hh hp hlen =>
    obtain ⟨hread, hwrite⟩ := p.refcounts_writeNow (data.take 144)
    rw [toTables_wakePollWaitersPipe, toTables_sendAll]
    exact hs.setPipe hp hread hwrite
  | writeWait ho hh hp hopen hfull hblock => exact owes_parkPipe hs hp (write_counts _ _ false)
  | sendmsg hq => exact owes_arriveAt hs hq ..
  | @recvmsg fd maxData h k hh hk =>
    refine owes_installCaps (s := s.setSocket h (k.takeMessage maxData)) ?_ hb ?_
    · exact hs.setSocket hk rfl rfl rfl id
    · exact hr h k hh hk
  | @close fd o ho =>
    obtain ⟨hlt, -⟩ := Tables.resolveFd_spec ho
    change ((s.preClose b fd).toTables.setObject b fd .zeroed).Owes []
    rw [s.toTables_preClose hlt]
    exact hs.close hb hlt
  | poll hwait => exact owes_sleep hs ..
  | epollWait hx hwait => exact owes_sleep hs ..

end

/-! ## Runs -/

/-- An event that is not a request, or a careful request of a client that is registered by then. -/
def RefCarefulEvent (s : State) : Event → Prop
  | .request b mem ext r =>
    ∀ t, (s.receive b).resolveClient b mem = some t → t.RefCareful b ext r
  | _ => True

/-- One event pays all it owes. -/
theorem owes_exec (hs : s.Owes []) {e : Event} (he : s.RefCarefulEvent e) :
  (s.exec e).Owes []
  := by
  cases e with
  | request b mem ext r =>
    unfold State.exec
    dsimp only
    rcases ht : (s.receive b).resolveClient b mem with _ | t
    · exact (toTables_finish _).symm ▸ hs
    obtain ⟨hT, hb⟩ := owes_resolveClient (s := s.receive b) hs ht
    rw [toTables_finish]
    exact owes_act hT hb (he t ht) (t.act_handle b ext r)
  | register b target mem =>
    unfold State.exec
    dsimp only
    cases ht : (s.receive b).resolveClient target mem with
    | none => exact (toTables_finish _).symm ▸ hs
    | some t =>
      obtain ⟨hT, -⟩ := owes_resolveClient (s := s.receive b) hs ht
      exact (toTables_finish _).symm ▸ hT
  | exit b => exact owes_clientExit hs
  | exec b => exact (s.toTables_clearPtyPending b).symm ▸ hs
  | pollTimer now => exact (s.toTables_expirePollTimeouts now).symm ▸ hs
  | ptyTimer now => exact (s.toTables_expirePtyTimeouts now).symm ▸ hs
  | ptyNotification ready ptyId collected =>
    change (State.wakePtyPollWaiters ..).Owes []
    rw [toTables_wakePtyPollWaiters, toTables_collect]
    exact hs
  | netsrvCallback b connId opType answer =>
    change (Outcome.finish _).Owes []
    rw [toTables_finish]
    exact owes_netsrvCallback (s := s.receive b) hs ..

theorem owes_initial :
  initial.Owes []
  := by
  refine ⟨?_, ⟨fun _ _ => rfl, fun _ _ => rfl, ?_, ?_⟩⟩
  · intro r
    cases r with
    | readEnd h => rfl
    | writeEnd h => rfl
    | socket h => rfl
  · intro x hx
    cases hx
  · intro q k hq
    cases hq

/-- In every run in which no slot of a pipe or a socket is copied or overwritten and every accepted
socket finds a descriptor, the counts are exact in every state, and nothing is torn down that a slot
refers to. -/
theorem refcounts_exact_of_careful_run {t : State}
    (h : Relation.ReflTransGen (StepOf RefCarefulEvent) initial t) :
  t.Exact
  := by
  apply Tables.Owes.exact
  refine invariant_of_run (I := fun s : State => s.Owes []) ?_ owes_initial h
  rintro s u hs ⟨e, he, rfl⟩
  exact owes_exec hs he

/-- A client opens a pipe and a pair of sockets, closes the write end and one of the sockets, and
exits. -/
theorem refcounts_exact_of_exit :
  (initial.execAll [.request 7 true .quiet (.pipe false), .request 7 true .quiet .sockpair,
    .request 7 true .quiet (.close 1), .request 7 true .quiet (.close 2), .exit 7]).Exact
  := by
  apply refcounts_exact_of_careful_run
  apply run_execAll
  exact ⟨fun _ _ => trivial, fun _ _ => trivial, fun _ _ => trivial, fun _ _ => trivial, trivial,
    trivial⟩

/-- A client opens a pipe, duplicates the descriptor of the read end and closes one of the two. The
pipe has no reader any more, although a descriptor refers to its read end. -/
theorem refcounts_not_exact :
  ¬ (initial.execAll [.request 7 true .quiet (.pipe false), .request 7 true .quiet (.dup 0),
    .request 7 true .quiet (.close 0)]).Exact
  := by
  intro h
  have hcount := h.counts (.readEnd 0)
  have hmem : ((7, 2) : ℕ × ℕ) ∈ ((initial.execAll
      [.request 7 true .quiet (.pipe false), .request 7 true .quiet (.dup 0),
        .request 7 true .quiet (.close 0)]).clients.toFinset ×ˢ
          Finset.range maxClientObjects).filter fun x => ((initial.execAll
      [.request 7 true .quiet (.pipe false), .request 7 true .quiet (.dup 0),
        .request 7 true .quiet (.close 0)]).objects x.1 x.2).ref = some (.readEnd 0) := by
    rw [Finset.mem_filter, Finset.mem_product]
    exact ⟨⟨by decide, by decide⟩, by decide⟩
  have hpos := Finset.card_pos.mpr ⟨_, hmem⟩
  have hzero : (initial.execAll [.request 7 true .quiet (.pipe false),
      .request 7 true .quiet (.dup 0), .request 7 true .quiet (.close 0)]).recorded
        (.readEnd 0) = 0 := by decide
  unfold Tables.refs at hcount
  omega

end State

end SaltyOS.Vfs
