import SaltyOS.Vfs.Edits

/-!
# Passing descriptors

A message on a socket can carry descriptors. The server keeps the numbers of the descriptors and the
badge of the sender, and looks up what they refer to when the message is received. A world is the
server with what the messages were meant to carry: for every socket the objects that were passed to
it and not received yet, and a receipt for every message that was received.
-/

open Function

namespace SaltyOS.Vfs

/-! ## Worlds -/

/-- What a receiver got: the new descriptors, its table before and after, and the objects that were
passed to the socket. -/
structure Receipt where
  fds : List ℕ
  before : ℕ → ObjectSlot
  after : ℕ → ObjectSlot
  passed : List (Backing × Bool × Bool)

/-- The descriptors of a table that are free. -/
def freeFds (row : ℕ → ObjectSlot) : Finset ℕ :=
  {fd ∈ Finset.range maxClientObjects | (row fd).isFree = true}

/-- The new descriptors refer to the objects that were passed, in their order, as far as there were
free descriptors, and the other descriptors are what they were. -/
def Receipt.Right (r : Receipt) : Prop :=
  r.fds.map (fun fd => (r.after fd).object) = r.passed.take (freeFds r.before).card ∧
    ∀ fd ∉ r.fds, r.after fd = r.before fd

/-- The requests that send or receive messages. -/
def Request.isMessage : Request → Bool
  | .sendmsg _ _ _ => true
  | .recvmsg _ _ => true
  | _ => false

/-- The server, the objects that were passed to each socket and not received yet, and the receipts
of the messages that were received. -/
structure World where
  state : State
  transit : ℕ → List (Backing × Bool × Bool)
  receipts : List Receipt

namespace State

/-- The socket at which a message of a client arrives, if it is accepted. -/
def sendTarget (s : State) (b fd : ℕ) : Option ℕ :=
  ((s.unixSocketHandle b fd).bind s.sockets).bind fun k =>
    if k.state = .connected ∧ k.shutWr = false then
      k.peerSocket.filter fun q => (s.sockets q).isSome
    else none

/-- The socket from which a client receives a message. -/
def recvSource (s : State) (b fd : ℕ) : Option ℕ :=
  (s.unixSocketHandle b fd).filter fun h => (s.sockets h).any fun k => decide (k.state = .connected)

/-- The objects that descriptors of a client denote. -/
def denoted (s : State) (b : ℕ) (fds : List ℕ) : List (Backing × Bool × Bool) :=
  fds.filterMap fun fd => (s.resolveFd b fd).map ObjectSlot.object

/-- The new descriptors in a reply. -/
def newFds (reply : Option Reply) : List ℕ :=
  match reply with
  | some (.message _ fds) => fds
  | _ => []

end State

namespace World

/-- Nothing was passed yet. -/
def initial : World where
  state := .initial
  transit := fun _ => []
  receipts := []

variable (w : World)

/-- A message with descriptors was sent to a socket. -/
def pass (q : ℕ) (objects : List (Backing × Bool × Bool)) : World :=
  { w with transit := update w.transit q (w.transit q ++ objects) }

/-- A message was received from a socket. -/
def take (h : ℕ) (fds : List ℕ) (before after : ℕ → ObjectSlot) : World :=
  { w with
    transit := update w.transit h []
    receipts := w.receipts ++ [{ fds, before, after, passed := w.transit h }] }

/-- What a request to send means for the passing of descriptors. -/
def accountSend (b fd : ℕ) (fds : List ℕ) : World :=
  (w.state.sendTarget b fd).elim w fun q => w.pass q (w.state.denoted b fds)

/-- What a request to receive means for the passing of descriptors, if it leads to the state `t`. -/
def accountRecv (b fd maxData : ℕ) (t : State) : World :=
  (w.state.recvSource b fd).elim w fun h =>
    w.take h (State.newFds ((w.state.receive b).handleRecvmsg b fd maxData).reply)
      (w.state.objects b) (t.objects b)

/-- What a request of a registered client means for the passing of descriptors. -/
def account (b : ℕ) (t : State) : Request → World
  | .sendmsg fd _ fds => w.accountSend b fd fds
  | .recvmsg fd maxData => w.accountRecv b fd maxData t
  | _ => w

/-- The world with another state of the server. -/
def withState (t : State) : World := { w with state := t }

/-- What an event does. -/
def exec (w : World) (e : Event) : World :=
  match e with
  | .request b _ _ r =>
    if b ∈ w.state.clients then (w.account b (w.state.exec e) r).withState (w.state.exec e)
    else w.withState (w.state.exec e)
  | _ => w.withState (w.state.exec e)

/-- What several events do. -/
def execAll (events : List Event) : World := events.foldl exec w

/-- A step that meets a condition on the state and the event. -/
def StepOf (C : State → Event → Prop) (w v : World) : Prop :=
  ∃ e, C w.state e ∧ v = w.exec e

theorem state_exec (e : Event) :
  (w.exec e).state = w.state.exec e
  := by
  cases e with
  | request b mem ext r =>
    unfold exec
    dsimp only
    split_ifs <;> rfl
  | _ => rfl

/-- A list of events is a run. -/
theorem run_execAll {C : State → Event → Prop} {w : World} {events : List Event}
    (h : w.state.Follows C events) :
  Relation.ReflTransGen (StepOf C) w (w.execAll events)
  := by
  induction events generalizing w with
  | nil => rfl
  | cons e events ih =>
    apply Relation.ReflTransGen.head ⟨e, h.1, rfl⟩
    apply ih
    rw [state_exec]
    exact h.2

end World

/-! ## Descriptors on the way -/

namespace Tables

variable {T U : Tables} {b fd packed : ℕ} {x : Backing × Bool × Bool}
variable {o : ObjectSlot}

/-- A packed descriptor refers to an object. -/
def Holds (T : Tables) (packed : ℕ) (x : Backing × Bool × Bool) : Prop :=
  capBadge packed ∈ T.clients ∧
    ∃ o, T.resolveFd (capBadge packed) (capFd packed) = some o ∧ o.object = x

/-- A descriptor of a client is on the way. -/
def Pinned (T : Tables) (b fd : ℕ) : Prop :=
  ∃ h k, T.sockets h = some k ∧ ∃ packed ∈ k.pendingCaps, capBadge packed = b ∧ capFd packed = fd

/-- The descriptors on the way refer to the objects that were passed. -/
structure Aligned (T : Tables) (transit : ℕ → List (Backing × Bool × Bool)) : Prop where
  fresh : T.Fresh
  empty : ∀ h, T.nextSocket ≤ h → transit h = []
  holds : ∀ h k, T.sockets h = some k → List.Forall₂ T.Holds k.pendingCaps (transit h)

variable {transit : ℕ → List (Backing × Bool × Bool)}

theorem holds_iff :
  T.Holds packed x ↔ capBadge packed ∈ T.clients ∧ capFd packed < maxClientObjects ∧
    (T.objects (capBadge packed) (capFd packed)).isLive = true ∧
    (T.objects (capBadge packed) (capFd packed)).object = x
  := by
  unfold Holds
  simp only [resolveFd_eq_some_iff]
  constructor
  · rintro ⟨hmem, o, ⟨hlt, hlive, rfl⟩, hx⟩
    exact ⟨hmem, hlt, hlive, hx⟩
  · rintro ⟨hmem, hlt, hlive, hx⟩
    exact ⟨hmem, _, ⟨hlt, hlive, rfl⟩, hx⟩

/-- The tables of descriptors change, but the sockets do not, and what is on the way stays. -/
theorem Aligned.of_objects (hT : T.Aligned transit) (hsockets : U.sockets = T.sockets)
    (hnext : U.nextSocket = T.nextSocket)
    (hholds : ∀ packed x, T.Pinned (capBadge packed) (capFd packed) → T.Holds packed x →
      U.Holds packed x) :
  U.Aligned transit
  := by
  refine ⟨?_, ?_, ?_⟩
  · intro h hh
    rw [hsockets]
    exact hT.fresh h (hnext ▸ hh)
  · intro h hh
    exact hT.empty h (hnext ▸ hh)
  · intro h k hk
    rw [hsockets] at hk
    have hpinned : ∀ packed ∈ k.pendingCaps, T.Pinned (capBadge packed) (capFd packed) :=
      fun packed hmem => ⟨h, k, hk, packed, hmem, rfl, rfl⟩
    apply ((List.forall₂_and_left _ _).mpr ⟨hpinned, hT.holds h k hk⟩).imp
    rintro packed x ⟨hp, hx⟩
    exact hholds packed x hp hx

/-! ## Small changes -/

theorem isLive_of_object {o' : ObjectSlot} (h : o.object = o'.object) :
  o.isLive = o'.isLive
  := by
  have hbacking : o.backing = o'.backing := congrArg Prod.fst h
  unfold ObjectSlot.isLive
  rw [hbacking]

theorem not_isLive_of_isFree (h : o.isFree = true) :
  ¬o.isLive = true
  := by
  have hnone : o.backing = .none := by simpa [ObjectSlot.isFree] using h
  simp [ObjectSlot.isLive, hnone]

/-- A slot is replaced: a descriptor refers to what it referred to, unless it is that slot. -/
theorem Holds.setObject (hx : T.Holds packed x)
    (h : capBadge packed = b → capFd packed = fd → (T.objects b fd).isLive = true →
      o.object = (T.objects b fd).object) :
  (T.setObject b fd o).Holds packed x
  := by
  obtain ⟨hmem, hlt, hlive, hobject⟩ := holds_iff.mp hx
  apply holds_iff.mpr
  have hset := T.objects_setObject b fd o (capBadge packed, capFd packed)
  rw [hset]
  use hmem, hlt
  split_ifs with heq
  · obtain ⟨rfl, rfl⟩ := Prod.mk.inj heq
    have hsame := h rfl rfl hlive
    exact ⟨(isLive_of_object hsame).trans hlive, hsame.trans hobject⟩
  · exact ⟨hlive, hobject⟩

section

variable (hT : T.Aligned transit)
include hT

/-- A slot is replaced, and the slot was not live, or not on the way, or refers to the same as
before. -/
theorem Aligned.setObject (o : ObjectSlot) (h : ¬(T.objects b fd).isLive = true ∨ ¬T.Pinned b fd ∨
      o.object = (T.objects b fd).object) :
  (T.setObject b fd o).Aligned transit
  := by
  apply hT.of_objects (U := T.setObject b fd o) rfl rfl
  intro packed x hpinned hx
  apply hx.setObject
  rintro rfl rfl hlive
  obtain hdead | hfree | hsame := h
  · exact absurd hlive hdead
  · exact absurd hpinned hfree
  · exact hsame

/-- Other descriptors are on the way to a socket. -/
theorem Aligned.putSocket {h : ℕ} {k k' : SocketState} (hk : T.sockets h = some k)
    {xs : List (Backing × Bool × Bool)} (hxs : List.Forall₂ T.Holds k'.pendingCaps xs) :
  (T.setSocket h k').Aligned (update transit h xs)
  := by
  refine ⟨hT.fresh.setSocket hk k', ?_, ?_⟩
  · intro g hg
    have hne : g ≠ h := by
      rintro rfl
      rw [hT.fresh g hg] at hk
      cases hk
    rw [update_of_ne hne]
    exact hT.empty g hg
  · intro g c hc
    rw [sockets_setSocket] at hc
    split_ifs at hc with hg
    · subst hg
      cases hc
      rw [update_self]
      exact hxs
    · rw [update_of_ne hg]
      exact hT.holds g c hc

theorem Aligned.setSocket {h : ℕ} {k k' : SocketState} (hk : T.sockets h = some k)
    (hcaps : k'.pendingCaps = k.pendingCaps) :
  (T.setSocket h k').Aligned transit
  := by
  have hput := hT.putSocket hk (hcaps ▸ hT.holds h k hk)
  rwa [update_eq_self] at hput

theorem Aligned.edit (h : T.Edit U) :
  U.Aligned transit
  := by
  have hfresh := hT.fresh.edit h
  cases h with
  | fill b fd o hfree ho => exact hT.setObject o (.inl (not_isLive_of_isFree hfree))
  | flags b fd o hsame => exact hT.setObject o (.inr (.inr hsame))
  | addPipe => exact ⟨hfresh, hT.empty, hT.holds⟩
  | addSocket k hk =>
    use hfresh, fun h hh => hT.empty h (Nat.le_of_succ_le hh)
    intro g c hc
    rw [sockets_addSocket] at hc
    split_ifs at hc with hg
    · cases hc
      rw [hk, hT.empty g (Nat.le_of_eq hg.symm)]
      exact List.Forall₂.nil
    · exact hT.holds g c hc
  | setSocket h k k' hk hcaps => exact hT.setSocket hk hcaps
  | releaseSocket h =>
    use hfresh, hT.empty
    intro g c hc
    rw [sockets_releaseSocket] at hc
    split_ifs at hc
    exact hT.holds g c hc
  | setEpolls epolls nextEpoll => exact ⟨hfresh, hT.empty, hT.holds⟩

/-- A client is added. -/
theorem Aligned.addClient (hb : b ∉ T.clients) :
  (T.addClient b).Aligned transit
  := by
  apply hT.of_objects (U := T.addClient b) rfl rfl
  intro packed x _ hx
  obtain ⟨hmem, hrest⟩ := holds_iff.mp hx
  have hne : capBadge packed ≠ b := fun heq => hb (heq ▸ hmem)
  apply holds_iff.mpr
  use List.mem_append_left _ hmem
  simpa [Tables.addClient, hne] using hrest

theorem Aligned.edits (h : T.Edits U) :
  U.Aligned transit
  := by
  refine invariant_of_run (I := fun V : Tables => V.Aligned transit) ?_ hT h
  intro V W hV hstep
  exact hV.edit hstep

/-- The pipes change. -/
theorem Aligned.setPipes (pipes : ℕ → Option PipeState) (tornEnds : List (ℕ × Bool)) :
  Aligned { T with pipes, tornEnds } transit
  := ⟨hT.fresh, hT.empty, hT.holds⟩

end

theorem pinned_of_edit (h : T.Edit U) (hU : U.Pinned b fd) :
  T.Pinned b fd
  := by
  obtain ⟨g, c, hc, packed, hmem, hpacked⟩ := hU
  cases h with
  | addSocket k hk =>
    rw [sockets_addSocket] at hc
    split_ifs at hc with hg
    · cases hc
      rw [hk] at hmem
      cases hmem
    · exact ⟨g, c, hc, packed, hmem, hpacked⟩
  | setSocket h k k' hk hcaps =>
    rw [sockets_setSocket] at hc
    split_ifs at hc with hg
    · subst hg
      cases hc
      exact ⟨g, k, hk, packed, hcaps ▸ hmem, hpacked⟩
    · exact ⟨g, c, hc, packed, hmem, hpacked⟩
  | releaseSocket h =>
    rw [sockets_releaseSocket] at hc
    split_ifs at hc
    exact ⟨g, c, hc, packed, hmem, hpacked⟩
  | _ => exact ⟨g, c, hc, packed, hmem, hpacked⟩

theorem pinned_of_edits (h : T.Edits U) (hU : U.Pinned b fd) :
  T.Pinned b fd
  := by
  induction h with
  | refl => exact hU
  | tail _ hstep ih => exact ih (pinned_of_edit hstep hU)

/-! ## Closing -/

section

variable (hT : T.Aligned transit)
include hT

/-- What a slot refers to is closed: nothing more is on the way than before. -/
theorem Aligned.closeObject (o : ObjectSlot) :
  (T.closeObject o).Aligned transit ∧ ∀ b fd, (T.closeObject o).Pinned b fd → T.Pinned b fd
  := by
  obtain hedits | ⟨pipes, tornEnds, heq⟩ := T.closeObject_cases o
  · exact ⟨hT.edits hedits, fun b fd => pinned_of_edits hedits⟩
  · rw [heq]
    exact ⟨hT.setPipes pipes tornEnds, fun b fd hU => hU⟩

theorem Aligned.closeRow (b n : ℕ) :
  (T.closeRow b n).Aligned transit ∧ ∀ c fd, (T.closeRow b n).Pinned c fd → T.Pinned c fd
  := by
  induction n with
  | zero => exact ⟨hT, fun c fd hU => hU⟩
  | succ n ih =>
    obtain ⟨haligned, hpinned⟩ := ih.1.closeObject (T.objects b n)
    exact ⟨haligned, fun c fd hU => ih.2 c fd (hpinned c fd hU)⟩

/-- The table of a client is replaced, and none of its descriptors is on the way. -/
theorem Aligned.setRow (row : ℕ → ObjectSlot) (hb : ∀ fd, ¬T.Pinned b fd) {clients : List ℕ}
    (hclients : ∀ c ≠ b, c ∈ T.clients → c ∈ clients) :
  Aligned { T with clients, objects := update T.objects b row } transit
  := by
  apply hT.of_objects (U := { T with clients, objects := update T.objects b row }) rfl rfl
  intro packed x hpinned hx
  have hne : capBadge packed ≠ b := by
    rintro rfl
    exact hb _ hpinned
  obtain ⟨hmem, hrest⟩ := holds_iff.mp hx
  apply holds_iff.mpr
  use hclients _ hne hmem
  simpa [hne] using hrest

end

end Tables

namespace State

variable {s : State} {b fd : ℕ} {transit : ℕ → List (Backing × Bool × Bool)}
variable {fds : List ℕ}

theorem aligned_clientExit (hs : s.Aligned transit) (hb : ∀ fd, ¬s.Pinned b fd) :
  (s.clientExit b).Aligned transit
  := by
  unfold clientExit
  split_ifs
  · obtain ⟨haligned, hpinned⟩ := hs.closeRow b maxClientObjects
    change ((State.cleanupClientObjects _ b).toTables.removeClient b).Aligned transit
    rw [toTables_cleanupClientObjects, toTables_clearPtyPending]
    exact haligned.setRow _ (fun fd hU => hb fd (hpinned b fd hU)) (by simp +contextual)
  · exact hs

/-- A client is looked up. -/
theorem aligned_resolveClient (hs : s.Aligned transit) {mem : Bool} {t : State}
    (ht : s.resolveClient b mem = some t) :
  t.Aligned transit ∧ t.sockets = s.sockets
  := by
  obtain ⟨-, rfl⟩ | ⟨hb, rfl⟩ := resolveClient_cases ht
  · exact ⟨hs, rfl⟩
  · exact ⟨hs.addClient hb, rfl⟩

/-! ## Sending -/

/-- A message that is not accepted changes nothing. -/
theorem handleSendmsg_of_none (h : s.sendTarget b fd = none) (data : List Byte) (fds : List ℕ) :
  (s.handleSendmsg b fd data fds).state = s
  := by
  unfold handleSendmsg
  unfold sendTarget at h
  rcases hh : s.unixSocketHandle b fd with _ | g
  · rfl
  rw [hh, Option.bind_some] at h
  dsimp only
  rcases hk : s.sockets g with _ | k
  · rfl
  rw [hk, Option.bind_some] at h
  dsimp only
  split_ifs with hopen
  · rfl
  rw [if_pos (by simpa using hopen)] at h
  rcases hq : k.peerSocket with _ | q
  · rfl
  rw [hq] at h
  dsimp only
  cases hpeer : s.sockets q with
  | none => rfl
  | some peer => simp [hpeer] at h

/-- A message that is accepted arrives at the peer, with the descriptors in place of those that are
on the way. -/
theorem handleSendmsg_of_some {q : ℕ} (h : s.sendTarget b fd = some q) (data : List Byte)
    (fds : List ℕ) :
  ∃ peer buf recvWaiter, s.sockets q = some peer ∧ (s.handleSendmsg b fd data fds).state.toTables =
      s.toTables.setSocket q
        { peer with pendingCaps := (fds.take 4).map (packCap b), buf, recvWaiter }
  := by
  obtain ⟨k, hk, hq⟩ := Option.bind_eq_some_iff.mp h
  obtain ⟨g, hg, hk⟩ := Option.bind_eq_some_iff.mp hk
  split_ifs at hq with hopen
  obtain ⟨hpeerSocket, hsome⟩ := Option.filter_eq_some_iff.mp hq
  obtain ⟨peer, hpeer⟩ := Option.isSome_iff_exists.mp hsome
  obtain ⟨buf, recvWaiter, harrive⟩ :=
    arrive_eq { peer with pendingCaps := (fds.take 4).map (packCap b) } (data.take 120) 120
      (fun bytes => .message bytes [])
  use peer, buf, recvWaiter, hpeer
  have hopen' : ¬(k.state ≠ .connected ∨ k.shutWr = true) := by simpa using hopen
  unfold handleSendmsg
  simp only [hg, hk, hopen', if_false, hpeerSocket, hpeer]
  change (State.arriveAt ..).toTables = _
  unfold arriveAt
  rw [toTables_sendAll, harrive]
  rfl

theorem capBadge_packCap (hb : b < 2 ^ 32) (hfd : fd < 2 ^ 32) :
  capBadge (packCap b fd) = b ∧ capFd (packCap b fd) = fd
  := by
  unfold capBadge capFd packCap
  constructor
  · omega
  · omega

/-- The packed descriptors of a message refer to the objects that they denote. -/
theorem forall₂_denoted (hb : b ∈ s.clients) (hlt : b < 2 ^ 32)
    (hlive : ∀ fd ∈ fds, (s.resolveFd b fd).isSome = true) :
  List.Forall₂ s.Holds (fds.map (packCap b)) (s.denoted b fds)
  := by
  induction fds with
  | nil => exact List.Forall₂.nil
  | cons fd fds ih =>
    obtain ⟨o, ho⟩ := Option.isSome_iff_exists.mp (hlive fd List.mem_cons_self)
    have hfd : fd < 2 ^ 32 := by
      have := (Tables.resolveFd_spec ho).1
      unfold maxClientObjects at this
      omega
    obtain ⟨hbadge, hnumber⟩ := capBadge_packCap hlt hfd
    have hcons : s.denoted b (fd :: fds) = o.object :: s.denoted b fds := by
      simp [denoted, ho]
    rw [hcons]
    apply List.Forall₂.cons
    · refine ⟨hbadge.symm ▸ hb, o, ?_, rfl⟩
      rw [hbadge, hnumber]
      exact ho
    · exact ih fun fd' hmem => hlive fd' (List.mem_cons_of_mem _ hmem)

/-- What a message may carry: live descriptors, at most four, of a sender whose badge fits, to a
socket to which no descriptors are on the way. -/
def MayPass (s : State) (b fd : ℕ) (fds : List ℕ) : Prop :=
  ∀ q peer, s.sendTarget b fd = some q → s.sockets q = some peer →
    b < 2 ^ 32 ∧ fds.length ≤ 4 ∧ (∀ fd' ∈ fds, (s.resolveFd b fd').isSome = true) ∧
      peer.pendingCaps = []

/-- A message was accepted. -/
theorem aligned_handleSendmsg (hs : s.Aligned transit) (hb : b ∈ s.clients) {q : ℕ}
    (hq : s.sendTarget b fd = some q) (data : List Byte) (hfds : s.MayPass b fd fds) :
  (s.handleSendmsg b fd data fds).state.Aligned (update transit q (transit q ++ s.denoted b fds))
  := by
  obtain ⟨peer, buf, recvWaiter, hpeer, heq⟩ := handleSendmsg_of_some hq data fds
  obtain ⟨hlt, hfour, hlive, hnone⟩ := hfds q peer hq hpeer
  have htransit : transit q = [] := by
    have hall := hs.holds q peer hpeer
    rw [hnone] at hall
    exact List.forall₂_nil_left_iff.mp hall
  rw [heq, htransit, List.nil_append, List.take_of_length_le hfour]
  exact hs.putSocket hpeer (forall₂_denoted hb hlt hlive)

/-! ## Receiving -/

theorem freeFd_eq_none_iff :
  s.freeFd b 0 = none ↔ (freeFds (s.objects b)).card = 0
  := by
  unfold Tables.freeFd freeFds
  simp

/-- A free descriptor is filled. -/
theorem card_freeFds_setObject {o : ObjectSlot} (hfd : s.freeFd b 0 = some fd) (ho : o.isLive = true) :
  (freeFds (s.objects b)).card = (freeFds ((s.setObject b fd o).objects b)).card + 1
  := by
  obtain ⟨hlt, hfree⟩ := Tables.freeFd_spec hfd
  have hmem : fd ∈ freeFds (s.objects b) := by
    simp [freeFds, hlt, hfree]
  have herase : freeFds ((s.setObject b fd o).objects b) = (freeFds (s.objects b)).erase fd := by
    ext fd'
    have hset := s.toTables.objects_setObject b fd o (b, fd')
    simp only [freeFds, Finset.mem_filter, Finset.mem_erase]
    change _ ∧ ((s.toTables.setObject b fd o).objects b fd').isFree = true ↔ _
    rw [hset]
    split_ifs with heq
    · have hsame : fd' = fd := (Prod.mk.inj heq).2
      have hnot : ¬o.isFree = true := fun h => Tables.not_isLive_of_isFree h ho
      simp [hsame, hnot]
    · have hne : fd' ≠ fd := fun h => heq (by rw [h])
      simp [hne]
  rw [herase, Finset.card_erase_add_one hmem]

/-- The descriptors of a message are installed: they refer to what was passed, as far as there are
free descriptors, and they were free before. -/
theorem installCaps_spec {caps : List ℕ} {xs : List (Backing × Bool × Bool)}
    (hs : List.Forall₂ s.Holds caps xs) :
  (s.installCaps b caps).2.map (fun fd => ((s.installCaps b caps).1.objects b fd).object) =
      xs.take (freeFds (s.objects b)).card ∧
    (∀ fd ∉ (s.installCaps b caps).2, (s.installCaps b caps).1.objects b fd = s.objects b fd) ∧
    ∀ fd ∈ (s.installCaps b caps).2, (s.objects b fd).isFree = true
  := by
  induction caps generalizing s xs with
  | nil =>
    cases hs
    refine ⟨?_, fun fd _ => rfl, ?_⟩
    · simp [installCaps]
    · intro fd hfd
      cases hfd
  | cons packed caps ih =>
    cases hs with
    | @cons _ x _ xs hx hxs =>
      obtain ⟨hmem, o, hslot, rfl⟩ := hx
      have ho : s.capSlot packed = some o := capSlot_eq_some_iff.mpr ⟨hmem, hslot⟩
      have hlive : o.isLive = true := (Tables.resolveFd_eq_some_iff.mp hslot).2.1
      unfold installCaps
      simp only [ho]
      cases hfd : s.freeFd b 0 with
      | none =>
        have hzero := freeFd_eq_none_iff.mp hfd
        have hrest := ih hxs
        rw [hzero, List.take_zero] at hrest ⊢
        exact hrest
      | some fd =>
        obtain ⟨hlt, hfree⟩ := Tables.freeFd_spec hfd
        have hself : (s.setObject b fd o).objects b fd = o := by simp [setObject, Tables.setObject]
        have hne : ∀ fd' ≠ fd, (s.setObject b fd o).objects b fd' = s.objects b fd' :=
          fun fd' hfd' => s.toTables.objects_setObject_of_ne hfd'
        have hxs' : List.Forall₂ (s.setObject b fd o).Holds caps xs := by
          apply hxs.imp
          intro packed' x' hx'
          apply hx'.setObject
          intro _ _ hfd'
          exact absurd hfd' (Tables.not_isLive_of_isFree hfree)
        obtain ⟨hobjects, hothers, hwere⟩ := ih (s := s.setObject b fd o) hxs'
        have hnot : fd ∉ ((s.setObject b fd o).installCaps b caps).2 := by
          intro hmem'
          have hfree' := hwere fd hmem'
          rw [hself] at hfree'
          exact Tables.not_isLive_of_isFree hfree' hlive
        refine ⟨?_, ?_, ?_⟩
        · rw [card_freeFds_setObject hfd hlive, List.take_succ_cons, List.map_cons, hobjects,
            hothers fd hnot, hself]
        · intro fd' hfd'
          obtain ⟨hfd'ne, hfd'⟩ := not_or.mp (List.mem_cons.not.mp hfd')
          rw [hothers fd' hfd', hne fd' hfd'ne]
        · intro fd' hfd'
          obtain rfl | hfd' := List.mem_cons.mp hfd'
          · exact hfree
          have hfree' := hwere fd' hfd'
          rw [hne fd' fun heq => hnot (heq ▸ hfd')] at hfree'
          exact hfree'

/-- A request to receive from what is not a connected socket changes nothing. -/
theorem handleRecvmsg_of_none (h : s.recvSource b fd = none) (maxData : ℕ) :
  (s.handleRecvmsg b fd maxData).state = s
  := by
  unfold recvSource at h
  unfold handleRecvmsg
  rcases hh : s.unixSocketHandle b fd with _ | g
  · rfl
  rw [hh] at h
  dsimp only
  rcases hk : s.sockets g with _ | k
  · rfl
  dsimp only
  split
  · rfl
  next hconnected =>
    simp [Option.filter, hk, not_not.mp hconnected] at h

/-- The receipt of a request to receive. -/
def receipt (s : State) (b fd maxData : ℕ) (passed : List (Backing × Bool × Bool)) : Receipt where
  fds := newFds (s.handleRecvmsg b fd maxData).reply
  before := s.objects b
  after := (s.handleRecvmsg b fd maxData).state.objects b
  passed := passed

theorem aligned_handleRecvmsg (hs : s.Aligned transit) {h : ℕ} (hh : s.recvSource b fd = some h)
    (maxData : ℕ) :
  (s.handleRecvmsg b fd maxData).state.Aligned (update transit h []) ∧
    (s.receipt b fd maxData (transit h)).Right
  := by
  obtain ⟨hhandle, hconnected⟩ := Option.filter_eq_some_iff.mp hh
  obtain ⟨k, hk, hstate⟩ := (Option.any_eq_true _ _).mp hconnected
  have hstate' : ¬k.state ≠ .connected := not_not.mpr (of_decide_eq_true hstate)
  have hholds := hs.holds h k hk
  unfold receipt handleRecvmsg
  simp only [hhandle, hk, if_neg hstate']
  split
  next hempty =>
    have hnone : transit h = [] := by
      rw [hempty.2] at hholds
      exact List.forall₂_nil_left_iff.mp hholds
    have hsame : update transit h [] = transit := by
      rw [← hnone, update_eq_self]
    rw [hsame, hnone]
    split
    · exact ⟨hs, List.take_nil.symm, fun _ _ => rfl⟩
    obtain hpark | ⟨c, -, -, hpark⟩ :=
      s.park_cases fun t w => (t.setSocket h { k with recvWaiter := some w }).deferred
    · rw [hpark]
      exact ⟨hs, List.take_nil.symm, fun _ _ => rfl⟩
    · rw [hpark]
      exact ⟨hs.setSocket hk rfl, List.take_nil.symm, fun _ _ => rfl⟩
  · obtain ⟨hobjects, hothers, -⟩ :=
      installCaps_spec (s := s.setSocket h (k.takeMessage maxData)) (b := b) hholds
    -- nothing is on the way to the socket any more
    have htaken : (s.setSocket h (k.takeMessage maxData)).Aligned (update transit h []) :=
      hs.putSocket hk List.Forall₂.nil
    exact ⟨htaken.edits (edits_installCaps _ b k.pendingCaps), hobjects, hothers⟩

/-! ## Runs -/

/-- The requests after which the descriptors on the way still refer to the objects that were passed:
a descriptor on the way is not closed or replaced, and a message that carries descriptors or that
meets descriptors on the way is one that may be passed. -/
def PassCareful (s : State) (b : ℕ) : Request → Prop
  | .sendmsg fd _ fds => s.MayPass b fd fds
  | .close fd => ¬s.Pinned b fd
  | .dup2 old new => old = new ∨ ¬s.Pinned b new
  | .dup3 old new _ => old = new ∨ ¬s.Pinned b new
  | .cloneFds _ child => ∀ fd, ¬s.Pinned child fd
  | _ => True

/-- The events after which the descriptors on the way still refer to the objects that were
passed. -/
def PassCarefulEvent (s : State) : Event → Prop
  | .request b _ _ r => s.PassCareful b r
  | .exit b => ∀ fd, ¬s.Pinned b fd
  | _ => True

/-- A caller that is saved may change a pipe. -/
theorem aligned_parkPipe (hs : s.Aligned transit) (h : ℕ) (effect : Waiter → PipeEffect) :
  (s.parkPipe h effect).state.Aligned transit
  := by
  apply toTables_park (P := fun T => T.Aligned transit) hs
  intro t w ht
  have hT : t.Aligned transit := ht.symm ▸ hs
  exact hT.setPipes _ _

theorem aligned_sleep (hs : s.Aligned transit) (ready : Readiness) (mem : Bool)
    (waiter : Waiter → PollWaiter) :
  (s.park fun t w => t.sleep ready mem (waiter w)).state.Aligned transit
  := by
  apply toTables_park (P := fun T => T.Aligned transit) hs
  intro t w ht
  rw [toTables_sleep, ht]
  exact hs

theorem aligned_act (hs : s.Aligned transit) {ext : External} {r : Request} {o : Outcome}
    (hr : s.PassCareful b r) (hmessage : r.isMessage = false) (h : s.Act b ext r o) :
  o.state.Aligned transit
  := by
  cases h with
  | small h => exact hs.edits (h.edits hs.fresh)
  | removeFifo => exact hs.setPipes _ _
  | replace hcopy ho hnew hne =>
    obtain rfl | rfl := hcopy
    · exact hs.setObject _ (.inr (.inl (hr.resolve_left hne)))
    · exact hs.setObject _ (.inr (.inl (hr.resolve_left hne)))
  | cloneFds ht =>
    obtain ⟨haligned, hsockets⟩ := aligned_resolveClient hs ht
    refine haligned.setRow _ ?_ fun _ _ => id
    intro fd hU
    unfold Tables.Pinned at hU
    rw [hsockets] at hU
    exact hr fd hU
  | read ho hh hp hlen =>
    rw [toTables_wakePollWaitersPipe, toTables_sendAll]
    exact hs.setPipes _ _
  | readWait ho hh hp hempty hopen hblock => exact aligned_parkPipe hs _ _
  | write ho hh hp hlen =>
    rw [toTables_wakePollWaitersPipe, toTables_sendAll]
    exact hs.setPipes _ _
  | writeWait ho hh hp hopen hfull hblock => exact aligned_parkPipe hs _ _
  | sendmsg hq => cases hmessage
  | recvmsg hh hk => cases hmessage
  | @close fd o ho =>
    obtain ⟨hlt, rfl⟩ := Tables.resolveFd_spec ho
    obtain ⟨haligned, hpinned⟩ := hs.closeObject (s.objects b fd)
    change ((s.preClose b fd).toTables.setObject b fd .zeroed).Aligned transit
    rw [toTables_preClose s hlt]
    exact haligned.setObject .zeroed (.inr (.inl fun hU => hr (hpinned b fd hU)))
  | poll hwait => exact aligned_sleep hs ..
  | epollWait hx hwait => exact aligned_sleep hs ..

/-- What is asked of a request depends on the sockets only. -/
theorem passCareful_of_sockets {t : State} (h : t.sockets = s.sockets) {r : Request}
    (hr : s.PassCareful b r) (hmessage : r.isMessage = false) :
  t.PassCareful b r
  := by
  have hpinned : ∀ c fd, t.Pinned c fd → s.Pinned c fd := by
    intro c fd hU
    unfold Tables.Pinned at hU
    rw [h] at hU
    exact hU
  cases r with
  | sendmsg fd data fds => cases hmessage
  | close fd => exact fun hU => hr (hpinned b fd hU)
  | dup2 old new => exact hr.imp id fun hnot hU => hnot (hpinned b new hU)
  | dup3 old new cloexec => exact hr.imp id fun hnot hU => hnot (hpinned b new hU)
  | cloneFds parent child => exact fun fd hU => hr fd (hpinned child fd hU)
  | _ => exact trivial

end State

namespace World

variable {w : World}
variable {t : State} {b : ℕ} {ext : External}

/-- A world in which the descriptors on the way refer to the objects that were passed, and in which
all receipts are right. -/
structure Faithful (w : World) : Prop where
  aligned : w.state.Aligned w.transit
  right : ∀ r ∈ w.receipts, r.Right

theorem faithful_initial :
  initial.Faithful
  := by
  refine ⟨⟨fun _ _ => rfl, fun _ _ => rfl, ?_⟩, ?_⟩
  · intro h k hk
    cases hk
  · intro r hr
    cases hr

/-- An event that does not send or receive a message. -/
theorem Faithful.withState (hw : w.Faithful) (ht : t.Aligned w.transit) :
  (w.withState t).Faithful
  := ⟨ht, hw.right⟩

theorem Faithful.accountSend (hw : w.Faithful) {fd : ℕ} (hb : b ∈ w.state.clients)
    (data : List Byte) {fds : List ℕ} (hfds : w.state.MayPass b fd fds)
    (ht : t.toTables = ((w.state.receive b).handleSendmsg b fd data fds).state.toTables) :
  ((w.accountSend b fd fds).withState t).Faithful
  := by
  have hs : (w.state.receive b).Aligned w.transit := hw.aligned
  unfold World.accountSend
  cases hq : w.state.sendTarget b fd with
  | none =>
    apply hw.withState
    rw [ht, State.handleSendmsg_of_none (s := w.state.receive b) hq]
    exact hs
  | some q =>
    refine ⟨?_, hw.right⟩
    change t.Aligned _
    rw [ht]
    exact State.aligned_handleSendmsg hs hb hq data hfds

theorem Faithful.accountRecv (hw : w.Faithful) {fd maxData : ℕ}
    (ht : t.toTables = ((w.state.receive b).handleRecvmsg b fd maxData).state.toTables) :
  ((w.accountRecv b fd maxData t).withState t).Faithful
  := by
  have hs : (w.state.receive b).Aligned w.transit := hw.aligned
  unfold World.accountRecv
  cases hh : w.state.recvSource b fd with
  | none =>
    apply hw.withState
    rw [ht, State.handleRecvmsg_of_none (s := w.state.receive b) hh]
    exact hs
  | some h =>
    obtain ⟨haligned, hright⟩ := State.aligned_handleRecvmsg hs hh maxData
    refine ⟨?_, ?_⟩
    · change t.Aligned _
      rw [ht]
      exact haligned
    intro r hr
    obtain hold | hnew := List.mem_append.mp hr
    · exact hw.right r hold
    · rw [List.mem_singleton.mp hnew, ht]
      exact hright

/-- A request of a client that is registered. -/
theorem Faithful.account (hw : w.Faithful) (hb : b ∈ w.state.clients) {r : Request}
    (hr : w.state.PassCareful b r)
    (ht : t.toTables = ((w.state.receive b).handle b ext r).state.toTables) :
  ((w.account b t r).withState t).Faithful
  := by
  cases r with
  | sendmsg fd data fds => exact hw.accountSend hb data hr ht
  | recvmsg fd maxData => exact hw.accountRecv ht
  | _ =>
    apply hw.withState
    rw [ht]
    refine State.aligned_act (s := w.state.receive b) hw.aligned ?_ ?_ (State.act_handle _ b ext _)
    · exact hr
    · rfl

/-- A client that was not registered has no sockets. -/
theorem unixSocketHandle_of_new {s : State} (hb : b ∉ s.clients) {mem : Bool}
    (ht : s.resolveClient b mem = some t) (fd : ℕ) :
  t.unixSocketHandle b fd = none
  := by
  unfold State.resolveClient at ht
  split_ifs at ht
  cases ht
  simp [Tables.unixSocketHandle, Tables.resolveFd, Tables.addClient, ObjectSlot.zeroed,
    ObjectSlot.isLive]

/-- A request of a client that was not registered. -/
theorem aligned_request (hw : w.Faithful) (hb : b ∉ w.state.clients) {mem : Bool} {r : Request}
    (hr : w.state.PassCareful b r) :
  (w.state.exec (.request b mem ext r)).Aligned w.transit
  := by
  unfold State.exec
  dsimp only
  rcases ht : (w.state.receive b).resolveClient b mem with _ | t
  · exact (State.toTables_finish _).symm ▸ hw.aligned
  obtain ⟨haligned, hsockets⟩ := State.aligned_resolveClient (s := w.state.receive b) hw.aligned ht
  have hnone := unixSocketHandle_of_new (s := w.state.receive b) hb ht
  rw [State.toTables_finish]
  cases r with
  | sendmsg fd data fds =>
    have hq : t.sendTarget b fd = none := by simp [State.sendTarget, hnone fd]
    exact (State.handleSendmsg_of_none hq data fds).symm ▸ haligned
  | recvmsg fd maxData =>
    have hh : t.recvSource b fd = none := by simp [State.recvSource, hnone fd]
    exact (State.handleRecvmsg_of_none hh maxData).symm ▸ haligned
  | _ =>
    refine State.aligned_act haligned ?_ ?_ (t.act_handle b ext _)
    · exact State.passCareful_of_sockets hsockets hr rfl
    · rfl

theorem Faithful.exec (hw : w.Faithful) {e : Event} (he : w.state.PassCarefulEvent e) :
  (w.exec e).Faithful
  := by
  cases e with
  | request b mem ext r =>
    unfold World.exec
    dsimp only
    split_ifs with hb
    · apply hw.account hb he
      rw [State.exec_request_of_mem hb, State.toTables_finish]
    · exact hw.withState (aligned_request hw hb he)
  | register b target mem =>
    apply hw.withState
    unfold State.exec
    dsimp only
    cases ht : (w.state.receive b).resolveClient target mem with
    | none => exact (State.toTables_finish _).symm ▸ hw.aligned
    | some t =>
      have haligned := (State.aligned_resolveClient (s := w.state.receive b) hw.aligned ht).1
      exact (State.toTables_finish _).symm ▸ haligned
  | exit b => exact hw.withState (State.aligned_clientExit hw.aligned he)
  | exec b => exact hw.withState ((w.state.toTables_clearPtyPending b).symm ▸ hw.aligned)
  | pollTimer now => exact hw.withState ((w.state.toTables_expirePollTimeouts now).symm ▸ hw.aligned)
  | ptyTimer now => exact hw.withState ((w.state.toTables_expirePtyTimeouts now).symm ▸ hw.aligned)
  | ptyNotification ready ptyId collected =>
    apply hw.withState
    change (State.ptyNotification ..).Aligned _
    unfold State.ptyNotification
    rw [State.toTables_wakePtyPollWaiters, State.toTables_collect]
    exact hw.aligned
  | netsrvCallback b connId opType answer =>
    apply hw.withState
    change (State.netsrvCallback ..).finish.Aligned _
    rw [State.toTables_finish]
    exact hw.aligned.edits (State.edits_netsrvCallback (w.state.receive b) connId opType answer)

/-- In every run in which descriptors on the way are not closed or replaced, and in which messages
carry live descriptors to sockets to which no descriptors are on the way, every message installs the
objects that were passed. -/
theorem receipts_right_of_careful_run {w : World}
    (h : Relation.ReflTransGen (StepOf State.PassCarefulEvent) initial w) :
  ∀ r ∈ w.receipts, r.Right
  := by
  have hw : w.Faithful := by
    refine invariant_of_run ?_ faithful_initial h
    rintro v u hv ⟨e, he, rfl⟩
    exact hv.exec he
  exact hw.right

/-- A client opens a pair of sockets and a file, and passes the file to itself. -/
def passFile : List Event :=
  [.request 7 true .quiet .sockpair, .request 7 true .quiet (.openVnode 4 .zeroed),
    .request 7 true .quiet (.sendmsg 0 [] [2]), .request 7 true .quiet (.recvmsg 1 0)]

/-- The file is received with a new descriptor. -/
theorem receipts_right_of_passFile :
  (initial.execAll passFile).receipts.map (·.fds) = [[3]] ∧
    ∀ r ∈ (initial.execAll passFile).receipts, r.Right
  := by
  use by decide
  apply receipts_right_of_careful_run
  apply run_execAll
  refine ⟨trivial, trivial, ?_, trivial, trivial⟩
  intro q peer hq hpeer
  have hq' : ((State.initial.exec (.request 7 true .quiet .sockpair)).exec
    (.request 7 true .quiet (.openVnode 4 .zeroed))).sendTarget 7 0 = some 1 := by decide
  obtain rfl : 1 = q := Option.some.inj (hq'.symm.trans hq)
  have hcaps : (((State.initial.exec (.request 7 true .quiet .sockpair)).exec
    (.request 7 true .quiet (.openVnode 4 .zeroed))).sockets 1).map (·.pendingCaps) =
      some [] := by decide
  use by decide, by decide, by decide
  have hpeer' := congrArg (Option.map (·.pendingCaps)) hpeer
  exact Option.some.inj (hpeer'.symm.trans hcaps)

/-- A client passes a file, closes it and opens another file before the message is received. -/
def swapFile : List Event :=
  [.request 7 true .quiet .sockpair, .request 7 true .quiet (.openVnode 4 .zeroed),
    .request 7 true .quiet (.sendmsg 0 [] [2]), .request 7 true .quiet (.close 2),
    .request 7 true .quiet (.openVnode 5 .zeroed), .request 7 true .quiet (.recvmsg 1 0)]

/-- The receiver gets the other file. -/
theorem receipts_not_right :
  ¬∀ r ∈ (initial.execAll swapFile).receipts, r.Right
  := by
  intro h
  have hget : (initial.execAll swapFile).receipts.map (fun r =>
      (r.fds.map fun fd => (r.after fd).object, r.passed)) =
        [([(.vnode 5, false, false)], [(.vnode 4, false, false)])] := by decide
  have hmem := List.mem_singleton_self (([(.vnode 5, false, false)], [(.vnode 4, false, false)]) :
      List (Backing × Bool × Bool) × List (Backing × Bool × Bool))
  rw [← hget] at hmem
  obtain ⟨r, hr, hpair⟩ := List.mem_map.mp hmem
  obtain ⟨hinstalled, hpassed⟩ := Prod.mk.inj hpair
  have hright := (h r hr).1
  rw [hinstalled, hpassed] at hright
  cases hcard : (freeFds r.before).card with
  | zero => simp [hcard] at hright
  | succ n => simp [hcard] at hright

end World

end SaltyOS.Vfs
