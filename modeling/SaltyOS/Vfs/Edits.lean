import SaltyOS.Lib.Prog
import SaltyOS.Vfs.Acts

/-!
# What requests do to the tables

The small acts of the handlers change the tables in small steps that overwrite nothing: a free slot
is filled, the flags of a slot change, a pipe or a socket is added, a socket changes or is released.
-/

open Relation

namespace SaltyOS.Vfs

/-- What a slot refers to, and with which rights. -/
def ObjectSlot.object (o : ObjectSlot) : Backing × Bool × Bool :=
  (o.backing, o.canRead, o.canWrite)

namespace Tables

/-- If a slot refers to a pipe, then the handle of the pipe was given, or another slot has it. -/
def Known (T : Tables) (o : ObjectSlot) : Prop :=
  ∀ h, o.pipeHandle = some h → h < T.nextPipe ∨ ∃ b fd, (T.objects b fd).pipeHandle = some h

/-- A small change of the tables. -/
inductive Edit (T : Tables) : Tables → Prop
  | fill (b fd : ℕ) (o : ObjectSlot) (h : (T.objects b fd).isFree = true) (ho : T.Known o) :
    Edit T (T.setObject b fd o)
  | flags (b fd : ℕ) (o : ObjectSlot) (h : o.object = (T.objects b fd).object) :
    Edit T (T.setObject b fd o)
  | addPipe : Edit T T.addPipe
  | addSocket (k : SocketState) (h : k.pendingCaps = []) : Edit T (T.addSocket k)
  | setSocket (h : ℕ) (k k' : SocketState) (hk : T.sockets h = some k)
    (hcaps : k'.pendingCaps = k.pendingCaps) : Edit T (T.setSocket h k')
  | releaseSocket (h : ℕ) : Edit T (T.releaseSocket h)
  | setEpolls (epolls : ℕ → Option (List (Option Watch))) (nextEpoll : ℕ) :
    Edit T { T with epolls := epolls, nextEpoll := nextEpoll }

/-- Several small changes of the tables. -/
abbrev Edits : Tables → Tables → Prop := ReflTransGen Edit

variable {T U : Tables} {b fd low : ℕ}

/-- A slot that names no pipe is known. -/
theorem known_of_none {o : ObjectSlot} (ho : o.pipeHandle = none) :
  T.Known o
  := by
  intro h hh
  rw [ho] at hh
  cases hh

/-- A copy of a slot. -/
theorem known_of_eq {o : ObjectSlot} {c fd' : ℕ} (ho : o.pipeHandle = (T.objects c fd').pipeHandle) :
  T.Known o
  := by
  intro h hh
  exact .inr ⟨c, fd', ho.symm.trans hh⟩

/-- A free slot is filled. -/
theorem Edits.fillFree {o : ObjectSlot} (h : T.freeFd b low = some fd) (ho : T.Known o) :
  Edits T (T.setObject b fd o)
  := by
  exact ReflTransGen.single (Edit.fill b fd o (freeFd_spec h).2 ho)

/-- Two free slots are filled, the second of which was found while the first one was reserved. -/
theorem Edits.fillTwo {fd' : ℕ} {o o' : ObjectSlot} (h : T.freeFd b 0 = some fd)
    (h' : (T.setObject b fd (.of .reserved)).freeFd b 0 = some fd')
    (ho : ∀ g, o.pipeHandle = some g → g < T.nextPipe)
    (ho' : ∀ g, o'.pipeHandle = some g → g < T.nextPipe) :
  Edits T ((T.setObject b fd o).setObject b fd' o')
  := by
  obtain ⟨-, hne, hfree⟩ := freeFd_reserved h'
  apply (Edits.fillFree h fun g hg => .inl (ho g hg)).tail
  apply Edit.fill
  · rw [objects_setObject_of_ne _ hne]
    exact hfree
  · exact fun g hg => .inl (ho' g hg)

theorem Edits.setSocket {h : ℕ} {k k' : SocketState} (hk : T.sockets h = some k)
    (hcaps : k'.pendingCaps = k.pendingCaps) :
  Edits T (T.setSocket h k')
  := ReflTransGen.single (Edit.setSocket h k k' hk hcaps)

/-- Handles of sockets that were not given yet are not in use. -/
def Fresh (T : Tables) : Prop := ∀ h, T.nextSocket ≤ h → T.sockets h = none

section

variable {h : ℕ} {k : SocketState} (hT : T.Fresh) (hk : T.sockets h = some k)
include hT hk

/-- A socket in the table is not the next new one. -/
theorem Fresh.ne_nextSocket :
  h ≠ T.nextSocket
  := by
  rintro rfl
  rw [hT T.nextSocket le_rfl] at hk
  cases hk

theorem Fresh.setSocket (k' : SocketState) :
  (T.setSocket h k').Fresh
  := by
  intro g hg
  have hgh : g ≠ h := by
    rintro rfl
    rw [hT g hg] at hk
    cases hk
  rw [sockets_setSocket, if_neg hgh]
  exact hT g hg

end

/-- New numbers stay unused by every edit. -/
theorem Fresh.edit (hT : T.Fresh) (h : T.Edit U) :
  U.Fresh
  := by
  cases h with
  | setSocket h k k' hk hcaps => exact hT.setSocket hk k'
  | addSocket k hk =>
    intro g hg
    have hg' : T.nextSocket + 1 ≤ g := hg
    rw [sockets_addSocket, if_neg (Nat.ne_of_gt hg')]
    exact hT g (Nat.le_of_succ_le hg')
  | releaseSocket h =>
    intro g hg
    rw [sockets_releaseSocket]
    split_ifs
    · rfl
    · exact hT g hg
  | _ => exact hT

theorem Fresh.edits (hT : T.Fresh) (h : T.Edits U) :
  U.Fresh
  := by
  refine invariant_of_run (I := Fresh) ?_ hT h
  intro V W hV hstep
  exact hV.edit hstep

/-! ## Closing -/

/-- The peer of a socket is marked as hung up. -/
theorem edits_hangUpPeer (T : Tables) (h : ℕ) (peer : Option ℕ) :
  Edits T (T.hangUpPeer h peer)
  := by
  unfold hangUpPeer
  obtain _ | q := peer
  · rfl
  dsimp only
  cases hq : T.sockets q with
  | none => rfl
  | some k => exact Edits.setSocket hq rfl

/-- A socket is released by its last descriptor. -/
theorem edits_closeSocket (T : Tables) (h : ℕ) :
  Edits T (T.closeSocket h)
  := by
  unfold closeSocket
  rcases hk : T.sockets h with _ | k
  · rfl
  dsimp only
  split_ifs
  · exact Edits.setSocket hk rfl
  · exact (edits_hangUpPeer T h k.peerSocket).tail (Edit.releaseSocket h)

/-- Closing an end of a pipe changes pipes only. -/
theorem closePipe_eq (T : Tables) (h : ℕ) (isReadEnd : Bool) :
  ∃ pipes tornEnds, T.closePipe h isReadEnd = { T with pipes, tornEnds }
  := by
  have htear : ∀ (p : PipeState) (n : ℕ) (e : Bool), ∃ pipes tornEnds,
      ((T.setPipe h p).tearEnd h e n).releaseClosed h p = { T with pipes, tornEnds } := by
    intro p n e
    unfold tearEnd releaseClosed
    split_ifs <;> exact ⟨_, _, rfl⟩
  unfold closePipe
  cases T.pipes h with
  | none => exact ⟨_, _, rfl⟩
  | some p =>
    split_ifs <;> apply htear

/-- Closing what a slot refers to makes small changes, or changes pipes only. -/
theorem closeObject_cases (T : Tables) (o : ObjectSlot) :
  Edits T (T.closeObject o) ∨ ∃ pipes tornEnds, T.closeObject o = { T with pipes, tornEnds }
  := by
  unfold closeObject
  cases o.backing with
  | unixSocket h => exact .inl (edits_closeSocket T h)
  | pipe h => exact .inr (closePipe_eq T h o.canRead)
  | epoll h => exact .inl (ReflTransGen.single (Edit.setEpolls _ _))
  | _ => exact .inl ReflTransGen.refl

end Tables

namespace State

variable {s : State} {b : ℕ}

/-! ## Sockets and the network -/

/-- An accepted socket is created and another socket becomes its peer. -/
theorem edits_addAccepted (hs : s.Fresh) {h : ℕ} {c : SocketState} (hc : s.sockets h = some c)
    (badge badge' : ℕ) :
  Tables.Edits s.toTables
    ((s.addSocket (accepted h badge)).setSocket h (c.connect s.nextSocket badge')).toTables
  := by
  apply ReflTransGen.head (Tables.Edit.addSocket (accepted h badge) rfl)
  refine Tables.Edits.setSocket (k := c) ?_ rfl
  rw [Tables.sockets_addSocket, if_neg (hs.ne_nextSocket hc)]
  exact hc

/-- A new socket and a descriptor for it, if there is room. -/
theorem edits_acceptPending (hs : s.Fresh) (b : ℕ) (mem : Bool) (p : PendingConn) :
  Tables.Edits s.toTables (s.acceptPending b mem p).state.toTables
  := by
  unfold acceptPending
  split
  · exact (s.toTables_send _ _).symm ▸ ReflTransGen.refl
  rcases hc : s.sockets p.socket with _ | c
  · exact (s.toTables_send _ _).symm ▸ ReflTransGen.refl
  have hadd := edits_addAccepted hs hc p.waiter.badge b
  cases hfd : s.freeFd b 0 with
  | none =>
    change Tables.Edits _ (State.send ..).toTables
    rw [toTables_send]
    exact hadd.tail (Tables.Edit.releaseSocket s.nextSocket)
  | some fd =>
    change Tables.Edits _ (State.send ..).toTables
    rw [toTables_send]
    exact hadd.trans (Tables.Edits.fillFree hfd (Tables.known_of_none rfl))

/-- The client that waited gets a descriptor for the new socket. -/
theorem edits_giveAccepted (s : State) (w : Waiter) (srv : ℕ) :
  Tables.Edits s.toTables (s.giveAccepted w srv).toTables
  := by
  unfold giveAccepted
  split
  next fd hfd =>
    rw [toTables_send]
    unfold acceptFd at hfd
    split_ifs at hfd
    exact Tables.Edits.fillFree hfd (Tables.known_of_none rfl)
  · rw [toTables_send]

/-- A client waits at a listener for its connection. -/
theorem edits_queueConn {h l : ℕ} {c k : SocketState} (hc : s.sockets h = some c)
    (hk : s.sockets l = some k) (hne : l ≠ h) (w : Waiter) :
  Tables.Edits s.toTables (s.queueConn h c l k w).toTables
  := by
  have hset : Tables.Edits s.toTables (s.setSocket h { c with state := .connecting }).toTables :=
    Tables.Edits.setSocket hc rfl
  unfold queueConn
  split
  · exact hset
  apply hset.trans
  refine Tables.Edits.setSocket (k := k) ?_ rfl
  change (Tables.setSocket ..).sockets l = some k
  rw [Tables.sockets_setSocket, if_neg hne]
  exact hk

/-- An accepted connection of the network gets a descriptor. -/
theorem edits_answerInet (s : State) (w : Waiter) (answer : InetAnswer) :
  Tables.Edits s.toTables (s.answerInet w answer).toTables
  := by
  unfold answerInet
  cases answer with
  | reply reply => rw [toTables_send]
  | accepted connId =>
    rw [toTables_send]
    unfold allocInetFd install
    split
    · split
      · rfl
      next hfd => exact Tables.Edits.fillFree hfd (Tables.known_of_none rfl)
    · rfl
  | pending => rfl

theorem edits_netsrvCallback (s : State) (connId : ℕ) (opType : InetOpType) (answer : InetAnswer) :
  Tables.Edits s.toTables (s.netsrvCallback connId opType answer).state.toTables
  := by
  unfold netsrvCallback
  split
  · rfl
  next r _ => exact edits_answerInet { s with inetPending := r.2 } _ _

/-- Passed descriptors are copied to free slots of the receiver. -/
theorem edits_installCaps (s : State) (b : ℕ) (caps : List ℕ) :
  Tables.Edits s.toTables (s.installCaps b caps).1.toTables
  := by
  induction caps generalizing s with
  | nil => rfl
  | cons packed caps ih =>
    unfold installCaps
    split
    · exact ih s
    rename_i o ho
    split
    · exact ih s
    rename_i fd hfd
    obtain ⟨-, hresolve⟩ := capSlot_eq_some_iff.mp ho
    apply ReflTransGen.trans _ (ih (s.setObject b fd o))
    apply Tables.Edits.fillFree hfd
    apply Tables.known_of_eq
    rw [(Tables.resolveFd_spec hresolve).2]

/-! ## Acts -/

/-- A saved caller is noted at a socket. -/
theorem Wait.edits {r : Request} {next : State → Waiter → Outcome} (h : s.Wait b r next) :
  Tables.Edits s.toTables (s.park next).state.toTables
  := by
  apply toTables_park (P := Tables.Edits s.toTables) ReflTransGen.refl
  intro t w ht
  cases h with
  | accept hh hk htake =>
    rw [← ht] at hk ⊢
    exact Tables.Edits.setSocket hk rfl
  | connect hc hk hne hroom =>
    rw [← ht] at hc hk ⊢
    exact edits_queueConn hc hk hne w
  | receive hr hh hk hempty =>
    rw [← ht] at hk ⊢
    exact Tables.Edits.setSocket hk rfl
  | terminal ptyId maxCount deadline =>
    rw [← ht]
    rfl
  | network connId opType wait =>
    rw [← ht]
    split
    · exact (t.toTables_allocPending _).symm ▸ ReflTransGen.refl
    · apply edits_answerInet

/-- Small acts make small changes. -/
theorem SmallAct.edits (hs : s.Fresh) {ext : External} {r : Request} {o : Outcome}
    (h : s.SmallAct b ext r o) :
  Tables.Edits s.toTables o.state.toTables
  := by
  cases h with
  | answer reply => rfl
  | wait h => exact h.edits
  | fill reply hfd hpipe hsocket => exact Tables.Edits.fillFree hfd (Tables.known_of_none hpipe)
  | @pipe nonblocking fd fd' hfd hfd' =>
    apply ReflTransGen.head Tables.Edit.addPipe
    have hnew : ∀ isReadEnd g, (ObjectSlot.pipeEnd s.nextPipe isReadEnd nonblocking).pipeHandle =
        some g → g < s.toTables.addPipe.nextPipe := by
      intro isReadEnd g hg
      cases hg
      exact Nat.lt_succ_self _
    exact Tables.Edits.fillTwo (T := s.toTables.addPipe) hfd hfd' (hnew true) (hnew false)
  | mkfifo => exact ReflTransGen.single Tables.Edit.addPipe
  | openFifo hlt hfd =>
    apply Tables.Edits.fillFree hfd
    intro g hg
    cases hg
    exact .inl hlt
  | copy hr ho hfd =>
    obtain ⟨-, rfl⟩ := Tables.resolveFd_spec ho
    exact Tables.Edits.fillFree hfd (Tables.known_of_eq (c := b) rfl)
  | flags cloexec nonblocking ho =>
    obtain ⟨-, rfl⟩ := Tables.resolveFd_spec ho
    exact ReflTransGen.single (Tables.Edit.flags b _ _ rfl)
  | socket hfd =>
    apply ReflTransGen.head (Tables.Edit.addSocket .new rfl)
    exact Tables.Edits.fillFree (T := s.toTables.addSocket .new) hfd (Tables.known_of_none rfl)
  | setSocket reply state boundIno backlog buf shutRd hk hbacklog =>
    exact Tables.Edits.setSocket hk rfl
  | @accept fd h k p hk htake =>
    have hset : Tables.Edits s.toTables (s.setSocket h
        { k with pending := p.2, pendingCount := k.pendingCount - 1 }).toTables :=
      Tables.Edits.setSocket hk rfl
    apply hset.trans
    apply edits_acceptPending
    exact hs.edits hset
  | @connect fd h ino c k w hc hpath hk hne hw =>
    obtain ⟨hl, -⟩ := Option.filter_eq_some_iff.mp hk
    refine ((edits_addAccepted hs hc b w.badge).trans ?_).trans (edits_giveAccepted _ w s.nextSocket)
    refine Tables.Edits.setSocket (k := k) ?_ rfl
    change (Tables.setSocket ..).sockets ext.pick = some k
    rw [Tables.sockets_setSocket, if_neg hne]
    change (Tables.addSocket _ _).sockets ext.pick = some k
    rw [Tables.sockets_addSocket, if_neg (hs.ne_nextSocket hl)]
    exact hl
  | @shutdown fd how h k shutRd hk =>
    change Tables.Edits _ (State.hangUpPeer ..).toTables
    rw [toTables_hangUpPeer]
    refine ReflTransGen.trans ?_ (Tables.edits_hangUpPeer _ h k.peerSocket)
    exact Tables.Edits.setSocket hk rfl
  | sockpair hfd hfd' =>
    apply ReflTransGen.head (Tables.Edit.addSocket (accepted (s.nextSocket + 1) b) rfl)
    apply ReflTransGen.head (Tables.Edit.addSocket (accepted s.nextSocket b) rfl)
    exact Tables.Edits.fillTwo (T := (s.toTables.addSocket (accepted (s.nextSocket + 1) b)).addSocket
        (accepted s.nextSocket b)) hfd hfd' nofun nofun
  | @arrive r q peer data limit reply values hq =>
    change Tables.Edits _ (State.sendAll _ _).toTables
    obtain ⟨buf, recvWaiter, harrive⟩ := arrive_eq peer data limit reply
    rw [toTables_sendAll, harrive]
    exact Tables.Edits.setSocket hq rfl
  | epollCreate hfd =>
    apply ReflTransGen.head (Tables.Edit.setEpolls _ _)
    exact Tables.Edits.fillFree (T := s.addEpoll.toTables) hfd (Tables.known_of_none rfl)
  | setEpoll h entries => exact ReflTransGen.single (Tables.Edit.setEpolls _ _)

end State

end SaltyOS.Vfs
