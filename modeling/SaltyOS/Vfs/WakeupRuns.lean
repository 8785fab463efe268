import SaltyOS.Vfs.Wakeups

/-!
# No wake-up is lost

In every run in which clients sleep on pipes only, the descriptors that they watch are not closed or
replaced, and no bytes that they are told about are taken by a client that was there before them, no
client sleeps while one of its descriptors is ready, and clients are told only what is true.
-/

namespace SaltyOS.Vfs

open Function PipeState List State

variable {h fd n : ℕ} {mem : Bool} {w : PollWaiter} {ready : Readiness} {timeout : ℤ}
  {ext : External} {data : List Byte}

/-! ## The events of a pipe -/

namespace PipeState

variable {p : PipeState} {events : Events}

theorem readiness_read_eq_none :
  p.readiness true events = .none ↔ (events.pollin = true → p.buf.len = 0) ∧ p.writeRefcount ≠ 0
  := by
  unfold readiness Events.none
  simp only [if_true, Events.mk.injEq, Bool.and_eq_false_imp, decide_eq_false_iff_not, and_true,
    true_and, Nat.not_lt, Nat.le_zero, ne_eq]

theorem readiness_write_eq_none :
  p.readiness false events = .none ↔ (events.pollout = true → p.buf.free = 0) ∧ p.readRefcount ≠ 0
  := by
  unfold readiness Events.none
  simp only [Bool.false_eq_true, if_false, Events.mk.injEq, Bool.and_eq_false_imp,
    decide_eq_false_iff_not, and_true, true_and, Nat.not_lt, Nat.le_zero, ne_eq]

theorem matched_pollin_subset {f : Events} (h : events.pollin = true → f.pollin = true) :
  (({ Events.none with pollin := true } : Events).matched events).Subset f
  := by
  simpa [Events.matched, Events.Subset, Events.none] using h

/-! ### Reading -/

theorem readCount_pos {avail : ℕ} (h : 0 < avail) (requested : ℕ) :
  0 < readCount avail requested
  := by
  unfold readCount
  split_ifs with hless
  · omega
  · omega

/-- The writer that is answered by a read leaves some room, if there is one. -/
def WriterLeavesRoom (p : PipeState) (requested : ℕ) : Prop :=
  ∀ w ∈ p.writeWaiters.head?, w.data.length < p.buf.free + readCount p.buf.len requested

theorem free_readNow {requested : ℕ} (hlen : 0 < p.buf.len) (h : p.WriterLeavesRoom requested) :
  0 < (p.readNow (readCount p.buf.len requested)).pipe.buf.free
  := by
  have hlt := p.buf.len_lt
  have hpos := readCount_pos hlen requested
  have hle := readCount_le p.buf.len requested
  have hdrop := p.buf.len_drop (readCount p.buf.len requested)
  unfold readNow
  split
  next =>
    unfold GapRing.free
    dsimp only
    omega
  rename_i w ws hw
  have hroom := h w (by rw [hw]; rfl)
  have hwrite := (p.buf.drop (readCount p.buf.len requested)).len_write w.data
  unfold GapRing.writeLen at hwrite
  unfold GapRing.free at hroom hwrite ⊢
  dsimp only
  omega

/-! ### Writing -/

/-- The reader that is answered by a write leaves some bytes, if there is one. -/
def ReaderLeavesBytes (p : PipeState) (data : List Byte) : Prop :=
  ∀ r ∈ p.recvWaiters.head?,
    readCount (p.buf.len + p.buf.writeLen data) r.requestedLen < p.buf.len + p.buf.writeLen data

theorem len_writeNow {data : List Byte} (hlen : p.buf.writeLen data ≠ 0)
    (h : p.ReaderLeavesBytes data) :
  0 < (p.writeNow data).pipe.buf.len
  := by
  have hwrite := p.buf.len_write data
  unfold writeNow
  split
  next =>
    dsimp only
    omega
  rename_i r rs hr
  have hleft := h r (by rw [hr]; rfl)
  have hdrop := (p.buf.write data).len_drop (readCount (p.buf.write data).len r.requestedLen)
  rw [← hwrite] at hleft
  dsimp only
  omega

/-! ### Closing -/

theorem closeRead_spec (p : PipeState) :
  p.closeRead.1.buf = p.buf ∧ p.closeRead.1.writeRefcount = p.writeRefcount
  := by
  unfold closeRead
  split_ifs <;> exact ⟨rfl, rfl⟩

theorem closeWrite_spec (p : PipeState) :
  p.closeWrite.1.buf = p.buf ∧ p.closeWrite.1.readRefcount = p.readRefcount
  := by
  unfold closeWrite
  split_ifs <;> exact ⟨rfl, rfl⟩

end PipeState

namespace State

variable {d : Due} {s t : State} {b : ℕ}
variable {h : ℕ} {p : PipeState}

/-! ## Reading and writing -/

/-- The caller is saved. -/
theorem Awake.saveCaller (hs : s.Awake) (c : Caller) :
  (s.allocReplySlot.saveCaller c s.nextReplySlot).Awake
  := hs.same (t := s.allocReplySlot.saveCaller c s.nextReplySlot) rfl rfl (List.Subset.refl _)

theorem Awake.park (hs : s.Awake) {next : State → Waiter → Outcome}
    (hnext : ∀ c, s.caller = some c → s.saved s.nextReplySlot = none →
      (next (s.allocReplySlot.saveCaller c s.nextReplySlot) (s.newWaiter c)).state.Awake) :
  (s.park next).state.Awake
  := by
  obtain hpark | ⟨c, hc, hslot, hpark⟩ := s.park_cases next
  · rw [hpark]
    exact hs.same (t := s.allocReplySlot) rfl rfl (List.Subset.refl _)
  · rw [hpark]
    exact hnext c hc hslot

/-- A caller waits at a pipe. -/
theorem Awake.parkPipe (hs : s.Awake) (hp : s.pipes h = some p) {effect : Waiter → PipeEffect}
    (heffect : ∀ w isReadEnd events,
      (effect w).pipe.readiness isReadEnd events = p.readiness isReadEnd events) :
  (s.parkPipe h effect).state.Awake
  := by
  apply hs.park
  intro c _ _
  refine (hs.saveCaller c).setPipe (t := (s.allocReplySlot.saveCaller c s.nextReplySlot).setPipe h
    (effect (s.newWaiter c)).pipe) hp rfl rfl (List.Subset.refl _) ?_
  intro isReadEnd events hnone
  rw [heffect]
  exact hnone

/-- Bytes are read from a pipe. -/
theorem Awake.readNow (hs : s.Awake) (hbooked : Booked d 0 s) {requested : ℕ}
    (hp : s.pipes h = some p) (hlen : 0 < p.buf.len) (hroom : p.WriterLeavesRoom requested ∨
      s.Unwatched h false { Events.none with pollout := true }) :
  (((s.setPipe h (p.readNow (readCount p.buf.len requested)).pipe).sendAll
    (p.readNow (readCount p.buf.len requested)).sends).wakePollWaitersPipe h
    false { Events.none with pollout := true }).Awake
  := by
  have hset := hbooked.since.readNow hp (readCount p.buf.len requested)
  obtain ⟨hread, hwrite⟩ := p.refcounts_readNow (readCount p.buf.len requested)
  refine hs.wakePipe hp (p.readNow (readCount p.buf.len requested)).pipe s.tornEnds ?_ ?_
    hset hset.answered ?_ ?_ ?_
  · rw [toTables_sendAll]
    rfl
  · rw [pollBook_sendAll]
    rfl
  · -- A client that sleeps at the read end did not ask for bytes.
    intro events hnone
    obtain ⟨hin, hopen⟩ := readiness_read_eq_none.mp hnone
    apply readiness_read_eq_none.mpr
    refine ⟨?_, hwrite.symm ▸ hopen⟩
    intro hpollin
    exact absurd (hin hpollin) (Nat.ne_of_gt hlen)
  · intro events hnone hmatched
    obtain ⟨-, hopen⟩ := readiness_write_eq_none.mp hnone
    apply readiness_write_eq_none.mpr
    refine ⟨?_, hread.symm ▸ hopen⟩
    intro hpollout
    have hfalse := congrArg Events.pollout hmatched
    simp [Events.matched, Events.none, hpollout] at hfalse
  · refine hroom.imp ?_ id
    intro hroom events
    have hfree := free_readNow hlen hroom
    refine ⟨nofun, ?_, nofun, nofun, nofun⟩
    intro hpollout
    simpa [readiness, Events.matched, hfree] using hpollout

/-- Bytes are written to a pipe. -/
theorem Awake.writeNow (hs : s.Awake) (hbooked : Booked d 0 s) (hp : s.pipes h = some p)
    {data : List Byte} (hlen : p.buf.writeLen data ≠ 0)
    (hbytes : p.ReaderLeavesBytes data ∨ s.Unwatched h true { Events.none with pollin := true }) :
  (((s.setPipe h (p.writeNow data).pipe).sendAll
    (p.writeNow data).sends).wakePollWaitersPipe h true
    { Events.none with pollin := true }).Awake
  := by
  have hset := hbooked.since.writeNow hp data
  have hfree : p.buf.free ≠ 0 := by
    intro hzero
    apply hlen
    rw [GapRing.writeLen, hzero, Nat.min_zero]
  obtain ⟨hread, hwrite⟩ := p.refcounts_writeNow data
  refine hs.wakePipe hp (p.writeNow data).pipe s.tornEnds ?_ ?_ hset hset.answered ?_ ?_ ?_
  · rw [toTables_sendAll]
    rfl
  · rw [pollBook_sendAll]
    rfl
  · -- A client that sleeps at the write end did not ask for room.
    intro events hnone
    obtain ⟨hout, hopen⟩ := readiness_write_eq_none.mp hnone
    apply readiness_write_eq_none.mpr
    refine ⟨?_, hread.symm ▸ hopen⟩
    intro hpollout
    exact absurd (hout hpollout) hfree
  · intro events hnone hmatched
    obtain ⟨-, hopen⟩ := readiness_read_eq_none.mp hnone
    apply readiness_read_eq_none.mpr
    refine ⟨?_, hwrite.symm ▸ hopen⟩
    intro hpollin
    have hfalse := congrArg Events.pollin hmatched
    simp [Events.matched, Events.none, hpollin] at hfalse
  · refine hbytes.imp ?_ id
    intro hbytes events
    have hpos := len_writeNow hlen hbytes
    apply matched_pollin_subset
    intro hpollin
    simp [readiness, hpollin, hpos]

/-! ## Closing -/

/-- A pipe is removed. -/
theorem Awake.releasePipe (hs : s.Awake) (h : ℕ) :
  (s.releasePipe h).Awake
  := by
  refine hs.of_pollBook (t := s.releasePipe h) hs.fresh hs.known ?_ rfl (List.Subset.refl _)
  exact hs.quiet.releasePipe h

theorem Awake.releaseClosed (hs : s.Awake) (h : ℕ) (p : PipeState) :
  (s.releaseClosed h p).Awake
  := by
  unfold State.releaseClosed
  split_ifs
  · exact hs.releasePipe h
  · exact hs

section

variable (hs : s.Awake) (hbooked : Booked d 0 s)
include hs hbooked

/-- A descriptor of an end of a pipe is closed. If it was the last one, then the clients at the other
end are told so. -/
theorem Awake.closeEnd {count : ℕ} {p p' : PipeState} (hp : s.pipes h = some p)
    (hsane : p.Sane → p'.Sane) {messages : List (Waiter × Reply)}
    (hw : p.waiters = p'.waiters + (messages.map fun x => x.1 : List Waiter)) {e : Bool}
    {revents : Events} (htold : ∀ events, revents.matched events ≠ .none)
    (hsame : ∀ events, p'.readiness e events = p.readiness e events)
    (hopen : count ≠ 0 → ∀ events, p.readiness (!e) events = .none → p'.readiness (!e) events = .none)
    (hlast : count = 0 → ∀ events, (revents.matched events).Subset (p'.readiness (!e) events)) :
  (State.releaseClosed (if count = 0 then
      ((s.setPipe h p').tearEnd h e messages).wakePollWaitersPipe h (!e) revents
    else s.setPipe h p') h p').Awake
  := by
  apply Awake.releaseClosed
  split_ifs with hcount
  · have hset := hbooked.since.tearEnd hp hsane hw e
    refine hs.wakePipe hp p' (s.tornEnds ++ [(h, e)]) ?_ ?_ hset hset.answered ?_ ?_ ?_
    · unfold tearEnd
      rw [toTables_sendAll]
      rfl
    · unfold tearEnd
      rw [pollBook_sendAll]
      rfl
    · intro events hnone
      rw [Bool.not_not] at hnone ⊢
      rw [hsame]
      exact hnone
    · intro events _ hmatched
      exact absurd hmatched (htold events)
    · exact .inl (hlast hcount)
  · apply hs.setPipe (t := s.setPipe h p') hp rfl rfl (List.Subset.refl _)
    intro end' events hnone
    obtain rfl | rfl := Bool.eq_or_eq_not end' e
    · rw [hsame]
      exact hnone
    · exact hopen hcount events hnone

theorem Awake.closePipe (h : ℕ) (isReadEnd : Bool) :
  (s.closePipe h isReadEnd).Awake
  := by
  unfold State.closePipe
  rcases hp : s.pipes h with _ | p
  · exact hs
  dsimp only
  split
  · obtain ⟨hbuf, hwrite⟩ := p.closeRead_spec
    refine hs.closeEnd (e := true) hbooked hp (fun hsane => hsane.closeRead)
      p.waiters_closeRead ?_ ?_ ?_ ?_
    · exact fun events hnone => nomatch congrArg Events.pollerr hnone
    · intro events
      unfold readiness
      rw [hbuf, hwrite]
      rfl
    · intro hcount events hnone
      obtain ⟨hout, -⟩ := readiness_write_eq_none.mp hnone
      exact readiness_write_eq_none.mpr ⟨hbuf.symm ▸ hout, hcount⟩
    · intro hcount events
      refine ⟨nofun, nofun, ?_, nofun, nofun⟩
      intro _
      simp [readiness, hcount]
  · obtain ⟨hbuf, hread⟩ := p.closeWrite_spec
    refine hs.closeEnd (e := false) hbooked hp (fun hsane => hsane.closeWrite)
      p.waiters_closeWrite ?_ ?_ ?_ ?_
    · exact fun events hnone => nomatch congrArg Events.pollhup hnone
    · intro events
      unfold readiness
      rw [hbuf, hread]
      rfl
    · intro hcount events hnone
      obtain ⟨hin, -⟩ := readiness_read_eq_none.mp hnone
      exact readiness_read_eq_none.mpr ⟨hbuf.symm ▸ hin, hcount⟩
    · intro hcount events
      refine ⟨nofun, nofun, nofun, ?_, nofun⟩
      intro _
      simp [readiness, hcount]

/-- What a slot refers to loses a reference. -/
theorem Awake.closeObject (o : ObjectSlot) :
  (s.closeObject o).Awake
  := by
  have hanswered := (hbooked.forget.closeObject o fun hfalse => hfalse.elim).answered
  unfold State.closeObject at hanswered ⊢
  cases ho : o.backing with
  | unixSocket h =>
    rw [ho] at hanswered
    apply hs.edits _ (s.pollBook_closeSocket h) hanswered
    rw [toTables_closeSocket]
    exact Tables.edits_closeSocket s.toTables h
  | pipe h => exact hs.closePipe hbooked h o.canRead
  | epoll h =>
    rw [ho] at hanswered
    exact hs.edits (Relation.ReflTransGen.single (Tables.Edit.setEpolls _ _)) rfl hanswered
  | _ => exact hs

end

/-- Whoever sleeps after a slot was closed slept before. -/
theorem pollWaiters_closeObject (s : State) (o : ObjectSlot) :
  ∀ w ∈ (s.closeObject o).pollWaiters, w ∈ s.pollWaiters
  := by
  have hwake : ∀ (t : State) (h : ℕ) (e : Bool) (revents : Events),
      ∀ w ∈ (t.wakePollWaitersPipe h e revents).pollWaiters, w ∈ t.pollWaiters := by
    intro t h e revents w hw
    exact ((t.wakeFold_spec revents (t.pipeFds h e)).1 w hw).1
  have htear : ∀ (t : State) (h : ℕ) (e : Bool) (messages : List (Waiter × Reply)),
      (t.tearEnd h e messages).pollWaiters = t.pollWaiters := by
    intro t h e messages
    exact (pollBook_eq_iff.mp (pollBook_sendAll { t with tornEnds := _ } messages)).1
  have hrelease : ∀ (t : State) (h : ℕ) (p : PipeState),
      (t.releaseClosed h p).pollWaiters = t.pollWaiters := by
    intro t h p
    unfold State.releaseClosed
    split_ifs <;> rfl
  intro w hw
  unfold State.closeObject at hw
  split at hw
  next h _ =>
    rw [(pollBook_eq_iff.mp (s.pollBook_closeSocket h)).1] at hw
    exact hw
  next h _ =>
    unfold State.closePipe at hw
    split at hw
    · exact hw
    split at hw
    · rw [hrelease] at hw
      split at hw
      · have hbefore := hwake _ _ _ _ w hw
        rw [htear] at hbefore
        exact hbefore
      · exact hw
    · rw [hrelease] at hw
      split at hw
      · have hbefore := hwake _ _ _ _ w hw
        rw [htear] at hbefore
        exact hbefore
      · exact hw
  · exact hw
  · exact hw

section

variable (hs : s.Awake)
include hs

/-- A slot that is not watched is replaced. -/
theorem Awake.setObject (hfd : ¬Watched s.pollWaiters b fd) {o : ObjectSlot}
    (ho : ∀ h, o.pipeHandle = some h → h < s.nextPipe) :
  (s.setObject b fd o).Awake
  := by
  refine hs.of_pollBook (t := s.setObject b fd o) hs.fresh ?_ ?_ rfl (List.Subset.refl _)
  · intro c g h hh
    have hset := s.toTables.objects_setObject b fd o (c, g)
    change ((s.toTables.setObject b fd o).objects c g).pipeHandle = some h at hh
    rw [hset] at hh
    split_ifs at hh
    · exact ho h hh
    · exact hs.known c g h hh
  · exact hs.quiet.setObject hfd o

theorem Awake.preClose (hbooked : Booked d 0 s) (fd : ℕ) :
  (s.preClose b fd).Awake
  := by
  unfold State.preClose
  cases s.resolveFd b fd with
  | none => exact hs
  | some o => exact hs.closeObject hbooked o

theorem Awake.cleanup (hbooked : Booked d 0 s) (fds : List ℕ) :
  (fds.foldl (fun t fd => t.preClose b fd) s).Awake
  := by
  induction fds generalizing s d with
  | nil => exact hs
  | cons fd fds ih =>
    apply ih (hs.preClose hbooked fd)
    exact hbooked.forget.preClose nofun nofun fd

/-- A client is forgotten. -/
theorem Awake.removeClient (b : ℕ) :
  (s.removeClient b).Awake
  := by
  refine hs.of_pollBook (t := s.removeClient b) hs.fresh (hs.known.setRow ?_) (hs.quiet.removeClient b)
    rfl (List.Subset.refl _)
  intro fd h hh
  cases hh

theorem Awake.clearPtyPending (hbooked : Booked d 0 s) (b : ℕ) :
  (s.clearPtyPending b).Awake
  := by
  exact hs.same (s.toTables_clearPtyPending b) (pollBook_sendAll ..)
    (hbooked.since.clearPtyPending b).answered

/-- `dispatch_client_exit`. -/
theorem Awake.clientExit (hbooked : Booked d 0 s) (b : ℕ) :
  (s.clientExit b).Awake
  := by
  unfold State.clientExit
  split_ifs
  · apply Awake.removeClient
    exact (hs.clearPtyPending hbooked b).cleanup (hbooked.clearPtyPending b) _
  · exact hs

end

/-! ## Clients and sockets -/

/-- A client is looked up. Nobody with the badge of a new client sleeps. -/
theorem Awake.resolveClient (hs : s.Awake) (ht : s.resolveClient b mem = some t)
    (hb : b ∉ s.clients → ∀ fd, ¬Watched s.pollWaiters b fd) :
  t.Awake
  := by
  obtain ⟨-, rfl⟩ | ⟨hnew, rfl⟩ := resolveClient_cases ht
  · exact hs
  refine hs.of_pollBook (t := { s with toTables := s.toTables.addClient b }) hs.fresh
    (hs.known.setRow ?_) (hs.quiet.addClient (hb hnew)) rfl (List.Subset.refl _)
  intro fd h hh
  cases hh

/-- A socket changes. -/
theorem Awake.setSocket (hs : s.Awake) {k : SocketState} (hk : s.sockets h = some k)
    (k' : SocketState) :
  (s.setSocket h k').Awake
  := by
  refine hs.of_pollBook (t := s.setSocket h k') (hs.fresh.setSocket hk k') hs.known ?_ rfl
    (List.Subset.refl _)
  intro w hw hb o ho
  apply (hs.quiet w hw hb o ho).of_object
  · rfl
  · exact fun h _ => .inl rfl

/-- Messages to waiting clients. -/
theorem Awake.sendAll (hs : s.Awake) (messages : List (Waiter × Reply)) :
  (s.sendAll messages).Awake
  := by
  apply hs.same (s.toTables_sendAll messages) (s.pollBook_sendAll messages)
  rw [sendAll_eq]
  apply Kernel.answered_sendAll

theorem toKernel_installCaps (s : State) (b : ℕ) (caps : List ℕ) :
  (s.installCaps b caps).1.toKernel = s.toKernel
  := by
  induction caps generalizing s with
  | nil => rfl
  | cons packed caps ih =>
    unfold installCaps
    split
    · exact ih s
    split
    · exact ih s
    · exact ih _

/-! ## Going to sleep -/

/-- A descriptor without events that is not a socket is still. -/
theorem still_of_watched {o : Watch} (hnone : s.watched ready w o = .none)
    (hsocket : s.unixSocketHandle w.waiter.badge o.fd = none) :
  s.Still w.waiter.badge o
  := by
  cases hfd : s.resolveFd w.waiter.badge o.fd with
  | none =>
    unfold watched checkFdReadiness at hnone
    rw [hfd] at hnone
    cases congrArg Events.pollnval hnone
  | some slot =>
    obtain ⟨hlt, hlive, rfl⟩ := Tables.resolveFd_eq_some_iff.mp hfd
    refine ⟨hlt, hlive, ?_, ?_⟩
    · unfold Tables.unixSocketHandle at hsocket
      rw [hfd] at hsocket
      exact hsocket
    · intro h p hpipe hp
      rw [← watched_pipe hlt hpipe hp]
      exact hnone

theorem PollsAnswered.addPoller (h : s.PollsAnswered) (w : PollWaiter) :
  (s.addPoller w).PollsAnswered
  := by
  intro v hv
  change _ ∨ v ∈ (s.pollWaiters ++ [w]).map fun u => u.waiter
  rw [map_append]
  obtain hv | hv := mem_append.mp hv
  · exact (h v hv).imp id fun hmem => mem_append_left _ hmem
  right
  apply mem_append_right
  rw [mem_singleton.mp hv]
  exact mem_singleton_self _

/-- `try_deliver_ready_waiter`: a client goes to sleep if nothing that it watches is ready. -/
theorem Awake.sleep (hs : s.Awake) (hbooked : Booked d (w.waiter ::ₘ 0) s) (ready : Readiness)
    (mem : Bool) (hsocket : ∀ o ∈ w.objects, s.unixSocketHandle w.waiter.badge o.fd = none) :
  (s.sleep ready mem w).state.Awake
  := by
  unfold State.sleep
  split_ifs with hmem hhit
  · exact hs.sendAll [(w.waiter, _)]
  · obtain ⟨hsleep, -, hreports⟩ := pollBook_eq_iff.mp
      ((s.addPoller w).pollBook_wakeAll ready (fun v => v == w) (s.watched ready))
    refine ⟨?_, ?_, ?_, ?_, ?_⟩
    · change Tables.Fresh (wakeAll ..).toTables
      rw [toTables_wakeAll]
      exact hs.fresh
    · change Tables.PipesKnown (wakeAll ..).toTables
      rw [toTables_wakeAll]
      exact hs.known
    · change Tables.Quiet (wakeAll ..).toTables (wakeAll ..).pollWaiters
      rw [toTables_wakeAll, hsleep]
      apply hs.quiet.subset
      intro v hv
      obtain ⟨hv, hne⟩ := mem_filter.mp hv
      obtain hv | hv := mem_append.mp hv
      · exact hv
      · simp [mem_singleton.mp hv] at hne
    · intro y hy
      change y ∈ (wakeAll ..).reports at hy
      rw [hreports] at hy
      obtain hy | hy := mem_append.mp hy
      · exact hs.told y hy
      obtain ⟨v, -, hy⟩ := mem_flatMap.mp hy
      obtain ⟨o, -, rfl⟩ := mem_map.mp hy
      exact ⟨id, id, id, id, id⟩
    · exact (hs.polls.addPoller w).wakeAll hbooked.addPoller _ _ _
  · refine ⟨hs.fresh, hs.known, ?_, hs.told, hs.polls.addPoller w⟩
    intro v hv hb o ho
    obtain hv | hv := mem_append.mp hv
    · exact hs.quiet v hv hb o ho
    obtain rfl := mem_singleton.mp hv
    have hnone : s.watched ready v o = .none := by
      by_contra hne
      apply hhit
      apply any_eq_true.mpr
      exact ⟨o, ho, by simpa using hne⟩
    exact still_of_watched hnone (hsocket o ho)

/-! ## Requests -/

/-- The requests after which no wake-up is missing. A client that has to wait in `poll` or
`epoll_wait` watches no unix socket. If a blocked writer is answered by a read, or a blocked reader by
a write, then some room or some bytes are left, or nobody watches the pipe for that. A descriptor that
is watched is not closed or replaced. -/
def WakeCareful (s : State) (b : ℕ) (ext : External) : Request → Prop
  | .poll fds timeout =>
    timeout ≠ 0 → (∀ x ∈ fds.take 8, s.checkFdReadiness ext.ready b x.1 x.2 = .none) →
      ∀ x ∈ fds.take 8, s.unixSocketHandle b x.1 = none
  | .epollWait epfd maxEvents timeout =>
    ∀ x, s.epollOf b epfd = some x → timeout ≠ 0 → (0 < maxEvents →
        ∀ e ∈ x.2.reduceOption, s.checkFdReadiness ext.ready b e.fd e.events = .none) →
      ∀ e ∈ x.2.reduceOption.take 8, s.unixSocketHandle b e.fd = none
  | .read fd requested =>
    ∀ o h p, s.resolveFd b fd = some o → o.backing = .pipe h → s.pipes h = some p →
      p.WriterLeavesRoom requested ∨ s.Unwatched h false { Events.none with pollout := true }
  | .write fd data =>
    ∀ o h p, s.resolveFd b fd = some o → o.backing = .pipe h → s.pipes h = some p →
      p.ReaderLeavesBytes (data.take 144) ∨ s.Unwatched h true { Events.none with pollin := true }
  | .close fd => ¬Watched s.pollWaiters b fd
  | .dup2 old new => old ≠ new → ¬Watched s.pollWaiters b new
  | .dup3 old new _ => old ≠ new → ¬Watched s.pollWaiters b new
  | .cloneFds _ child => ∀ fd, ¬Watched s.pollWaiters child fd
  | _ => True

/-- No act loses a wake-up. -/
theorem Awake.act (hs : s.Awake) (hbooked : Booked d 0 s)
    (hc : s.caller = some { badge := b, request := n }) {r : Request} {o : Outcome}
    (hcareful : s.WakeCareful b ext r) (h : s.Act b ext r o) :
  o.state.Awake
  := by
  have hanswered := (h.handles hbooked.forget nofun).answered
  cases h with
  | small h => exact hs.edits (h.edits hs.fresh) h.pollBook hanswered
  | removeFifo => exact hs.releasePipe _
  | @replace r old new cloexec o hcopy ho hnew hne =>
    have hfd : ¬Watched s.pollWaiters b new := by
      obtain rfl | rfl := hcopy
      · exact hcareful hne
      · exact hcareful hne
    apply Awake.setObject hs hfd
    intro h hh
    obtain ⟨-, rfl⟩ := Tables.resolveFd_spec ho
    exact hs.known b old h hh
  | @cloneFds parent child t ht =>
    have hawake := hs.resolveClient ht fun _ => hcareful
    refine hawake.of_pollBook (t := { t with toTables := t.toTables.cloneObjects parent child })
      hawake.fresh (hawake.known.setRow (hawake.known parent)) ?_ rfl (List.Subset.refl _)
    apply hawake.quiet.setRow
    rw [(pollBook_eq_iff.mp (pollBook_resolveClient ht)).1]
    exact hcareful
  | read ho hh hp hlen => exact hs.readNow hbooked hp hlen (hcareful _ _ _ ho hh hp)
  | @readWait fd requested h o p ho hh hp hempty hopen hblock =>
    apply hs.parkPipe hp
    intro w isReadEnd events
    unfold PipeState.read
    split_ifs <;> rfl
  | write ho hh hp hlen => exact hs.writeNow hbooked hp hlen (hcareful _ _ _ ho hh hp)
  | @writeWait fd h data o p ho hh hp hopen hfull hblock =>
    apply hs.parkPipe hp
    intro w isReadEnd events
    unfold PipeState.write
    split_ifs <;> rfl
  | sendmsg hq =>
    apply Awake.sendAll
    exact hs.setSocket hq _
  | @recvmsg fd maxData h k hh hk =>
    apply (hs.setSocket hk (k.takeMessage maxData)).edits (edits_installCaps _ b _)
      (pollBook_installCaps _ b _)
    rw [toKernel_installCaps]
    exact List.Subset.refl _
  | @close fd o ho =>
    apply Awake.setObject (hs.preClose hbooked fd)
    · rintro ⟨w, hw, hbadge, hwatch⟩
      unfold State.preClose at hw
      rw [ho] at hw
      exact hcareful ⟨w, s.pollWaiters_closeObject o w hw, hbadge, hwatch⟩
    · exact nofun
  | poll hwait =>
    apply hs.park
    intro c hc' hslot
    cases hc.symm.trans hc'
    apply (hs.saveCaller _).sleep (hbooked.saveCaller hc hslot)
    intro o ho
    obtain ⟨x, hx, rfl⟩ := mem_map.mp ho
    apply hcareful _ _ x hx
    · exact fun hzero => hwait (.inl hzero)
    intro y hy
    by_contra hne
    exact hwait (.inr ⟨y, hy, hne⟩)
  | @epollWait epfd maxEvents timeout x hx hwait =>
    apply hs.park
    intro c hc' hslot
    cases hc.symm.trans hc'
    apply (hs.saveCaller _).sleep (hbooked.saveCaller hc hslot)
    apply hcareful x hx
    · exact fun hzero => hwait (.inl hzero)
    intro hpos e he
    by_contra hne
    exact hwait (.inr ⟨hpos, e, he, hne⟩)

/-! ## Events -/

theorem Awake.receive (hs : s.Awake) (b : ℕ) :
  (s.receive b).Awake
  := hs.same (t := s.receive b) rfl rfl (List.Subset.refl _)

theorem Awake.finish {o : Outcome} (ho : o.state.Awake) :
  o.finish.Awake
  := ho.same (toTables_finish o) (pollBook_finish o) (answered_finish o)

/-- Some sleeping clients get a reply. -/
theorem Awake.dismiss (hs : s.Awake) (hbooked : Booked d 0 s) (chosen : PollWaiter → Bool)
    (reply : PollWaiter → Reply) :
  (s.dismiss chosen reply).Awake
  := by
  obtain ⟨hsleep, -, hreports⟩ := pollBook_eq_iff.mp (s.pollWaiters_dismiss chosen reply)
  refine ⟨?_, ?_, ?_, ?_, hs.polls.dismiss hbooked chosen reply⟩
  · rw [toTables_dismiss]
    exact hs.fresh
  · rw [toTables_dismiss]
    exact hs.known
  · rw [toTables_dismiss, hsleep]
    exact hs.quiet.subset fun w hw => (mem_filter.mp hw).1
  · intro y hy
    rw [hreports] at hy
    exact hs.told y hy

/-- What the terminal server says about a terminal that is readable: the clients that watch it for
bytes find some. -/
def PtyReady (s : State) (ready : Readiness) (ptyId : ℕ) : Prop :=
  ∀ w ∈ s.pollWaiters, w.waiter.badge ∈ s.clients → ∀ o ∈ w.objects,
    (s.objects w.waiter.badge o.fd).backing = .device .ptySlave ptyId → o.events.pollin = true →
      (ready (.device .ptySlave ptyId) o.events).pollin = true

/-- The events that the clients of a terminal are told are true. -/
theorem ptyTold_subset {ptyId : ℕ} (hready : s.PtyReady ready ptyId) (hw : w ∈ s.pollWaiters)
    {o : Watch} (ho : o ∈ w.objects) :
  (s.ptyTold ptyId w o).Subset (s.watched ready w o)
  := by
  unfold ptyTold
  split_ifs with hpty
  · obtain ⟨hb, hlt, hbacking⟩ := hpty
    have hlive : (s.objects w.waiter.badge o.fd).isLive = true := by
      simp [ObjectSlot.isLive, hbacking]
    have hresolve : s.resolveFd w.waiter.badge o.fd = some (s.objects w.waiter.badge o.fd) :=
      if_pos ⟨hlt, hlive⟩
    apply matched_pollin_subset
    intro hin
    unfold watched checkFdReadiness
    simp only [hresolve, hbacking]
    exact hready w hw hb o ho hbacking hin
  · apply Subset_none

theorem Awake.ptyNotification (hs : s.Awake) (hbooked : Booked d 0 s) {ptyId : ℕ}
    (hready : s.PtyReady ready ptyId) (collected : List (List Byte)) :
  (s.ptyNotification ready ptyId collected).Awake
  := by
  have hbooked' := hbooked.since.collect ptyId collected
  have htables := s.toTables_collect ptyId collected
  have hbook := s.pollBook_collect ptyId collected
  have hcollect : (s.collect ptyId collected).Awake := hs.same htables hbook hbooked'.answered
  have hready' : (s.collect ptyId collected).PtyReady ready ptyId := by
    unfold PtyReady
    rw [(pollBook_eq_iff.mp hbook).1, htables]
    exact hready
  revert hcollect hbooked' hready'
  unfold State.ptyNotification
  generalize s.collect ptyId collected = t
  intro hbooked' ht hready'
  have hreport : Booked _ 0 { t with
      reports := t.reports ++ t.report ready (fun w => w.isHit (t.ptyTold ptyId w))
        (t.ptyTold ptyId) } :=
    hbooked'.of_slots rfl rfl rfl rfl rfl rfl rfl
  apply Awake.dismiss _ hreport
  refine ⟨ht.fresh, ht.known, ht.quiet, ?_, ht.polls⟩
  intro y hy
  obtain hy | hy := mem_append.mp hy
  · exact ht.told y hy
  obtain ⟨w, hw, hy⟩ := mem_flatMap.mp hy
  obtain ⟨o, ho, rfl⟩ := mem_map.mp hy
  exact ptyTold_subset hready' (mem_filter.mp hw).1 ho

/-- The events after which no wake-up is missing. Nobody with the badge of a new client sleeps. -/
def WakeCarefulEvent (s : State) : Event → Prop
  | .request b mem ext r =>
    (b ∉ s.clients → ∀ fd, ¬Watched s.pollWaiters b fd) ∧
      ∀ t, (s.receive b).resolveClient b mem = some t → t.WakeCareful b ext r
  | .register _ target _ => target ∉ s.clients → ∀ fd, ¬Watched s.pollWaiters target fd
  | .ptyNotification ready ptyId _ => s.PtyReady ready ptyId
  | _ => True

theorem caller_resolveClient (ht : s.resolveClient b mem = some t) :
  t.caller = s.caller
  := by
  obtain ⟨-, rfl⟩ | ⟨-, rfl⟩ := resolveClient_cases ht
  · rfl
  · rfl

theorem Awake.exec (hs : s.Awake) (hbooked : Booked d 0 s) (hc : d.caller = none) {e : Event}
    (he : s.WakeCarefulEvent e) :
  (s.exec e).Awake
  := by
  cases e with
  | request b mem ext r =>
    obtain ⟨hnew, he⟩ := he
    unfold State.exec
    dsimp only
    rcases ht : (s.receive b).resolveClient b mem with _ | t
    · exact Awake.finish (o := (s.receive b).fail .outOfMemory) (hs.receive b)
    apply Awake.finish
    exact ((hs.receive b).resolveClient ht hnew).act ((hbooked.receive hc b).resolveClient ht)
      (caller_resolveClient ht) (he t ht) (t.act_handle b ext r)
  | register b target mem =>
    unfold State.exec
    dsimp only
    cases ht : (s.receive b).resolveClient target mem with
    | none => exact Awake.finish (o := (s.receive b).fail .outOfMemory) (hs.receive b)
    | some t => exact Awake.finish (o := t.ok []) ((hs.receive b).resolveClient ht he)
  | exit b => exact hs.clientExit hbooked b
  | exec b => exact hs.clearPtyPending hbooked b
  | pollTimer now => exact hs.dismiss hbooked _ _
  | ptyTimer now =>
    exact hs.same (s.toTables_expirePtyTimeouts now) (pollBook_sendAll ..)
      (hbooked.since.expirePtyTimeouts now).answered
  | ptyNotification ready ptyId collected => exact hs.ptyNotification hbooked he collected
  | netsrvCallback b connId opType answer =>
    have hhandles := (hbooked.since.receive hc b).netsrvCallback connId opType answer
    apply Awake.finish
    exact (hs.receive b).edits (edits_netsrvCallback _ connId opType answer)
      (pollBook_netsrvCallback _ connId opType answer)
      hhandles.answered

/-! ## Runs -/

/-- No client that is alive sleeps while a pipe or a socket that it watches has an event that it asked
for, a hang-up or an error. The events that clients were told were true at that moment. Every client
that ever slept is asleep and was not answered, or it was answered once. -/
def NoLostWakeup (s : State) : Prop :=
  (∀ w ∈ s.pollWaiters, w.waiter.badge ∈ s.clients → ∀ o ∈ w.objects, ∀ slot,
    s.resolveFd w.waiter.badge o.fd = some slot → slot.isChannel = true →
      ∀ ready, s.watched ready w o = .none) ∧
  (∀ x ∈ s.reports, x.1.Subset x.2) ∧
  ∀ w ∈ s.polls, (s.answered.count w.request = 0 ∧ w ∈ s.pollWaiters.map fun v => v.waiter) ∨
      (s.answered.count w.request = 1 ∧ w ∉ s.pollWaiters.map fun v => v.waiter)

theorem Awake.noLostWakeup (hs : s.Awake) (hbooked : Booked d 0 s) :
  s.NoLostWakeup
  := by
  refine ⟨?_, hs.told, ?_⟩
  · intro w hw hb o ho slot hslot hchannel ready
    obtain ⟨hlt, hlive, rfl⟩ := Tables.resolveFd_eq_some_iff.mp hslot
    have hstill := hs.quiet w hw hb o ho
    unfold ObjectSlot.isChannel at hchannel
    rw [hstill.notSocket, Option.isSome_none, Bool.or_false] at hchannel
    obtain ⟨h, hpipe⟩ := Option.isSome_iff_exists.mp hchannel
    rw [watched_eq hlt hpipe]
    cases hp : s.pipes h with
    | none => rfl
    | some p => exact hstill.quiet h p hpipe hp
  · intro w hw
    have hcount : w ∈ (s.pollWaiters.map fun v => v.waiter) → w.request ∉ s.answered := by
      intro hmem
      exact (hbooked.nodup.2.2 w (hbooked.mem_waiting (mem_records hmem))).2
    by_cases hmem : w ∈ s.pollWaiters.map fun v => v.waiter
    · exact .inl ⟨count_eq_zero.mpr (hcount hmem), hmem⟩
    right
    refine ⟨count_eq_one_of_mem hbooked.nodup.1 ?_, hmem⟩
    exact (hs.polls w hw).resolve_right hmem

theorem awake_initial :
  initial.Awake
  := by
  refine ⟨fun _ _ => rfl, ?_, ?_, ?_, ?_⟩
  · intro b fd h hh
    cases hh
  · intro w hw
    cases hw
  · intro x hx
    cases hx
  · intro w hw
    cases hw

/-- In every run of such events no wake-up is lost. -/
theorem noLostWakeup_of_careful_run (h : Relation.ReflTransGen (StepOf WakeCarefulEvent) initial s) :
  s.NoLostWakeup
  := by
  have hs : s.Awake ∧ ∃ d : Due, ¬ d.careful ∧ d.caller = none ∧ Booked d 0 s := by
    refine invariant_of_run
      (I := fun t : State => t.Awake ∧ ∃ d : Due, ¬ d.careful ∧ d.caller = none ∧ Booked d 0 t) ?_
      ⟨awake_initial, _, not_false, rfl, booked_initial.forget⟩ h
    rintro t u ⟨ht, d, hd, hc, hbooked⟩ ⟨e, he, rfl⟩
    obtain ⟨n, -, hbooked'⟩ := hbooked.exec hc (fun h => absurd h hd) fun h => absurd h hd
    exact ⟨ht.exec hbooked hc he, { d with requests := n }, hd, hc, hbooked'⟩
  obtain ⟨hs, d, -, -, hbooked⟩ := hs
  exact hs.noLostWakeup hbooked

/-- A request of a client that is registered. -/
theorem wakeCarefulEvent_of_mem {r : Request} (hb : b ∈ s.clients)
    (h : (s.receive b).WakeCareful b ext r) :
  s.WakeCarefulEvent (.request b mem ext r)
  := by
  use fun hnew => absurd hb hnew
  intro t ht
  have hsame : (s.receive b).resolveClient b mem = some (s.receive b) := if_pos hb
  cases hsame.symm.trans ht
  exact h

/-- A write to a pipe at which no reader waits. -/
theorem wakeCareful_write (hfd : (s.resolveFd b fd).map (·.backing) = some (.pipe h))
    (hp : ((s.pipes h).map fun p => p.recvWaiters) = some []) :
  s.WakeCareful b ext (.write fd data)
  := by
  intro o g p ho hg hpipe
  rw [ho, Option.map_some, hg] at hfd
  cases hfd
  rw [hpipe] at hp
  have hnobody : p.recvWaiters = [] := Option.some.inj hp
  left
  intro r hr
  rw [hnobody] at hr
  cases hr

/-- A client opens a pipe and sleeps until there are bytes, and another thread of it writes some. -/
def wakePoller : List Event :=
  [.request 7 true .quiet (.pipe false),
    .request 7 true .quiet (.poll [(0, { Events.none with pollin := true })] (-1)),
    .request 7 true .quiet (.write 1 [5])]

/-- The client that slept got its reply. -/
theorem noLostWakeup_of_wakePoller :
  (initial.execAll wakePoller).answered = [0, 1, 2] ∧ (initial.execAll wakePoller).reports =
      [({ Events.none with pollin := true }, { Events.none with pollin := true })] ∧
    (initial.execAll wakePoller).NoLostWakeup
  := by
  use by decide, by decide
  apply noLostWakeup_of_careful_run
  apply run_execAll
  refine ⟨⟨?_, fun _ _ => trivial⟩, ?_, ?_, trivial⟩
  · rintro - fd ⟨w, hw, -⟩
    cases hw
  · apply wakeCarefulEvent_of_mem (by decide)
    intro _ _ x hx
    obtain rfl := mem_singleton.mp hx
    decide
  · apply wakeCarefulEvent_of_mem (by decide)
    apply wakeCareful_write (h := 0)
    · decide
    · decide

/-- A client sleeps until there are bytes at a socket, and another thread of it writes some. Nobody
wakes the client. -/
theorem lostWakeup :
  ¬(initial.execAll [.request 7 true .quiet .sockpair,
    .request 7 true .quiet (.poll [(0, { Events.none with pollin := true })] (-1)),
    .request 7 true .quiet (.write 1 [5])]).NoLostWakeup
  := by
  rintro ⟨h, -⟩
  have hnone := h
    { kind := .poll
      waiter := { slot := 32, badge := 7, request := 1 }
      objects := [{ fd := 0, events := { Events.none with pollin := true }, data := 0 }]
      deadline := 0 } (by decide) (by decide) _ (mem_singleton_self _) _ rfl (by decide)
    (fun _ _ => .none)
  revert hnone
  decide

end State

end SaltyOS.Vfs
