import SaltyOS.Vfs.LedgerRuns
import SaltyOS.Vfs.PollBook

/-!
# Waking the sleeping clients

A client that sleeps watches some descriptors. It is asleep only as long as none of them is ready,
if the descriptors are pipes that are not closed under the client. The operations on sockets wake
nobody.
-/

namespace SaltyOS.Vfs

open Function List ObjectSlot

/-! ## What is watched -/

/-- The descriptor is a pipe or a socket. -/
def ObjectSlot.isChannel (o : ObjectSlot) : Bool :=
  o.pipeHandle.isSome || o.unixSocketHandle.isSome

/-- A client with a badge sleeps and watches a descriptor. -/
def Watched (sleeping : List PollWaiter) (b fd : ℕ) : Prop :=
  ∃ w ∈ sleeping, w.waiter.badge = b ∧ ∃ o ∈ w.objects, o.fd = fd

namespace Tables

variable {T U : Tables} {b : ℕ} {o : Watch}
variable {c : ℕ}

/-- Every handle of a pipe in a slot was given. -/
def PipesKnown (T : Tables) : Prop :=
  ∀ b fd h, (T.objects b fd).pipeHandle = some h → h < T.nextPipe

/-- A watched descriptor is live, it is not a socket, and if it is a pipe then it is not ready. -/
structure Still (T : Tables) (b : ℕ) (o : Watch) : Prop where
  lt : o.fd < maxClientObjects
  live : (T.objects b o.fd).isLive = true
  notSocket : (T.objects b o.fd).unixSocketHandle = none
  quiet : ∀ h p, (T.objects b o.fd).pipeHandle = some h → T.pipes h = some p →
    p.readiness (T.objects b o.fd).canRead o.events = .none

/-- The descriptors of all sleeping clients that are alive are still. -/
def Quiet (T : Tables) (sleeping : List PollWaiter) : Prop :=
  ∀ w ∈ sleeping, w.waiter.badge ∈ T.clients → ∀ o ∈ w.objects, T.Still w.waiter.badge o

theorem pipeHandle_of_object {x y : ObjectSlot} (h : x.object = y.object) :
  x.pipeHandle = y.pipeHandle ∧ x.unixSocketHandle = y.unixSocketHandle ∧
    x.canRead = y.canRead ∧ x.isLive = y.isLive
  := by
  have hbacking : x.backing = y.backing := congrArg (fun z => z.1) h
  have hread : x.canRead = y.canRead := congrArg (fun z => z.2.1) h
  unfold ObjectSlot.pipeHandle ObjectSlot.unixSocketHandle ObjectSlot.isLive
  rw [hbacking]
  exact ⟨rfl, rfl, hread, rfl⟩

/-- A descriptor that refers to the same is still, if its pipe is what it was or is gone. -/
theorem Still.of_object (hT : T.Still b o)
    (hobject : (U.objects b o.fd).object = (T.objects b o.fd).object)
    (hpipes : ∀ h, (T.objects b o.fd).pipeHandle = some h → U.pipes h = T.pipes h ∨ U.pipes h = none) :
  U.Still b o
  := by
  obtain ⟨hpipe, hsocket, hread, hlive⟩ := pipeHandle_of_object hobject
  use hT.lt, hlive.trans hT.live, hsocket.trans hT.notSocket
  intro h p hh hp
  rw [hpipe] at hh
  rw [hread]
  obtain hsame | hgone := hpipes h hh
  · exact hT.quiet h p hh (hsame ▸ hp)
  · rw [hgone] at hp
    cases hp

/-- A slot that is free is not watched. -/
theorem Still.setObject_free (hT : T.Still b o) {fd : ℕ} (hfree : (T.objects c fd).isFree = true)
    (x : ObjectSlot) :
  (T.setObject c fd x).Still b o
  := by
  apply hT.of_object
  · have hset := T.objects_setObject c fd x (b, o.fd)
    rw [hset, if_neg]
    intro heq
    obtain ⟨rfl, rfl⟩ := Prod.mk.inj heq
    have hlive := hT.live
    have hnone : (T.objects b o.fd).backing = .none := by
      simpa [isFree] using hfree
    simp [ObjectSlot.isLive, hnone] at hlive
  · exact fun h _ => .inl rfl

theorem PipesKnown.setRow (hT : T.PipesKnown) {row : ℕ → ObjectSlot}
    (hrow : ∀ fd h, (row fd).pipeHandle = some h → h < T.nextPipe) :
  PipesKnown { T with objects := update T.objects b row }
  := by
  intro c fd h hh
  change (update T.objects b row c fd).pipeHandle = some h at hh
  rw [update_apply] at hh
  split_ifs at hh
  · exact hrow fd h hh
  · exact hT c fd h hh

theorem PipesKnown.edit (hT : T.PipesKnown) (h : T.Edit U) :
  U.PipesKnown
  := by
  cases h with
  | fill c fd x hfree hx =>
    intro b g h hh
    have hset := T.objects_setObject c fd x (b, g)
    rw [hset] at hh
    split_ifs at hh
    · obtain hlt | ⟨b', g', hslot⟩ := hx h hh
      · exact hlt
      · exact hT b' g' h hslot
    · exact hT b g h hh
  | flags c fd x hx =>
    intro b g h hh
    have hset := T.objects_setObject c fd x (b, g)
    rw [hset] at hh
    split_ifs at hh
    · exact hT c fd h ((pipeHandle_of_object hx).1 ▸ hh)
    · exact hT b g h hh
  | addPipe =>
    intro b g h hh
    exact Nat.lt_succ_of_lt (hT b g h hh)
  | _ => exact hT

theorem Still.edit (hknown : T.PipesKnown) (hT : T.Still b o) (h : T.Edit U) :
  U.Still b o
  := by
  cases h with
  | fill c fd x hfree hx => exact hT.setObject_free hfree x
  | flags c fd x hx =>
    apply hT.of_object
    · have hset := T.objects_setObject c fd x (b, o.fd)
      rw [hset]
      split_ifs with heq
      · obtain ⟨rfl, rfl⟩ := Prod.mk.inj heq
        exact hx
      · rfl
    · exact fun h _ => .inl rfl
  | addPipe =>
    apply hT.of_object
    · rfl
    intro h hh
    left
    rw [pipes_addPipe, if_neg (Nat.ne_of_lt (hknown b o.fd h hh))]
  | _ =>
    apply hT.of_object
    · rfl
    · exact fun h _ => .inl rfl

theorem clients_edit (h : T.Edit U) :
  U.clients = T.clients
  := by
  cases h with
  | _ => rfl

variable {sleeping : List PollWaiter}

/-- Small changes keep the sleeping clients asleep. -/
theorem Quiet.edits (hknown : T.PipesKnown) (hT : T.Quiet sleeping) (h : T.Edits U) :
  U.PipesKnown ∧ U.Quiet sleeping
  := by
  refine invariant_of_run (I := fun V : Tables => V.PipesKnown ∧ V.Quiet sleeping) ?_ ⟨hknown, hT⟩ h
  rintro V W ⟨hV, hquiet⟩ hstep
  use hV.edit hstep
  intro w hw hb o ho
  rw [clients_edit hstep] at hb
  exact (hquiet w hw hb o ho).edit hV hstep

section

variable (hT : T.Quiet sleeping)
include hT

/-- A slot that is not watched is replaced. -/
theorem Quiet.setObject {fd : ℕ} (hfd : ¬Watched sleeping c fd) (x : ObjectSlot) :
  (T.setObject c fd x).Quiet sleeping
  := by
  intro w hw hb o ho
  apply (hT w hw hb o ho).of_object
  · have hset := T.objects_setObject c fd x (w.waiter.badge, o.fd)
    rw [hset, if_neg]
    intro heq
    obtain ⟨hbadge, hfd'⟩ := Prod.mk.inj heq
    exact hfd ⟨w, hw, hbadge, o, ho, hfd'⟩
  · exact fun h _ => .inl rfl

/-- The table of a client is replaced, and none of its descriptors is watched. -/
theorem Quiet.setRow (hc : ∀ fd, ¬Watched sleeping c fd) (row : ℕ → ObjectSlot) :
  Quiet { T with objects := update T.objects c row } sleeping
  := by
  intro w hw hb o ho
  have hne : w.waiter.badge ≠ c := fun hbadge => hc o.fd ⟨w, hw, hbadge, o, ho, rfl⟩
  apply (hT w hw hb o ho).of_object
  · dsimp only
    rw [update_of_ne hne]
  · exact fun h _ => .inl rfl

/-- A client is added, and nobody with its badge sleeps. -/
theorem Quiet.addClient (hc : ∀ fd, ¬Watched sleeping c fd) :
  (T.addClient c).Quiet sleeping
  := by
  intro w hw hb o ho
  have hne : w.waiter.badge ≠ c := fun hbadge => hc o.fd ⟨w, hw, hbadge, o, ho, rfl⟩
  obtain hb | hb := mem_append.mp hb
  · apply (hT w hw hb o ho).of_object
    · change (update T.objects c _ w.waiter.badge o.fd).object = _
      rw [update_of_ne hne]
    · exact fun h _ => .inl rfl
  · exact absurd (mem_singleton.mp hb) hne

/-- A client is forgotten. -/
theorem Quiet.removeClient (c : ℕ) :
  (T.removeClient c).Quiet sleeping
  := by
  intro w hw hb o ho
  obtain ⟨hb, hne⟩ := mem_filter.mp hb
  have hne : w.waiter.badge ≠ c := by simpa using hne
  apply (hT w hw hb o ho).of_object
  · change (update T.objects c _ w.waiter.badge o.fd).object = _
    rw [update_of_ne hne]
  · exact fun h _ => .inl rfl

/-- A pipe is removed. -/
theorem Quiet.releasePipe (h : ℕ) :
  (T.releasePipe h).Quiet sleeping
  := by
  intro w hw hb o ho
  apply (hT w hw hb o ho).of_object
  · rfl
  intro g _
  rw [pipes_releasePipe]
  split_ifs
  · exact .inr rfl
  · exact .inl rfl

/-- A pipe changes, and its ends that are watched are not ready after it. -/
theorem Quiet.setPipe {h : ℕ} {p : PipeState}
    (hp : ∀ w ∈ sleeping, w.waiter.badge ∈ T.clients → ∀ o ∈ w.objects,
      (T.objects w.waiter.badge o.fd).pipeHandle = some h →
      p.readiness (T.objects w.waiter.badge o.fd).canRead o.events = .none) :
  (T.setPipe h p).Quiet sleeping
  := by
  intro w hw hb o ho
  have hstill := hT w hw hb o ho
  use hstill.lt, hstill.live, hstill.notSocket
  intro g q hg hq
  rw [pipes_setPipe] at hq
  split_ifs at hq with hgh
  · cases hq
    exact hp w hw hb o ho (hgh ▸ hg)
  · exact hstill.quiet g q hg hq

/-- The ends of pipes that programs saw torn down are not looked at. -/
theorem Quiet.tornEnds (ends : List (ℕ × Bool)) :
  Quiet { T with tornEnds := ends } sleeping
  := by
  intro w hw hb o ho
  apply (hT w hw hb o ho).of_object
  · rfl
  · exact fun h _ => .inl rfl

/-- Fewer clients sleep. -/
theorem Quiet.subset {sleeping' : List PollWaiter} (h : ∀ w ∈ sleeping', w ∈ sleeping) :
  T.Quiet sleeping'
  := fun w hw => hT w (h w hw)

end

end Tables

/-! ## Replies to sleeping clients -/

namespace Kernel

theorem answered_sendAll (K : Kernel) (m : List (Waiter × Reply)) :
  K.answered ⊆ (K.sendAll m).answered
  := by
  induction m generalizing K with
  | nil => exact List.Subset.refl _
  | cons x m ih =>
    apply List.Subset.trans _ (ih (K.send x.1 x.2))
    unfold send
    split
    · exact List.Subset.refl _
    unfold answered
    rw [map_append]
    exact subset_append_left _ _

end Kernel

namespace State

variable {d : Due} {e : Multiset Waiter} {s t : State} {b : ℕ}
variable {w : PollWaiter} {h : ℕ} {isReadEnd : Bool} {revents : Events} {ready : Readiness}
  {p : PipeState}

/-- Whoever gets a message is answered. -/
theorem Booked.answered_sendAll {m : List (Waiter × Reply)}
    (hs : Booked d ((m.map fun x => x.1 : List Waiter) + e) s) :
  ∀ x ∈ m, x.1.request ∈ (s.sendAll m).answered
  := by
  induction m generalizing s with
  | nil => nofun
  | cons y m ih =>
    rw [map_cons, ← Multiset.cons_coe, Multiset.cons_add] at hs
    have hsend := hs.send y.2
    intro x hx
    obtain rfl | hx := mem_cons.mp hx
    · apply hsend.since.sendAll.answered
      have hw : x.1 ∈ s.waiting :=
        hs.mem_waiting (Multiset.mem_add.mpr (.inr (Multiset.mem_cons_self x.1 _)))
      have heq : s.send x.1 x.2 = { s with toKernel := s.toKernel.send x.1 x.2 } := sendAll_eq s [x]
      rw [heq]
      rw [(Kernel.send_of_mem hw x.2).2.1]
      exact mem_append_right _ (mem_singleton_self _)
    · exact ih hsend x hx

theorem answered_finish (o : Outcome) :
  o.state.answered ⊆ o.finish.answered
  := by
  unfold Outcome.finish replyTo
  split
  · exact List.Subset.refl _
  split
  · exact List.Subset.refl _
  unfold Kernel.answered
  rw [map_append]
  exact subset_append_left _ _

theorem Handles.answered {o : Outcome} (h : Handles d o) :
  d.answered ⊆ o.state.answered
  := by
  obtain ⟨reply, -, hs⟩ | hs := h
  · exact hs.answered
  · exact hs.answered

/-- Every client that ever slept was answered or is asleep. -/
def PollsAnswered (s : State) : Prop :=
  ∀ w ∈ s.polls, w.request ∈ s.answered ∨ w ∈ s.pollWaiters.map fun v => v.waiter

/-- What clients were told was true. -/
def ReportsTrue (s : State) : Prop := ∀ x ∈ s.reports, x.1.Subset x.2

theorem pollWaiters_dismiss (s : State) (chosen : PollWaiter → Bool) (reply : PollWaiter → Reply) :
  (s.dismiss chosen reply).pollBook = (s.pollWaiters.filter fun w => !chosen w, s.polls, s.reports)
  := by
  unfold dismiss
  rw [pollBook_sendAll]
  rfl

/-- A client that sleeps has a record. -/
theorem mem_records {w : Waiter} (hw : w ∈ s.pollWaiters.map fun v => v.waiter) :
  w ∈ s.records + 0
  := by
  unfold records sleepers
  simp only [Multiset.mem_add, Multiset.mem_coe]
  exact .inl (.inr (.inl (.inl hw)))

theorem PollsAnswered.dismiss (h : s.PollsAnswered) (hs : Booked d 0 s) (chosen : PollWaiter → Bool)
    (reply : PollWaiter → Reply) :
  (s.dismiss chosen reply).PollsAnswered
  := by
  obtain ⟨hsleep, hpolls, -⟩ := pollBook_eq_iff.mp (s.pollWaiters_dismiss chosen reply)
  intro w hw
  rw [hpolls] at hw
  rw [hsleep]
  obtain hdone | hmem := h w hw
  · exact .inl ((hs.since.dismiss chosen reply).answered hdone)
  obtain ⟨v, hv, rfl⟩ := mem_map.mp hmem
  by_cases hchosen : chosen v = true
  · left
    refine Booked.answered_sendAll (d := d) (e := 0) ?_ (v.waiter, reply v)
      (mem_map_of_mem (mem_filter.mpr ⟨hv, hchosen⟩))
    rw [map_map]
    exact hs.filter chosen rfl rfl rfl (add_assoc ..) (add_assoc ..)
  · right
    apply mem_map_of_mem
    exact mem_filter.mpr ⟨hv, by simpa using hchosen⟩

theorem PollsAnswered.of_pollBook (h : s.PollsAnswered) (hbook : t.pollBook = s.pollBook)
    (hanswered : s.answered ⊆ t.answered) :
  t.PollsAnswered
  := by
  obtain ⟨hsleep, hpolls, -⟩ := pollBook_eq_iff.mp hbook
  intro w hw
  rw [hpolls] at hw
  rw [hsleep]
  exact (h w hw).imp (fun hdone => hanswered hdone) id

theorem PollsAnswered.wakeAll (h : s.PollsAnswered) (hs : Booked d 0 s) (ready : Readiness)
    (chosen : PollWaiter → Bool) (told : PollWaiter → Watch → Events) :
  (s.wakeAll ready chosen told).PollsAnswered
  := by
  apply PollsAnswered.dismiss (d := d)
  · exact h
  · exact hs.of_slots rfl rfl rfl rfl rfl rfl rfl

theorem pollBook_wakeAll (s : State) (ready : Readiness) (chosen : PollWaiter → Bool)
    (told : PollWaiter → Watch → Events) :
  (s.wakeAll ready chosen told).pollBook =
    (s.pollWaiters.filter fun w => !chosen w, s.polls, s.reports ++ s.report ready chosen told)
  := by
  unfold wakeAll
  rw [pollWaiters_dismiss]

/-! ## Waking at a pipe -/

theorem mem_pipeFds {x : ℕ × ℕ} :
  x ∈ s.pipeFds h isReadEnd ↔ x.1 ∈ s.clients ∧ x.2 < maxClientObjects ∧
    (s.objects x.1 x.2).pipeHandle = some h ∧ (s.objects x.1 x.2).canRead = isReadEnd
  := by
  obtain ⟨c, fd⟩ := x
  unfold pipeFds
  simp only [mem_flatMap, mem_map, mem_filter, mem_range, Bool.and_eq_true,
    decide_eq_true_eq, Prod.mk.injEq]
  constructor
  · rintro ⟨c', hc, fd', ⟨hlt, hpipe, hread⟩, rfl, rfl⟩
    exact ⟨hc, hlt, hpipe, hread⟩
  · rintro ⟨hc, hlt, hpipe, hread⟩
    exact ⟨c, hc, fd, ⟨hlt, hpipe, hread⟩, rfl, rfl⟩

/-- A sleeping client that is told something about a descriptor watches it. -/
theorem told_of_isHit {fd : ℕ} (h : w.isHit (Watch.told fd revents) = true) :
  ∃ o ∈ w.objects, o.fd = fd ∧ revents.matched o.events ≠ .none
  := by
  obtain ⟨o, ho, hne⟩ := any_eq_true.mp h
  have hne : Watch.told fd revents o ≠ .none := by simpa using hne
  unfold Watch.told at hne
  split_ifs at hne with hfd
  · exact ⟨o, ho, hfd, hne⟩
  · exact absurd rfl hne

/-- What is left after the clients that watch some descriptors were woken. -/
theorem wakeFold_spec (s : State) (revents : Events) (fds : List (ℕ × ℕ)) :
  (∀ w, w ∈ (fds.foldl (fun t x => t.wakePollWaiters x.1 x.2 revents) s).pollWaiters →
    w ∈ s.pollWaiters ∧ ∀ x ∈ fds, w.waiter.badge = x.1 → w.isHit (Watch.told x.2 revents) = false) ∧
  ∀ y ∈ (fds.foldl (fun t x => t.wakePollWaiters x.1 x.2 revents) s).reports,
    y ∈ s.reports ∨ ∃ x ∈ fds, ∃ w ∈ s.pollWaiters, w.waiter.badge = x.1 ∧
      w.isHit (Watch.told x.2 revents) = true ∧ ∃ o ∈ w.objects,
        y = (Watch.told x.2 revents o, s.watched (fun _ _ => .none) w o)
  := by
  induction fds generalizing s with
  | nil => exact ⟨fun w hw => ⟨hw, fun x hx => by cases hx⟩, fun y hy => .inl hy⟩
  | cons x fds ih =>
    obtain ⟨hsleep, hreports⟩ := ih (s.wakePollWaiters x.1 x.2 revents)
    have hbook := s.pollBook_wakeAll (fun _ _ => .none)
      (fun w => decide (w.waiter.badge = x.1) && w.isHit (Watch.told x.2 revents))
      (fun _ => Watch.told x.2 revents)
    have hwaiters : (s.wakePollWaiters x.1 x.2 revents).pollWaiters = _ := congrArg (fun y => y.1) hbook
    have hreport : (s.wakePollWaiters x.1 x.2 revents).reports = _ := congrArg (fun y => y.2.2) hbook
    have htables := s.toTables_wakePollWaiters x.1 x.2 revents
    refine ⟨?_, ?_⟩
    · intro w hw
      obtain ⟨hw, hrest⟩ := hsleep w hw
      rw [hwaiters] at hw
      obtain ⟨hw, hnot⟩ := mem_filter.mp hw
      use hw
      intro x' hx' hbadge
      obtain rfl | hx' := mem_cons.mp hx'
      · simpa [hbadge] using hnot
      · exact hrest x' hx' hbadge
    · intro y hy
      obtain hy | ⟨x', hx', w, hw, hbadge, hhit, o, ho, rfl⟩ := hreports y hy
      · rw [hreport, mem_append] at hy
        obtain hy | hy := hy
        · exact .inl hy
        right
        obtain ⟨w, hw, hy⟩ := mem_flatMap.mp hy
        obtain ⟨hw, hchosen⟩ := mem_filter.mp hw
        obtain ⟨o, ho, rfl⟩ := mem_map.mp hy
        obtain ⟨hbadge, hhit⟩ := Bool.and_eq_true_iff.mp hchosen
        exact ⟨x, mem_cons_self, w, hw, of_decide_eq_true hbadge, hhit, o, ho, rfl⟩
      · right
        rw [hwaiters] at hw
        use x', mem_cons_of_mem _ hx', w, (mem_filter.mp hw).1, hbadge, hhit, o, ho
        unfold watched checkFdReadiness socketReadiness peerHasRoom
        rw [htables]

theorem PollsAnswered.wakeFold (h : s.PollsAnswered) (hs : Booked d 0 s) (revents : Events)
    (fds : List (ℕ × ℕ)) :
  (fds.foldl (fun t x => t.wakePollWaiters x.1 x.2 revents) s).PollsAnswered
  := by
  induction fds generalizing s with
  | nil => exact h
  | cons x fds ih =>
    apply ih
    · exact h.wakeAll hs _ _ _
    · exact hs.wakeAll ..

/-! ## What holds between two events -/

/-- Every handle in a slot was given, the sleeping clients are asleep because nothing that they
watch is ready, what clients were told was true, and all clients that slept were answered or are
asleep. -/
structure Awake (s : State) : Prop where
  fresh : s.Fresh
  known : s.PipesKnown
  quiet : s.Quiet s.pollWaiters
  told : s.ReportsTrue
  polls : s.PollsAnswered

/-- The sleeping clients are the same. -/
theorem Awake.of_pollBook (hs : s.Awake) (hfresh : t.Fresh) (hknown : t.PipesKnown)
    (hquiet : t.Quiet s.pollWaiters) (hbook : t.pollBook = s.pollBook)
    (hanswered : s.answered ⊆ t.answered) :
  t.Awake
  := by
  obtain ⟨hsleep, -, hreports⟩ := pollBook_eq_iff.mp hbook
  refine ⟨hfresh, hknown, hsleep.symm ▸ hquiet, ?_, hs.polls.of_pollBook hbook hanswered⟩
  unfold ReportsTrue
  rw [hreports]
  exact hs.told

/-- An operation that makes small changes. -/
theorem Awake.edits (hs : s.Awake) (h : Tables.Edits s.toTables t.toTables)
    (hbook : t.pollBook = s.pollBook) (hanswered : s.answered ⊆ t.answered) :
  t.Awake
  := by
  obtain ⟨hknown, hquiet⟩ := hs.quiet.edits hs.known h
  exact hs.of_pollBook (hs.fresh.edits h) hknown hquiet hbook hanswered

/-- An operation that leaves the tables alone. -/
theorem Awake.same (hs : s.Awake) (h : t.toTables = s.toTables) (hbook : t.pollBook = s.pollBook)
    (hanswered : s.answered ⊆ t.answered) :
  t.Awake
  := by
  apply hs.edits _ hbook hanswered
  rw [h]

/-- No client that is alive watches an end of a pipe for some events. -/
def Unwatched (s : State) (h : ℕ) (isReadEnd : Bool) (revents : Events) : Prop :=
  ∀ w ∈ s.pollWaiters, w.waiter.badge ∈ s.clients → ∀ o ∈ w.objects,
    (s.objects w.waiter.badge o.fd).pipeHandle = some h →
      (s.objects w.waiter.badge o.fd).canRead = isReadEnd → revents.matched o.events = .none

theorem Subset_none (f : Events) :
  Events.none.Subset f
  := ⟨nofun, nofun, nofun, nofun, nofun⟩

section

variable {o : Watch} (hlt : o.fd < maxClientObjects)
  (hpipe : (s.objects w.waiter.badge o.fd).pipeHandle = some h)
include hlt hpipe

/-- The events of a descriptor that is an end of a pipe. -/
theorem watched_eq :
  s.watched ready w o = (s.pipes h).elim .none fun p =>
    p.readiness (s.objects w.waiter.badge o.fd).canRead o.events
  := by
  have hbacking : (s.objects w.waiter.badge o.fd).backing = .pipe h := by
    unfold ObjectSlot.pipeHandle at hpipe
    split at hpipe
    · next g hg =>
      rw [hg, Option.some.inj hpipe]
    · cases hpipe
  have hlive : (s.objects w.waiter.badge o.fd).isLive = true := by
    simp [ObjectSlot.isLive, hbacking]
  have hresolve : s.resolveFd w.waiter.badge o.fd = some (s.objects w.waiter.badge o.fd) :=
    if_pos ⟨hlt, hlive⟩
  unfold watched checkFdReadiness
  simp only [hresolve, hbacking]

theorem watched_pipe (hp : s.pipes h = some p) :
  s.watched ready w o = p.readiness (s.objects w.waiter.badge o.fd).canRead o.events
  := by
  rw [watched_eq hlt hpipe, hp]
  rfl

end

/-- A pipe changes, and then the clients that watch one of its ends are woken. -/
theorem Awake.wakePipe (hs : s.Awake) (hp : s.pipes h = some p) (p' : PipeState)
    (tornEnds : List (ℕ × Bool))
    (htables : t.toTables = { s.toTables.setPipe h p' with tornEnds })
    (hbook : t.pollBook = s.pollBook) (hbooked : Booked d 0 t) (hanswered : s.answered ⊆ t.answered)
    (hother : ∀ events, p.readiness (!isReadEnd) events = .none →
      p'.readiness (!isReadEnd) events = .none)
    (hwoken : ∀ events, p.readiness isReadEnd events = .none → revents.matched events = .none →
      p'.readiness isReadEnd events = .none)
    (htold : (∀ events, (revents.matched events).Subset (p'.readiness isReadEnd events)) ∨
      s.Unwatched h isReadEnd revents) :
  (t.wakePollWaitersPipe h isReadEnd revents).Awake
  := by
  obtain ⟨hsleep, -, hreports⟩ := pollBook_eq_iff.mp hbook
  have hclients : t.clients = s.clients := by rw [htables]; rfl
  have hobjects : t.objects = s.objects := by rw [htables]; rfl
  have hpipes : t.pipes h = some p' := by
    rw [htables]
    exact update_self ..
  have hsame := t.toTables_wakePollWaitersPipe h isReadEnd revents
  obtain ⟨hleft, hnew⟩ := t.wakeFold_spec revents (t.pipeFds h isReadEnd)
  rw [hsleep] at hleft hnew
  refine ⟨?_, ?_, ?_, ?_, ?_⟩
  · rw [hsame, htables]
    exact hs.fresh
  · rw [hsame, htables]
    exact hs.known
  · rw [hsame, htables]
    -- The clients that are left watch the woken end for other events, or another end.
    refine Tables.Quiet.tornEnds (Tables.Quiet.setPipe (p := p')
      (hs.quiet.subset fun w hw => (hleft w hw).1) ?_) tornEnds
    intro w hw hb o ho hpipe
    obtain ⟨hw, hnothit⟩ := hleft w hw
    have hstill := hs.quiet w hw hb o ho
    have hbefore := hstill.quiet h p hpipe hp
    by_cases hend : (s.objects w.waiter.badge o.fd).canRead = isReadEnd
    · rw [hend] at hbefore ⊢
      apply hwoken _ hbefore
      have hmem : (w.waiter.badge, o.fd) ∈ t.pipeFds h isReadEnd := by
        apply mem_pipeFds.mpr
        rw [hclients, hobjects]
        exact ⟨hb, hstill.lt, hpipe, hend⟩
      have hmiss := hnothit _ hmem rfl
      by_contra hne
      apply Bool.eq_false_iff.mp hmiss
      apply any_eq_true.mpr
      use o, ho
      simpa [Watch.told] using hne
    · have hnot : (s.objects w.waiter.badge o.fd).canRead = !isReadEnd := Bool.eq_not.mpr hend
      rw [hnot] at hbefore ⊢
      exact hother _ hbefore
  · intro y hy
    obtain hy | ⟨x, hx, w, hw, hbadge, hhit, o, ho, rfl⟩ := hnew y hy
    · exact hs.told y (hreports ▸ hy)
    obtain ⟨hxb, hxlt, hxpipe, hxend⟩ := mem_pipeFds.mp hx
    obtain htold | hnone := htold
    · unfold Watch.told
      split_ifs with hfd
      · rw [← hbadge, ← hfd] at hxpipe hxend
        rw [watched_pipe (hfd ▸ hxlt) hxpipe hpipes, hxend]
        exact htold o.events
      · apply Subset_none
    · obtain ⟨o', ho', hfd', hmatched⟩ := told_of_isHit hhit
      rw [hobjects, ← hbadge, ← hfd'] at hxpipe hxend
      rw [hclients, ← hbadge] at hxb
      exact absurd (hnone w hw hxb o' ho' hxpipe hxend) hmatched
  · have hpolls := hs.polls.of_pollBook hbook hanswered
    exact hpolls.wakeFold hbooked revents _

/-- A pipe changes, and no end becomes ready. -/
theorem Awake.setPipe (hs : s.Awake) {p' : PipeState} (hp : s.pipes h = some p)
    (htables : t.toTables = s.toTables.setPipe h p') (hbook : t.pollBook = s.pollBook)
    (hanswered : s.answered ⊆ t.answered)
    (hends : ∀ isReadEnd events, p.readiness isReadEnd events = .none →
      p'.readiness isReadEnd events = .none) :
  t.Awake
  := by
  apply hs.of_pollBook _ _ _ hbook hanswered
  · rw [htables]
    exact hs.fresh
  · rw [htables]
    exact hs.known
  · rw [htables]
    apply Tables.Quiet.setPipe hs.quiet
    intro w hw hb o ho hpipe
    apply hends
    exact (hs.quiet w hw hb o ho).quiet h p hpipe hp

end State

end SaltyOS.Vfs
