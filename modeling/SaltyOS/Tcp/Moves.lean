import SaltyOS.Lib.Prog
import SaltyOS.Tcp.System

/-!
# What an event does to a control block

An event works on each control block by a few moves. Most of them concern receiving, the addresses
or the deferred calls, and leave the core of the block alone. A property of the blocks that is kept by
the moves of an event is kept by the event.
-/

namespace SaltyOS.Tcp

open Function Conn List

/-- The phases of a connection as far as sending is concerned. -/
inductive Phase where
  | idle
  | connecting
  | streaming
  | finished
  deriving DecidableEq, Repr

/-- The phase of a state. -/
def TcpState.phase : TcpState → Phase
  | .closed | .listen => .idle
  | .synSent | .synReceived => .connecting
  | .established | .closeWait => .streaming
  | .finWait1 | .finWait2 | .closing | .lastAck | .timeWait => .finished

/-- The part of a control block that receiving, the addresses and the deferred calls leave alone. -/
structure Core where
  active : Bool
  state : TcpState
  connId : ℕ
  iss : Seq
  una : Seq
  nxt : Seq
  wnd : ℕ
  fin : Seq
  tx : RingBuf Byte bufSize
  rto : ℕ
  deadline : ℕ
  retries : ℕ
  mss : ℕ
  accepted : List Byte
  gen : ℕ

/-- The core of a control block. -/
def Tcb.core (t : Tcb) : Core :=
  { active := t.active, state := t.state, connId := t.connId, iss := t.iss, una := t.sndUna
    nxt := t.sndNxt, wnd := t.sndWnd, fin := t.finSeq, tx := t.txBuf, rto := t.rtoMs
    deadline := t.retxDeadlineNs, retries := t.retxCount, mss := t.mss, accepted := t.accepted
    gen := t.gen }

/-- What sending and acknowledging data leave alone. -/
def Core.owner (k : Core) : Bool × TcpState × ℕ × ℕ × ℕ :=
  (k.active, k.state, k.connId, k.mss, k.gen)

namespace Conn

/-- The core stays, and only segments without data and without FIN are emitted. -/
structure SameCore (c d : Conn) : Prop where
  sent : ∀ e ∈ d.sent, e ∈ c.sent ∨ e.seg.payload = [] ∧ e.seg.flags.fin = false
  core : d.tcb.core = c.tcb.core

namespace SameCore

variable {c d : Conn}

theorem refl (c : Conn) :
  SameCore c c
  := ⟨fun _ h => .inl h, rfl⟩

section

variable (h : SameCore c d)
include h

theorem trans {e : Conn} (h' : SameCore d e) :
  SameCore c e
  := by
  refine ⟨fun x hx => ?_, h'.core.trans h.core⟩
  obtain hd | hx' := h'.sent x hx
  · apply h.sent x hd
  · exact .inr hx'

/-- A change of the block that does not reach the core. -/
theorem update {f : Tcb → Tcb} (hf : (f d.tcb).core = d.tcb.core) :
  SameCore c (d.update f)
  := ⟨h.sent, hf.trans h.core⟩

theorem push (comp : Completion) :
  SameCore c (d.push comp)
  := ⟨h.sent, h.core⟩

/-- A segment without payload and without FIN is no part of the stream. -/
theorem append {x : Sent} (hpayload : x.seg.payload = []) (hfin : x.seg.flags.fin = false) :
  SameCore c { d with sent := d.sent ++ [x] }
  := by
  refine ⟨fun e he => ?_, h.core⟩
  obtain he | he := mem_append.mp he
  · apply h.sent e he
  · rw [mem_singleton.mp he]
    exact .inr ⟨hpayload, hfin⟩

/-- An acknowledgement carries no data. -/
theorem sendAck :
  SameCore c d.sendAck
  := h.append rfl rfl

end

end SameCore

/-! ## Operations that leave the core alone -/

section

variable (c : Conn)

/-- Receiving data does not touch what is sent. -/
theorem processPayload_sameCore (hdr : Header) (payload : List Byte) :
  SameCore c (c.processPayload hdr payload)
  := by
  have hstore : SameCore c (c.storeData payload) := ((SameCore.refl c).update rfl).sendAck
  unfold processPayload processData completeData
  split_ifs
  · apply SameCore.refl
  · apply (SameCore.refl c).sendAck
  · apply (hstore.update _).push
    rfl
  · apply hstore.push
  · apply hstore

/-- Reading received data changes the receive buffer only. -/
theorem tcpRecv_sameCore (size : ℕ) :
  SameCore c (c.tcpRecv size).2
  := by
  unfold tcpRecv
  split_ifs
  all_goals exact ⟨fun _ h => .inl h, rfl⟩

/-- The deferred calls are answered by completions, of which the core knows nothing. -/
theorem completeConnect_sameCore (result : Label) :
  SameCore c (c.completeConnect result)
  := by
  unfold completeConnect
  split
  · apply ((SameCore.refl c).update rfl).push
  · apply SameCore.refl

theorem completeRecv_sameCore (result : Label) (eof : Bool) :
  SameCore c (c.completeRecv result eof)
  := by
  unfold completeRecv
  split
  · apply ((SameCore.refl c).update rfl).push
  · apply SameCore.refl

theorem failAccept_sameCore (result : Label) :
  SameCore c (c.failAccept result)
  := by
  unfold failAccept
  split
  · apply ((SameCore.refl c).update rfl).push
  · apply SameCore.refl

theorem completeAccept_sameCore :
  SameCore c c.completeAccept
  := by
  unfold completeAccept
  split
  · apply ((SameCore.refl c).update rfl).push
  · apply SameCore.refl

/-- All deferred calls fail at once. -/
theorem completePendingWithError_sameCore (err : Label) :
  SameCore c (c.completePendingWithError err)
  := by
  apply SameCore.trans _ (failAccept_sameCore _ err)
  apply SameCore.trans _ (completeRecv_sameCore _ err false)
  apply SameCore.trans _ (completeConnect_sameCore _ err)
  apply (SameCore.refl c).update rfl

theorem reportConnect_sameCore :
  SameCore c c.reportConnect
  := by
  unfold reportConnect
  split_ifs
  · apply SameCore.trans _ (completeConnect_sameCore _ .ok)
    apply (SameCore.refl c).update rfl
  · apply SameCore.refl

end

/-! ## Operations that send data -/

section

variable (c : Conn) (now : ℕ)

/-- Sending what the window allows changes the sequence numbers and the timer only. -/
theorem flushTx_owner :
  (c.flushTx now).tcb.core.owner = c.tcb.core.owner
  := by
  unfold flushTx armRetxTimer
  split_ifs
  all_goals rfl

theorem tcpSend_owner (data : List Byte) :
  (c.tcpSend data now).2.tcb.core.owner = c.tcb.core.owner
  := by
  unfold tcpSend
  split_ifs
  · rfl
  · exact flushTx_owner _ now
  · rfl

/-- The timer is restarted or stopped after an acknowledgement. -/
theorem restartRetxTimer_owner :
  (c.restartRetxTimer now).tcb.core.owner = c.tcb.core.owner
  := by
  unfold restartRetxTimer
  split_ifs
  all_goals rfl

theorem sendMore_owner :
  (c.sendMore now).tcb.core.owner = c.tcb.core.owner
  := by
  unfold sendMore
  split_ifs
  · exact c.flushTx_owner now
  · rfl

/-- An acknowledgement removes data from the buffer and sends more. -/
theorem processAck_owner (hdr : Header) :
  (c.processAck hdr now).tcb.core.owner = c.tcb.core.owner
  := by
  unfold processAck
  split_ifs
  · rfl
  · change (((c.advance hdr).restartRetxTimer now).sendMore now).tcb.core.owner = _
    rw [sendMore_owner, restartRetxTimer_owner]
    rfl
  · rfl

/-- The acknowledgement and the payload of a segment. -/
theorem receive_owner (hdr : Header) (payload : List Byte) :
  (c.receive hdr payload now).tcb.core.owner = c.tcb.core.owner
  := by
  have hcore := (processPayload_sameCore (c.processAck hdr now) hdr payload).core
  exact (congrArg Core.owner hcore).trans (c.processAck_owner now hdr)

/-- Acknowledgement and payload do not change the state: the FIN is looked at later. -/
theorem receive_state (hdr : Header) (payload : List Byte) :
  (c.receive hdr payload now).tcb.state = c.tcb.state
  := congrArg (fun k => k.2.1) (c.receive_owner now hdr payload)

/-- What was sent and not acknowledged is sent again. -/
theorem retransmit_owner :
  c.retransmit.tcb.core.owner = c.tcb.core.owner
  := by
  unfold retransmit
  split
  · rfl
  · rfl
  · split_ifs
    all_goals rfl
  · split_ifs
    all_goals rfl
  all_goals rfl

end

end Conn

namespace System

/-! ## The moves -/

/-- The event gives an identifier to a block. -/
def Event.takesId (s : System) : Event → Bool
  | socket => s.findFreeTcb.isSome
  | accept connId _ =>
    s.findFreeTcb.isSome && (s.findTcbByConnId connId).any fun i =>
      (s.tcbs i).state == .listen && !(s.tcbs i).backlog.isEmpty
  | segment ipSrc _ hdr _ _ _ =>
    s.findFreeTcb.isSome && (s.findTcbByTuple hdr.dstPort ipSrc hdr.srcPort).isNone &&
      (s.findListener hdr.dstPort).any fun i =>
        !hdr.flags.rst && !hdr.flags.ack && hdr.flags.syn && (s.tcbs i).pendingAccept.isSome
  | _ => false

/-- The moves by which an event works on the control block `i`. Data is sent, acknowledged and sent
again at most once, and before that the block is as before the event. -/
inductive Move (s : System) (i : Fin maxTcpConns) : Event → Conn → Conn → Prop where
  | quiet {e : Event} {c d : Conn} (h : c.SameCore d) : Move s i e c d
  | reset {e : Event} (c : Conn) : Move s i e c c.reset
  | closed {e : Event} {c : Conn} (err : Label) (hactive : c.tcb.active = true) :
    Move s i e c (c.update fun t => t.closePreserveSocket err)
  | opened {c : Conn} (htakes : Event.socket.takesId s = true) (hfree : c.tcb.active = false) :
    Move s i .socket c (c.update fun t =>
      { t with active := true, state := .closed, connId := s.nextConnId, rcvWnd := 8192, mss := 1460 })
  | listening {e : Event} {c : Conn} (backlog : ℕ) (hactive : c.tcb.active = true)
    (hstate : c.tcb.state = .closed) :
    Move s i e c (c.update fun t => { t with state := .listen, maxBacklog := backlog })
  | child {e : Event} {c : Conn} (listener : Tcb) (remoteIp remotePort : ℕ) (irs iss : Seq)
    (call : Option ℕ) (wnd : ℕ) (htakes : e.takesId s = true) (hfree : c.tcb.active = false) :
    Move s i e c (c.update fun t =>
      { childTcb listener t s.nextConnId remoteIp remotePort irs iss call with sndWnd := wnd })
  | timer {e : Event} {c : Conn} (now : ℕ) : Move s i e c (c.setRetxTimer now)
  | count {e : Event} (c : Conn) : Move s i e c c.countTimeout
  | connect {e : Event} {c : Conn} (ip port : ℕ) (isn : Seq) (call now : ℕ)
    (hactive : c.tcb.active = true) (hstate : c.tcb.state = .closed) :
    Move s i e c (c.tcpConnect ip port isn call now)
  | send {connId : ℕ} {data : List Byte} {now : ℕ} (hi : s.findTcbByConnId connId = some i) :
    Move s i (.send connId data now) (s.conn i) ((s.conn i).tcpSend data now).2
  | fin {e : Event} {connId now : ℕ} {state : TcpState} (hi : s.findTcbByConnId connId = some i)
    (he : e = .close connId now ∨ ∃ how, (how = 1 ∨ how = 2) ∧ e = .shutdown connId how now)
    (hphase : (s.tcbs i).state = .synReceived ∨ (s.tcbs i).state.phase = .streaming)
    (hstate : state.phase = .finished) : Move s i e (s.conn i) ((s.conn i).sendFin state now)
  | syn {ipSrc ipDst : ℕ} {hdr : Header} {payload : List Byte} {isn : Seq} {now : ℕ}
    (hstate : (s.tcbs i).state = .synSent)
    (hack : hdr.flags.ack = true →
      seqLe hdr.ack (s.tcbs i).iss = false ∧ seqGt hdr.ack (s.tcbs i).sndNxt = false) :
    Move s i (.segment ipSrc ipDst hdr payload isn now) (s.conn i) ((s.conn i).takeSyn hdr).answerSyn
  | accepted {ipSrc ipDst : ℕ} {hdr : Header} {payload : List Byte} {isn : Seq} {now : ℕ}
    (hi : s.findTcbByTuple hdr.dstPort ipSrc hdr.srcPort = some i) (hack : hdr.flags.ack = true)
    (hstate : (s.tcbs i).state = .synReceived) (hnew : seqLe (s.tcbs i).sndUna hdr.ack = true)
    (hold : seqLe hdr.ack (s.tcbs i).sndNxt = true) :
    Move s i (.segment ipSrc ipDst hdr payload isn now) (s.conn i) ((s.conn i).update fun t =>
        { t with sndUna := hdr.ack, sndWnd := hdr.window, state := .established }).cancelRetxTimer
  | ack {ipSrc ipDst : ℕ} {hdr : Header} {payload : List Byte} {isn : Seq} {now : ℕ}
    (hi : s.findTcbByTuple hdr.dstPort ipSrc hdr.srcPort = some i) (hack : hdr.flags.ack = true)
    (hstate : (s.tcbs i).state = .established ∨ (s.tcbs i).state = .closeWait ∨
      (s.tcbs i).state = .finWait1 ∨ (s.tcbs i).state = .finWait2) :
    Move s i (.segment ipSrc ipDst hdr payload isn now) (s.conn i) ((s.conn i).processAck hdr now)
  | closeWait {e : Event} {c : Conn} (hdr : Header) (payload : List Byte)
    (hstate : c.tcb.state = .established) : Move s i e c (c.takeFin hdr payload .closeWait)
  | finished {e : Event} {c d : Conn} (hphase : c.tcb.state.phase = .finished)
    (hstate : d.tcb.state.phase = .finished) (hsent : d.sent = c.sent)
    (hcore : d.tcb.core = { c.tcb.core with state := d.tcb.state }) : Move s i e c d
  | cancel {e : Event} {c : Conn} (hphase : c.tcb.state.phase = .finished) :
    Move s i e c c.cancelRetxTimer
  | retransmit {now : ℕ} (hactive : (s.tcbs i).active = true)
    (hdue : (s.tcbs i).retxDeadlineNs ≠ 0 ∧ (s.tcbs i).retxDeadlineNs ≤ now)
    (hcount : (s.tcbs i).retxCount < 5) :
    Move s i (.timers now) (s.conn i).countTimeout
      ((s.conn i).countTimeout.backOff.retransmit.setRetxTimer now)

/-- Several moves. -/
abbrev Moves (s : System) (i : Fin maxTcpConns) (e : Event) : Conn → Conn → Prop :=
  Relation.ReflTransGen (Move s i e)

variable {s : System} {i : Fin maxTcpConns} {e : Event} {c d : Conn}

namespace Moves

/-- A move that leaves the core alone can be added at the end. -/
theorem quiet (h : Moves s i e c d) {d' : Conn} (hd : d.SameCore d') :
  Moves s i e c d'
  := h.tail (.quiet hd)

/-- A connection is given up: its deferred calls fail, and its block is reset or keeps the error. -/
theorem giveUp (h : Moves s i e c d) (hactive : d.tcb.active = true) (err : Label) :
  Moves s i e c (d.giveUp err)
  := by
  have hpending := d.completePendingWithError_sameCore err
  unfold Conn.giveUp Conn.abandon
  split_ifs
  · refine (h.quiet hpending).tail (.closed err ?_)
    exact (congrArg Core.active hpending.core).trans hactive
  · apply (h.quiet hpending).tail (.reset _)

end Moves

/-! ## Looking for blocks -/

/-- A search by identifier finds active blocks only. -/
theorem active_of_findTcbByConnId {connId : ℕ} (h : s.findTcbByConnId connId = some i) :
  (s.tcbs i).active = true
  := by
  have hfound := find?_some h
  rw [Bool.and_eq_true] at hfound
  exact hfound.1

/-- A search by addresses finds active blocks only. -/
theorem active_of_findTcbByTuple {localPort remoteIp remotePort : ℕ}
    (h : s.findTcbByTuple localPort remoteIp remotePort = some i) :
  (s.tcbs i).active = true
  := by
  have hfound := find?_some h
  simp only [Bool.and_eq_true] at hfound
  exact hfound.1.1.1.1

/-- A search for a free block finds one that is not active. -/
theorem inactive_of_findFreeTcb (h : s.findFreeTcb = some i) :
  (s.tcbs i).active = false
  := by
  have hfound := find?_some h
  rw [Bool.not_eq_true'] at hfound
  exact hfound

/-! ## Incoming segments -/

section

variable {ipSrc ipDst : ℕ} {hdr : Header} {payload : List Byte} {isn : Seq} {now : ℕ}

/-- An answer to our SYN: the connection is established or refused, or the SYNs crossed. -/
theorem moves_handleSynSent (hactive : (s.tcbs i).active = true)
    (hstate : (s.tcbs i).state = .synSent) :
  Moves s i (.segment ipSrc ipDst hdr payload isn now) (s.conn i)
    ((s.conn i).handleSynSent ipSrc ipDst hdr)
  := by
  unfold handleSynSent
  split_ifs with hbad
  · rfl
  · exact .single (.quiet ((SameCore.refl _).append rfl rfl))
  · have hconnect := (s.conn i).completeConnect_sameCore .connRefused
    refine .tail (.single (.quiet hconnect)) (.closed _ ?_)
    exact (congrArg Core.active hconnect.core).trans hactive
  · rfl
  · refine .single (.syn hstate fun hack => ?_)
    have hgood := not_and.mp hbad hack
    push Not at hgood
    exact ⟨eq_false_of_ne_true hgood.1, eq_false_of_ne_true hgood.2⟩
  · rfl

section

variable (hi : s.findTcbByTuple hdr.dstPort ipSrc hdr.srcPort = some i)
include hi

/-- The acknowledgement of our SYN, or a reset. -/
theorem moves_handleSynReceived (hstate : (s.tcbs i).state = .synReceived) :
  Moves s i (.segment ipSrc ipDst hdr payload isn now) (s.conn i) ((s.conn i).handleSynReceived hdr)
  := by
  unfold handleSynReceived
  split_ifs with hrst hack hbad
  · exact .tail (.single (.quiet (failAccept_sameCore _ _))) (.reset _)
  · rfl
  · push Not at hbad
    exact .tail (.single (.accepted hi hack hstate hbad.1 hbad.2)) (.quiet (completeAccept_sameCore _))
  · rfl

/-- Acknowledgement and payload of a segment are handled one after the other. -/
theorem moves_receive (hack : hdr.flags.ack = true)
    (hstate : (s.tcbs i).state = .established ∨ (s.tcbs i).state = .closeWait ∨
      (s.tcbs i).state = .finWait1 ∨ (s.tcbs i).state = .finWait2) :
  Moves s i (.segment ipSrc ipDst hdr payload isn now) (s.conn i) ((s.conn i).receive hdr payload now)
  := .tail (.single (.ack hi hack hstate)) (.quiet (processPayload_sameCore _ hdr payload))

/-- A segment of an established connection, which a FIN takes to `closeWait`. -/
theorem moves_handleEstablished (hstate : (s.tcbs i).state = .established) :
  Moves s i (.segment ipSrc ipDst hdr payload isn now) (s.conn i)
    ((s.conn i).handleEstablished hdr payload now)
  := by
  unfold handleEstablished
  split_ifs with hrst hsyn hack hfin
  · exact .tail (.single (.quiet (completePendingWithError_sameCore _ _))) (.reset _)
  · refine .tail ?_ (.reset _)
    exact .single (.quiet (((SameCore.refl _).append rfl rfl).trans
      (completePendingWithError_sameCore _ _)))
  · have hstate' : ((s.conn i).receive hdr payload now).tcb.state = .established :=
      (receive_state _ now hdr payload).trans hstate
    apply Moves.quiet ((moves_receive hi hack (.inl hstate)).tail (.closeWait hdr payload hstate'))
    exact (SameCore.refl _).sendAck.trans (completeRecv_sameCore _ .ok true)
  · exact moves_receive hi hack (.inl hstate)
  · rfl

end

/-- Our FIN is acknowledged, or the peer closes as well, or both. -/
theorem Moves.leaveFinWait1 (h : Moves s i e c d) (hphase : d.tcb.state.phase = .finished) :
  Moves s i e c (d.leaveFinWait1 hdr payload now)
  := by
  unfold Conn.leaveFinWait1
  split_ifs
  · apply Moves.quiet _ (SameCore.refl _).sendAck
    refine .tail ?_ (.cancel rfl)
    exact h.tail (.finished hphase rfl rfl rfl)
  · apply Moves.quiet _ (SameCore.refl _).sendAck
    exact h.tail (.finished hphase rfl rfl rfl)
  · refine .tail ?_ (.cancel rfl)
    exact h.tail (.finished hphase rfl rfl rfl)
  · exact h

/-- The peer closes after our FIN was acknowledged. -/
theorem Moves.leaveFinWait2 (h : Moves s i e c d) (hphase : d.tcb.state.phase = .finished) :
  Moves s i e c (d.leaveFinWait2 hdr payload now)
  := by
  unfold Conn.leaveFinWait2
  split_ifs
  · apply Moves.quiet _ (SameCore.refl _).sendAck
    exact h.tail (.finished hphase rfl rfl rfl)
  · exact h

/-- In the closing states the acknowledgement is handled only if there is one. -/
theorem moves_processAckIf (hi : s.findTcbByTuple hdr.dstPort ipSrc hdr.srcPort = some i)
    (hstate : (s.tcbs i).state = .established ∨ (s.tcbs i).state = .closeWait ∨
      (s.tcbs i).state = .finWait1 ∨ (s.tcbs i).state = .finWait2) :
  Moves s i (.segment ipSrc ipDst hdr payload isn now) (s.conn i) ((s.conn i).processAckIf hdr now)
  := by
  unfold processAckIf
  split_ifs with hack
  · exact .single (.ack hi hack hstate)
  · rfl

theorem processAckIf_state (c : Conn) (hdr : Header) (now : ℕ) :
  (c.processAckIf hdr now).tcb.state = c.tcb.state
  := by
  unfold processAckIf
  split_ifs
  · exact congrArg (fun k => k.2.1) (c.processAck_owner now hdr)
  · rfl

/-- A segment after our FIN was acknowledged may still bring data. -/
theorem moves_handleFinWait2 (hi : s.findTcbByTuple hdr.dstPort ipSrc hdr.srcPort = some i)
    (hstate : (s.tcbs i).state = .finWait2) :
  Moves s i (.segment ipSrc ipDst hdr payload isn now) (s.conn i)
    ((s.conn i).handleFinWait2 hdr payload now)
  := by
  unfold handleFinWait2
  split_ifs
  · exact .single (.reset _)
  have hpayload := ((s.conn i).processAckIf hdr now).processPayload_sameCore hdr payload
  apply Moves.leaveFinWait2 (Moves.quiet (moves_processAckIf hi _) hpayload)
  · have hsame := (congrArg Core.state hpayload.core).trans (processAckIf_state _ hdr now)
    exact (congrArg TcpState.phase (hsame.trans hstate)).trans rfl
  · exact .inr (.inr (.inr hstate))

/-- What an incoming segment does to the block that it is for. -/
theorem moves_dispatchSegment (hi : s.findTcbByTuple hdr.dstPort ipSrc hdr.srcPort = some i) :
  Moves s i (.segment ipSrc ipDst hdr payload isn now) (s.conn i)
    ((s.conn i).dispatchSegment ipSrc ipDst hdr payload now)
  := by
  unfold dispatchSegment
  split
  case h_1 | h_2 => rfl
  case h_3 hstate => exact moves_handleSynSent (active_of_findTcbByTuple hi) hstate
  case h_4 hstate => exact moves_handleSynReceived hi hstate
  case h_5 hstate => exact moves_handleEstablished hi hstate
  case h_6 hstate =>
    unfold handleFinWait1
    split_ifs with hrst hack
    · exact .single (.reset _)
    · apply Moves.leaveFinWait1 (moves_receive hi hack (.inr (.inr (.inl hstate))))
      rw [receive_state, hstate]
      rfl
    · rfl
  case h_7 hstate => exact moves_handleFinWait2 hi hstate
  case h_8 hstate =>
    unfold handleCloseWait
    split_ifs
    · exact .single (.reset _)
    · exact moves_processAckIf hi (.inr (.inl hstate))
  case h_9 hstate =>
    unfold handleClosing
    split_ifs
    · exact .single (.reset _)
    · refine .tail ?_ (.cancel rfl)
      exact .single (.finished (by rw [hstate]; rfl) rfl rfl rfl)
    · rfl
  case h_10 =>
    unfold handleLastAck
    split_ifs
    · exact .single (.reset _)
    · exact .single (.reset _)
    · rfl
  case h_11 =>
    unfold handleTimeWait
    split_ifs
    · exact .single (.reset _)
    · exact .single (.quiet (((SameCore.refl _).update rfl).append rfl rfl))
    · rfl

end

/-! ## Closing, timers and addresses -/

/-- A close sends a FIN, or resets the block of a connection that was never made. -/
theorem moves_tcpClose {connId now : ℕ} (hi : s.findTcbByConnId connId = some i)
    (he : e = .close connId now ∨ ∃ how, (how = 1 ∨ how = 2) ∧ e = .shutdown connId how now) :
  Moves s i e (s.conn i) ((s.conn i).tcpClose now)
  := by
  unfold Conn.tcpClose
  split
  case h_1 | h_2 | h_3 => exact .single (.reset _)
  case h_4 hstate => exact .single (.fin hi he (.inl hstate) rfl)
  case h_5 hstate => exact .single (.fin hi he (.inr (congrArg TcpState.phase hstate)) rfl)
  case h_6 hstate => exact .single (.fin hi he (.inr (congrArg TcpState.phase hstate)) rfl)
  all_goals rfl

/-- The timers of a block retransmit, give the connection up, or end `timeWait`. -/
theorem moves_processTimers (now : ℕ) :
  Moves s i (.timers now) (s.conn i) ((s.conn i).processTimers now)
  := by
  unfold Conn.processTimers
  split_ifs with hactive htime hdue
  · exact .single (.reset _)
  · rfl
  · have hcount : Moves s i (.timers now) (s.conn i) (s.conn i).countTimeout := .single (.count _)
    unfold timeout
    split_ifs with hmany
    · apply Moves.giveUp (Moves.quiet hcount ((SameCore.refl _).append rfl rfl)) hactive
    push Not at hdue
    refine hcount.tail (.retransmit hactive hdue ?_)
    change ¬ (s.tcbs i).retxCount + 1 > 5 at hmany
    omega
  · rfl

/-- A new address of the interface ends the connections from the old one. -/
theorem moves_changeLocalIp (newIp : ℕ) :
  Moves s i e (s.conn i) ((s.conn i).changeLocalIp newIp)
  := by
  unfold Conn.changeLocalIp
  split_ifs with hactive
  · rfl
  push Not at hactive
  split
  · exact .single (.quiet ((SameCore.refl _).update rfl))
  · exact .single (.quiet ((SameCore.refl _).update rfl))
  · exact Moves.giveUp .refl hactive.1 _

/-! ## The operations of the table -/

section

variable (s : System) (i : Fin maxTcpConns)

/-- What does not depend on the completions is not changed by pushing them. -/
theorem pushAll_same {α : Type} {f : System → α}
    (hf : ∀ s completions pushed, f { s with completions, pushed } = f s) (cs : List Completion) :
  f (s.pushAll i cs) = f s
  := by
  induction cs generalizing s with
  | nil => rfl
  | cons c cs ih =>
    have hpush : f (s.push i c) = f s := by
      unfold push
      split_ifs
      · rfl
      · apply hf
    exact (ih _).trans hpush

/-- Completions take no identifiers. -/
theorem pushAll_nextConnId (cs : List Completion) :
  (s.pushAll i cs).nextConnId = s.nextConnId
  := pushAll_same s i (fun _ _ _ => rfl) cs

/-- The results of an operation on one block are written back to this block. -/
theorem finish_tcbs (c : Conn) :
  (s.finish i c).tcbs = update s.tcbs i c.tcb
  := pushAll_same _ i (fun _ _ _ => rfl) c.comps

theorem finish_sent (c : Conn) :
  (s.finish i c).sent = s.sent ++ c.sent
  := pushAll_same _ i (fun _ _ _ => rfl) c.comps

theorem updateTcb_self (f : Tcb → Tcb) :
  (s.updateTcb i f).tcbs i = f (s.tcbs i)
  := update_self i _ _

end

/-- A property holds of every block, and what was sent since is from no block or from a block with
the property. No identifier is given unless the event gives one. -/
structure Holds (P : Fin maxTcpConns → Conn → Prop) (s : System) (e : Event) (t : System) : Prop where
  conn : ∀ i, P i (t.conn i)
  sent : ∀ x ∈ t.sent, x ∈ s.sent ∨ x.origin = none ∨ ∃ i c, P i c ∧ x ∈ c.sent
  next : e.takesId s = false → t.nextConnId = s.nextConnId

namespace Holds

variable {P : Fin maxTcpConns → Conn → Prop} {t : System} {f : Conn → Conn}

/-- Neither the blocks nor what was sent changes. -/
theorem congr {u : System} (h : Holds P s e t) (htcbs : u.tcbs = t.tcbs) (hsent : u.sent = t.sent)
    (hnext : u.nextConnId = t.nextConnId) :
  Holds P s e u
  := by
  refine ⟨fun i => ?_, ?_, ?_⟩
  · unfold System.conn
    rw [htcbs]
    apply h.conn
  · rw [hsent]
    apply h.sent
  · rw [hnext]
    apply h.next

/-- An identifier is taken, which the event is allowed to do. -/
theorem allocConnId (h : Holds P s e t) (htakes : e.takesId s = true) :
  Holds P s e t.allocConnId
  := ⟨h.conn, h.sent, fun hfalse => nomatch htakes.symm.trans hfalse⟩

/-- A block is replaced by one with the property. -/
theorem setTcb (h : Holds P s e t) (i : Fin maxTcpConns) {tcb : Tcb}
    (ht : P i { tcb, sent := [], comps := [] }) :
  Holds P s e (t.setTcb i tcb)
  := by
  refine ⟨?_, h.sent, h.next⟩
  apply (Function.forall_update_iff t.tcbs fun i tcb => P i { tcb, sent := [], comps := [] }).mpr
  exact ⟨ht, fun j _ => h.conn j⟩

/-- A segment that belongs to no block. -/
theorem sendSegment (h : Holds P s e t) (seg : Segment) :
  Holds P s e (t.sendSegment seg)
  := by
  refine ⟨h.conn, fun x hx => ?_, h.next⟩
  obtain hx | hx := mem_append.mp hx
  · apply h.sent x hx
  · rw [mem_singleton.mp hx]
    exact .inr (.inl rfl)

section

variable (hconn : ∀ i c, P i c → P i { tcb := c.tcb, sent := [], comps := [] })
include hconn

/-- The results of an operation on a block with the property are written back. -/
theorem finish (h : Holds P s e t) (i : Fin maxTcpConns) (hc : P i c) :
  Holds P s e (t.finish i c)
  := by
  have hset := h.setTcb i (hconn i c hc)
  refine ⟨fun j => ?_, fun x hx => ?_, fun htakes => ?_⟩
  · unfold System.conn
    rw [finish_tcbs]
    apply hset.conn
  · rw [finish_sent] at hx
    obtain hx | hx := mem_append.mp hx
    · apply h.sent x hx
    · exact .inr (.inr ⟨i, c, hc, hx⟩)
  · exact (pushAll_nextConnId _ i c.comps).trans (h.next htakes)

/-- The same operation is done to all blocks. -/
theorem onBlocks (h : Holds P s e t) (ht : t.tcbs = s.tcbs) (hf : ∀ i, P i (f (s.conn i))) :
  Holds P s e (t.onBlocks f)
  := by
  -- The blocks that are still to come are as before the event.
  have hsame : ∀ i ∈ finRange maxTcpConns, t.tcbs i = s.tcbs i := fun i _ => congrFun ht i
  unfold System.onBlocks
  have hnodup := nodup_finRange maxTcpConns
  clear ht
  generalize finRange maxTcpConns = l at hsame hnodup
  induction l generalizing t with
  | nil => exact h
  | cons i l ih =>
    obtain ⟨hi, hl⟩ := nodup_cons.mp hnodup
    have hblock : P i (f (t.conn i)) := by
      unfold System.conn
      rw [hsame i (mem_cons_self ..)]
      apply hf
    apply ih (finish hconn h i hblock) _ hl
    intro j hj
    have hne : j ≠ i := fun heq => hi (heq ▸ hj)
    rw [finish_tcbs, update_of_ne hne]
    exact hsame j (mem_cons_of_mem i hj)

end

section

variable (hmove : ∀ i c d, Move s i e c d → P i c → P i d)
include hmove

/-- The moves of an event keep what each of them keeps. -/
theorem moves (i : Fin maxTcpConns) (hc : P i c) (h : Moves s i e c d) :
  P i d
  := by
  induction h with
  | refl => exact hc
  | tail _ hd ih => exact hmove i _ _ hd ih

/-- A change of a block outside its core. -/
theorem updateTcb (h : Holds P s e t) (i : Fin maxTcpConns) {g : Tcb → Tcb}
    (hg : (g (t.tcbs i)).core = (t.tcbs i).core) :
  Holds P s e (t.updateTcb i g)
  := by
  apply h.setTcb i
  apply hmove i (t.conn i) _ (.quiet ((SameCore.refl _).update hg)) (h.conn i)

/-- A deferred accept is noted in the block of the listener. -/
theorem setPendingAccept (h : Holds P s e t) (connId call : ℕ) :
  Holds P s e (t.setPendingAccept connId call)
  := by
  unfold System.setPendingAccept
  split
  · exact h
  · exact updateTcb hmove h _ rfl

/-- An ephemeral port is given to a block without one. -/
theorem choosePort (h : Holds P s e t) {u : System} (hu : t.choosePort i = some u) :
  Holds P s e u ∧ (u.tcbs i).core = (t.tcbs i).core
  := by
  unfold System.choosePort at hu
  split at hu
  · obtain ⟨port, -, rfl⟩ := Option.map_eq_some_iff.mp hu
    have hport : Holds P s e { t with ephemeralPort := nextPort port } := h.congr rfl rfl rfl
    use updateTcb hmove hport i rfl
    rw [updateTcb_self]
    rfl
  · cases hu
    exact ⟨h, rfl⟩

/-- The address of the interface is given to a block without one. -/
theorem chooseAddress (h : Holds P s e t) (i : Fin maxTcpConns) :
  Holds P s e (t.chooseAddress i) ∧ ((t.chooseAddress i).tcbs i).core = (t.tcbs i).core
  := by
  unfold System.chooseAddress
  split
  · use updateTcb hmove h i rfl
    rw [updateTcb_self]
    rfl
  · exact ⟨h, rfl⟩

end

end Holds

/-- A notification gives a completed receive to the application. -/
theorem Holds.notifyVfs {P : Fin maxTcpConns → Conn → Prop} {t : System} (h : Holds P s e t)
    (i : Fin maxTcpConns) (c : Completion) :
  Holds P s e (t.notifyVfs i c)
  := by
  unfold System.notifyVfs
  split_ifs <;> exact h.congr rfl rfl rfl

/-- The completions are taken out one after the other, each with a notification. -/
theorem Holds.drainCompletionQueue {P : Fin maxTcpConns → Conn → Prop} (h : Holds P s e s) :
  Holds P s e s.drainCompletionQueue
  := by
  have hempty : Holds P s e { s with completions := [] } := h.congr rfl rfl rfl
  unfold System.drainCompletionQueue
  generalize s.completions = queue
  generalize { s with completions := [] } = t at hempty
  induction queue generalizing t with
  | nil => exact hempty
  | cons ic queue ih => exact ih _ (hempty.notifyVfs ic.1 ic.2)

/-! ## Events -/

section

variable {P : Fin maxTcpConns → Conn → Prop}
  (hmove : ∀ i c d, Move s i e c d → P i c → P i d) (h : Holds P s e s)
include hmove h

/-- An accept gives a free block to the first request of the backlog. -/
theorem holds_tcpAccept {connId : ℕ} {armPending : Bool} (he : e = .accept connId armPending)
    (call : ℕ) :
  Holds P s e (s.newCall.tcpAccept connId call)
  := by
  have hcall : Holds P s e s.newCall := h.congr rfl rfl rfl
  unfold tcpAccept
  split
  · exact hcall
  rename_i i hi
  split_ifs with hstate
  · exact hcall
  split
  next pending rest j hbacklog hj =>
    have htakes : e.takesId s = true := by
      change s.findTcbByConnId connId = some i at hi
      change s.findFreeTcb = some j at hj
      change (s.tcbs i).backlog = _ at hbacklog
      change ¬ (s.tcbs i).state ≠ .listen at hstate
      rw [he, Event.takesId, hi, hj, Option.any_some, hbacklog]
      simpa using hstate
    have hfree := inactive_of_findFreeTcb hj
    have hne : j ≠ i := by
      rintro rfl
      rw [active_of_findTcbByConnId hi] at hfree
      cases hfree
    have hrest := Holds.updateTcb hmove (hcall.allocConnId htakes) i
      (g := fun t => { t with backlog := rest }) rfl
    apply hrest.setTcb j
    refine hmove j _ _ (.child (s.tcbs i) pending.remoteIp pending.remotePort pending.irs
      pending.iss (some call) _ htakes ?_) (hrest.conn j)
    change (update s.tcbs i _ j).active = false
    rw [update_of_ne hne]
    exact hfree
  · exact hcall

/-- A new socket takes an identifier and a free block. -/
theorem holds_tcpSocket (he : e = .socket) :
  Holds P s e s.tcpSocket
  := by
  subst he
  unfold tcpSocket
  split
  · exact h
  rename_i i hi
  have htakes : Event.socket.takesId s = true := by rw [Event.takesId, hi]; rfl
  apply (h.allocConnId htakes).setTcb i
  exact hmove i _ _ (.opened htakes (inactive_of_findFreeTcb hi)) (h.conn i)

/-- A socket becomes a listener. -/
theorem holds_tcpListen (connId backlog : ℕ) :
  Holds P s e (s.tcpListen connId backlog)
  := by
  unfold tcpListen
  split
  · exact h
  rename_i i hi
  split_ifs with hstate
  · exact h
  · exact h
  · apply h.setTcb i
    exact hmove i _ _ (.listening _ (active_of_findTcbByConnId hi) (not_not.mp hstate)) (h.conn i)

section

variable (hconn : ∀ i c, P i c → P i { tcb := c.tcb, sent := [], comps := [] })
include hconn

/-- A connect chooses a port and an address and sends a SYN. -/
theorem holds_tcpConnect (connId ip port : ℕ) (isn : Seq) (now : ℕ) :
  Holds P s e (s.tcpConnect connId ip port isn now)
  := by
  unfold tcpConnect
  split
  · exact h
  rename_i i hi
  split_ifs with hstate
  · exact h
  split
  · exact h
  rename_i t ht
  obtain ⟨hport, hpcore⟩ := h.choosePort hmove ht
  obtain ⟨haddress, hacore⟩ := hport.chooseAddress hmove i
  have hcore := hacore.trans hpcore
  apply Holds.finish hconn (haddress.congr rfl rfl rfl : Holds P s e (t.chooseAddress i).newCall)
  refine hmove i _ _ (.connect ip port isn s.nextCall now ?_ ?_) (haddress.conn i)
  · exact (congrArg Core.active hcore).trans (active_of_findTcbByConnId hi)
  · exact (congrArg Core.state hcore).trans (not_not.mp hstate)

/-- A receive takes data that has arrived, or is deferred. -/
theorem holds_handleNetRecv (connId maxLen : ℕ) (peek armPending : Bool) :
  Holds P s e (s.handleNetRecv connId maxLen peek armPending)
  := by
  have hcall : Holds P s e s.newCall := h.congr rfl rfl rfl
  unfold handleNetRecv
  split
  · exact hcall
  rename_i i hi
  split_ifs
  · unfold recvPeek
    split
    · exact hcall.congr rfl rfl rfl
    split_ifs
    · exact hcall.updateTcb hmove i rfl
    · exact hcall
  have hrecv : Holds P s e (s.newCall.finish i ((s.newCall.conn i).tcpRecv (min maxLen 152)).2) := by
    apply hcall.finish hconn i
    exact hmove i _ _ (.quiet (tcpRecv_sameCore _ _)) (hcall.conn i)
  unfold recvNow
  split
  next data c hc =>
    rw [hc] at hrecv
    exact hrecv.congr rfl rfl rfl
  rename_i c hc
  rw [hc] at hrecv
  split_ifs
  · exact hrecv.updateTcb hmove i rfl
  · exact hrecv

/-- A close or a shutdown of the sending direction. -/
theorem holds_tcpClose {connId now : ℕ}
    (he : e = .close connId now ∨ ∃ how, (how = 1 ∨ how = 2) ∧ e = .shutdown connId how now) :
  Holds P s e (s.tcpClose connId now)
  := by
  unfold tcpClose
  split
  · exact h
  rename_i i hi
  apply h.finish hconn i
  exact Holds.moves hmove i (h.conn i) (moves_tcpClose hi he)

/-- A SYN to a listener gets a free block, if an accept waits for it, or goes into the backlog. -/
theorem holds_handleListen {ipSrc ipDst : ℕ} {hdr : Header} {payload : List Byte} {isn : Seq}
    {now : ℕ} (he : e = .segment ipSrc ipDst hdr payload isn now)
    (htuple : s.findTcbByTuple hdr.dstPort ipSrc hdr.srcPort = none)
    (hi : s.findListener hdr.dstPort = some i) :
  Holds P s e (s.handleListen i ipSrc ipDst hdr isn now)
  := by
  unfold handleListen
  split
  · exact h
  rename_i hrst
  split
  · exact h.sendSegment _
  rename_i hack
  split
  · exact h
  rename_i hsyn
  split
  next hpending =>
    split
    · exact h
    rename_i j hj
    have htakes : e.takesId s = true := by
      simp [he, Event.takesId, hj, htuple, hi, hrst, hack, not_not.mp hsyn, hpending]
    have hchild : Holds P s e (s.allocConnId.updateTcb j fun t =>
        { childTcb (s.tcbs i) t s.nextConnId ipSrc hdr.srcPort hdr.seq isn
            (s.tcbs i).pendingAccept with sndWnd := hdr.window }) := by
      apply (h.allocConnId htakes).setTcb j
      exact hmove j _ _ (.child (s.tcbs i) ipSrc hdr.srcPort hdr.seq isn
        (s.tcbs i).pendingAccept hdr.window htakes (inactive_of_findFreeTcb hj)) (h.conn j)
    apply Holds.updateTcb hmove _ i rfl
    apply hchild.finish hconn j
    apply hmove j _ _ (.timer now)
    exact hmove j _ _ (.quiet ((SameCore.refl _).append rfl rfl)) (hchild.conn j)
  · split
    · exact h
    · exact (h.updateTcb hmove i rfl).sendSegment _

/-- A segment is given to the block with its addresses, or to a listener, or answered by a reset. -/
theorem holds_handleSegment {ipSrc ipDst : ℕ} {hdr : Header} {payload : List Byte} {isn : Seq}
    {now : ℕ} (he : e = .segment ipSrc ipDst hdr payload isn now) :
  Holds P s e (s.handleSegment ipSrc ipDst hdr payload isn now)
  := by
  unfold handleSegment
  split
  next i hi =>
    apply h.finish hconn i
    subst he
    exact Holds.moves hmove i (h.conn i) (moves_dispatchSegment hi)
  rename_i htuple
  split
  next i hi => exact holds_handleListen hmove h hconn he htuple hi
  split_ifs
  · exact h
  · exact h.sendSegment _
  · exact h.sendSegment _

/-- A property that the moves of an event keep is kept by the event. -/
theorem holds_exec :
  Holds P s e (e.exec s)
  := by
  cases e with
  | registerVfs => exact h.congr rfl rfl rfl
  | socket => exact holds_tcpSocket hmove h rfl
  | bind connId ip port =>
    unfold Event.exec tcpBind
    dsimp only
    split
    · exact h
    split
    · exact h
    · exact h.updateTcb hmove _ rfl
  | listen connId backlog => exact holds_tcpListen hmove h connId backlog
  | accept connId armPending =>
    have haccept := holds_tcpAccept hmove h rfl s.nextCall
    unfold Event.exec handleNetAccept
    dsimp only
    split_ifs
    · exact haccept.setPendingAccept hmove connId _
    · exact haccept
  | connect connId ip port isn now => exact holds_tcpConnect hmove h hconn connId ip port isn now
  | send connId data now =>
    unfold Event.exec tcpSend
    dsimp only
    split
    · exact h
    rename_i i hi
    apply h.finish hconn i
    exact hmove i _ _ (.send hi) (h.conn i)
  | recv connId maxLen peek armPending =>
    exact holds_handleNetRecv hmove h hconn connId maxLen peek armPending
  | close connId now => exact holds_tcpClose hmove h hconn (.inl rfl)
  | shutdown connId how now =>
    unfold Event.exec tcpShutdown
    dsimp only
    split_ifs with hhow
    · exact holds_tcpClose hmove h hconn (.inr ⟨how, hhow, rfl⟩)
    split
    · exact h
    · exact h.updateTcb hmove _ rfl
  | segment ipSrc ipDst hdr payload isn now => exact holds_handleSegment hmove h hconn rfl
  | timers now =>
    unfold Event.exec processTimers
    exact h.onBlocks hconn rfl fun i => Holds.moves hmove i (h.conn i) (moves_processTimers now)
  | ipChange newIp =>
    have hip : Holds P s (.ipChange newIp) { s with ourIp := newIp } := h.congr rfl rfl rfl
    unfold Event.exec changeLocalIp
    exact hip.onBlocks hconn rfl fun i => Holds.moves hmove i (h.conn i) (moves_changeLocalIp newIp)
  | drain => exact h.drainCompletionQueue

end

end

end System

end SaltyOS.Tcp
