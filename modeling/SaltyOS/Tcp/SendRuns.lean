import SaltyOS.Tcp.SendStream

/-!
# Runs of the sockets, and what they send

A run is a sequence of events. A run is careful if data is sent only when nothing is in flight or the
window is full, if a socket is closed only when everything accepted is in flight, and if every
acknowledgement is of everything in flight, or leaves nothing to send. Every segment sent in a
careful run agrees with the stream of accepted bytes. In other runs this may fail: two small writes
without an acknowledgement in between send the first byte twice.
-/

open Relation

namespace SaltyOS.Tcp

namespace System

variable {s : System}

/-! ## The invariant -/

/-- Everything sent agrees with the stream, and so do all control blocks. -/
structure SendOk (s : System) : Prop where
  sent : ∀ e ∈ s.sent, e.Faithful
  view : ∀ i, (s.tcbs i).sendView.Ok

/-! ## Runs -/

/-- The event does not make the send side label data wrongly: data is sent when nothing is in flight
or the window is full, a socket is closed when everything is in flight, and an acknowledgement is of
everything in flight, or leaves nothing to send, or leaves the window full. -/
def SendCareful (s : System) : Event → Prop
  | .send connId _ _ => ∀ i, s.findTcbByConnId connId = some i → (s.conn i).Settled
  | .close connId _ => ∀ i, s.findTcbByConnId connId = some i → (s.conn i).AllSent
  | .shutdown connId how _ =>
    how = 1 ∨ how = 2 → ∀ i, s.findTcbByConnId connId = some i → (s.conn i).AllSent
  | .segment ipSrc _ hdr _ _ _ =>
    ∀ i, s.findTcbByTuple hdr.dstPort ipSrc hdr.srcPort = some i → (s.conn i).AckCareful hdr
  | _ => True

instance (s : System) (e : Event) : Decidable (s.SendCareful e) := by
  cases e <;> unfold SendCareful <;> infer_instance

/-- A move of a careful event keeps the invariant. -/
theorem conn_sendOk_move {i : Fin maxTcpConns} {e : Event} {c d : Conn} (hcareful : s.SendCareful e)
    (hmove : Move s i e c d) (h : c.SendOk) :
  d.SendOk
  := by
  cases hmove with
  | quiet hd => exact h.sameCore hd
  | reset => exact ⟨h.sent, fun _ => rfl, rfl, rfl⟩
  | closed err _ => exact ⟨h.sent, fun _ => rfl, rfl, rfl⟩
  | opened _ hfree => exact ⟨h.sent, fun _ => rfl, h.free hfree⟩
  | listening backlog hactive hstate =>
    refine ⟨h.sent, fun ha => absurd ha (ne_false_of_eq_true hactive), h.idle hstate⟩
  | child listener remoteIp remotePort irs iss call wnd _ hfree =>
    exact ⟨h.sent, nofun, (h.free hfree).1, (h.free hfree).2, rfl, rfl⟩
  | timer now => exact (Conn.setRetxTimer_sameSend c now).sendOk h
  | count => exact ⟨h.sent, h.view⟩
  | connect ip port isn call now hactive hstate => exact h.tcpConnect ip port isn call now hstate hactive
  | send hi => exact h.tcpSend _ _ (hcareful i hi)
  | fin hi he hphase hstate =>
    apply h.sendFin _ hphase hstate
    obtain rfl | ⟨how, hhow, rfl⟩ := he
    · exact hcareful i hi
    · exact hcareful hhow i hi
  | syn hstate hack =>
    apply h.answerSyn _ hstate
    intro hf
    obtain ⟨-, -, -, hnxt⟩ := h.view.fits_of (congrArg TcpState.phase hstate)
    have hold := (hack hf).2
    rw [show (s.tcbs i).sndNxt = (s.tcbs i).iss + 1 from hnxt] at hold
    exact Conn.ack_eq_of_acceptable (hack hf).1 hold
  | accepted hi hack hstate hnew hold =>
    apply h.accepted _ hstate hnew hold
    have hne := hcareful i hi hack
    rw [show (s.conn i).tcb.state = _ from hstate] at hne
    exact hne
  | ack hi hack hstate =>
    have hset := hcareful i hi hack
    obtain hstate | hstate | hstate | hstate := hstate
    all_goals rw [show (s.conn i).tcb.state = _ from hstate] at hset
    · exact h.processAck _ _ (.inl (congrArg TcpState.phase hstate)) hset
    · exact h.processAck _ _ (.inl (congrArg TcpState.phase hstate)) hset
    · exact h.processAck _ _ (.inr (congrArg TcpState.phase hstate)) hset
    · exact h.processAck _ _ (.inr (congrArg TcpState.phase hstate)) hset
  | closeWait hdr payload hstate =>
    exact h.withState rfl (congrArg TcpState.phase hstate) (by decide) rfl
  | finished hphase hstate hsent hcore => exact h.finished hphase hstate hsent hcore
  | cancel => exact (Conn.cancelRetxTimer_sameSend c).sendOk h
  | retransmit =>
    have hback : (s.conn i).countTimeout.backOff.SendOk := ⟨h.sent, h.view⟩
    exact (Conn.setRetxTimer_sameSend _ _).sendOk hback.retransmit

/-- A careful event keeps the invariant. -/
theorem SendOk.exec (h : s.SendOk) {e : Event} (hcareful : s.SendCareful e) :
  (e.exec s).SendOk
  := by
  have hholds : Holds (fun _ c => c.SendOk) s e (e.exec s) := by
    refine holds_exec (fun i c d hm hc => conn_sendOk_move hcareful hm hc)
      ⟨fun i => ?_, fun x hx => .inl hx, fun _ => rfl⟩ ?_
    · exact ⟨nofun, h.view i⟩
    · exact fun i c hc => ⟨nofun, hc.view⟩
  refine ⟨fun x hx => ?_, fun i => (hholds.conn i).view⟩
  obtain hx | horigin | ⟨i, c, hc, hx⟩ := hholds.sent x hx
  · exact h.sent x hx
  · intro iss accepted ho
    rw [horigin] at ho
    cases ho
  · exact hc.sent x hx

theorem initial_sendOk (ourIp : ℕ) :
  (initial ourIp).SendOk
  := by
  refine ⟨fun e he => ?_, fun i => ⟨fun _ => rfl, rfl, rfl⟩⟩
  cases he

/-- A careful step of the sockets. -/
def SendStep : System → System → Prop := StepOf fun s e => e.Enabled s ∧ s.SendCareful e

/-- In a careful run, every segment with data has the bytes at the position that its sequence number
says, and every FIN comes after all bytes. -/
theorem sent_faithful_of_careful_run {ourIp : ℕ} {s : System}
    (hrun : ReflTransGen SendStep (initial ourIp) s) :
  ∀ e ∈ s.sent, e.Faithful
  := by
  have hok : s.SendOk := by
    apply invariant_of_run _ (initial_sendOk ourIp) hrun
    rintro s t h ⟨e, ⟨-, hcareful⟩, rfl⟩
    apply h.exec hcareful
  exact hok.sent

/-- A peer with the address 5 accepts a connection from the port 49152. -/
def synAck : Event :=
  .segment 5 7
    { srcPort := 80, dstPort := 49152, seq := 500, ack := 101
      flags := { Flags.none with syn := true, ack := true }, window := 1000 } [] 0 0

/-- A socket is connected to port 80 of the address 5. -/
def connectEvents : List Event :=
  [.registerVfs, .socket, .connect 1 5 80 100 0, synAck, .drain]

/-- A careful run: a socket is connected and sends a byte. -/
theorem sent_faithful_of_one_byte :
  ∃ s, ReflTransGen SendStep (initial 7) s ∧ s.sent.length = 3 ∧ ∀ e ∈ s.sent, e.Faithful
  := by
  have hrun : ReflTransGen SendStep (initial 7)
      ((initial 7).execAll (connectEvents ++ [.send 1 [1] 0])) := by
    apply run_execAll
    decide +kernel
  exact ⟨_, hrun, by decide +kernel, sent_faithful_of_careful_run hrun⟩

/-- The second of two bytes is sent with the first one, at the sequence number of the second. -/
theorem sent_not_faithful :
  ∃ s, ReflTransGen Step (initial 7) s ∧ ∃ e ∈ s.sent, ¬ e.Faithful
  := by
  have hrun : ReflTransGen Step (initial 7)
      ((initial 7).execAll (connectEvents ++ [.send 1 [1] 0, .send 1 [2] 0])) := by
    apply run_execAll
    decide +kernel
  have hlast : ∃ e ∈ ((initial 7).execAll (connectEvents ++ [.send 1 [1] 0, .send 1 [2] 0])).sent,
      e.origin = some (100, [1, 2]) ∧ e.seg.seq = 102 ∧ e.seg.payload = [1, 2] := by
    decide +kernel
  obtain ⟨e, he, ho, hs, hp⟩ := hlast
  refine ⟨_, hrun, e, he, fun hfaithful => ?_⟩
  obtain ⟨p, hseq, hprefix⟩ := (hfaithful 100 [1, 2] ho).1 (by rw [hp]; decide)
  rw [hs] at hseq
  rw [hp] at hprefix
  have hle := hprefix.length_le
  rw [List.length_drop] at hle
  have hp0 : p = 0 := by
    have hle' : 2 ≤ 2 - p := hle
    omega
  subst hp0
  revert hseq
  decide

end System

end SaltyOS.Tcp
