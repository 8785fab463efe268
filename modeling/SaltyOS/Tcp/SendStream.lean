import SaltyOS.Tcp.Moves

/-!
# The stream of sent bytes

What a socket emits has to agree with the bytes accepted by `tcpSend`: a segment with data has the
bytes at the position that its sequence number says, and a FIN comes after all bytes. The transmit
buffer has the bytes from `sndUna` on, but `flushTx` labels its first bytes with `sndNxt`. The two
agree as long as nothing is in flight when more is sent. The same holds of a FIN as long as everything
accepted is in flight when the socket is closed.
-/

namespace SaltyOS.Tcp

open BitVec List RingBuf

/-! ## Sequence numbers -/

theorem toInt_pos_iff (x : BitVec 32) :
  0 < x.toInt ↔ 0 < x.toNat ∧ x.toNat < 2 ^ 31
  := by
  rw [toInt_eq_toNat_cond]
  split_ifs <;> omega

theorem toInt_nonpos_iff (x : BitVec 32) :
  x.toInt ≤ 0 ↔ x.toNat = 0 ∨ 2 ^ 31 ≤ x.toNat
  := by
  rw [toInt_eq_toNat_cond]
  split_ifs <;> omega

/-- An acknowledgement of something sent, and of nothing that was not sent, is at most what is in
flight. -/
theorem acked_le {una nxt ack : Seq} (hflight : (nxt - una).toNat < 2 ^ 31)
    (hnew : seqGt ack una = true) (hold : seqGt ack nxt = false) :
  (ack - una).toNat ≤ (nxt - una).toNat
  := by
  have hnew' := (toInt_pos_iff (ack - una)).mp (of_decide_eq_true hnew)
  have hold' : ¬ 0 < (ack - nxt).toInt := of_decide_eq_false hold
  rw [toInt_pos_iff] at hold'
  by_contra hlt
  apply hold'
  rw [toNat_sub] at *
  rw [toNat_sub] at *
  omega

/-- The part of a control block that matters for what is sent. -/
structure SendView where
  active : Bool
  state : TcpState
  iss : Seq
  una : Seq
  nxt : Seq
  fin : Seq
  accepted : List Byte
  tx : List Byte

/-- The part of a control block that matters for what is sent. -/
def Tcb.sendView (t : Tcb) : SendView :=
  { active := t.active, state := t.state, iss := t.iss, una := t.sndUna, nxt := t.sndNxt
    fin := t.finSeq, accepted := t.accepted, tx := t.txBuf.toList }

/-- The part of the core that matters for what is sent. -/
def Core.sendView (k : Core) : SendView :=
  { active := k.active, state := k.state, iss := k.iss, una := k.una, nxt := k.nxt, fin := k.fin
    accepted := k.accepted, tx := k.tx.toList }

namespace SendView

/-- The sequence number of a position of the stream. -/
def seqAt (v : SendView) (p : ℕ) : Seq := v.iss + 1 + BitVec.ofNat 32 p

/-- The transmit buffer has the accepted bytes from `una` on. -/
def Buffered (v : SendView) : Prop :=
  ∃ p, v.una = v.seqAt p ∧ v.accepted.drop p = v.tx ∧ p ≤ v.accepted.length

/-- What the sequence numbers of a control block have to be in a phase. -/
def Fits (v : SendView) : Phase → Prop
  | .idle => v.accepted = [] ∧ v.tx = []
  | .connecting => v.accepted = [] ∧ v.tx = [] ∧ v.una = v.iss ∧ v.nxt = v.iss + 1
  | .streaming => v.Buffered ∧ (v.nxt - v.una).toNat ≤ v.tx.length
  | .finished => v.fin = v.seqAt v.accepted.length ∧ (v.tx = [] ∨ v.Buffered ∧ v.nxt = v.fin + 1)

/-- The sequence numbers of a control block agree with the bytes that it accepted. -/
structure Ok (v : SendView) : Prop where
  inactive : v.active = false → v.state = .closed
  fits : v.Fits v.state.phase

namespace Ok

variable {v : SendView}

theorem active (h : v.Ok) (hidle : v.state.phase ≠ .idle) :
  v.active = true
  := by
  by_contra ha
  rw [h.inactive (eq_false_of_ne_true ha)] at hidle
  exact hidle rfl

/-- A change within or between the phases of an open connection. -/
theorem change {w : SendView} (h : v.Ok) {phase : Phase} (hphase : v.state.phase = phase)
    (hidle : phase ≠ .idle) (hactive : w.active = v.active) (hfits : w.Fits w.state.phase) :
  w.Ok
  := by
  refine ⟨fun ha => ?_, hfits⟩
  rw [hactive, h.active (by rw [hphase]; exact hidle)] at ha
  cases ha

/-- A change within a phase. -/
theorem stay {w : SendView} (h : v.Ok) {phase : Phase} (hphase : v.state.phase = phase)
    (hidle : phase ≠ .idle) (hactive : w.active = v.active) (hstate : w.state = v.state)
    (hfits : w.Fits phase) :
  w.Ok
  := by
  apply h.change hphase hidle hactive
  rw [hstate, hphase]
  exact hfits

theorem fits_of (h : v.Ok) {phase : Phase} (hphase : v.state.phase = phase) :
  v.Fits phase
  := by
  rw [← hphase]
  exact h.fits

end Ok

end SendView

/-- An emitted segment agrees with the stream: its bytes are those at the position of its sequence
number, and a FIN is at the end. -/
def Sent.Faithful (e : Sent) : Prop :=
  ∀ iss accepted, e.origin = some (iss, accepted) → (e.seg.payload ≠ [] →
      ∃ p, e.seg.seq = iss + 1 + BitVec.ofNat 32 p ∧ e.seg.payload <+: accepted.drop p) ∧
    (e.seg.flags.fin = true → e.seg.seq = iss + 1 + BitVec.ofNat 32 accepted.length)

/-- A segment without data and without FIN. -/
theorem Sent.faithful_of_empty {e : Sent} (hpayload : e.seg.payload = [])
    (hfin : e.seg.flags.fin = false) :
  e.Faithful
  := by
  intro iss accepted _
  refine ⟨fun h => absurd hpayload h, fun h => ?_⟩
  rw [hfin] at h
  cases h

namespace Conn

variable {c : Conn} {v : SendView} {ack : Seq} {state : TcpState}

/-- Everything emitted agrees with the stream, and so does the control block. -/
structure SendOk (c : Conn) : Prop where
  sent : ∀ e ∈ c.sent, e.Faithful
  view : c.tcb.sendView.Ok

/-- The two differ in nothing that matters for what is sent, apart from segments without data and
without FIN. -/
structure SameSend (c d : Conn) : Prop where
  sent : ∀ e ∈ d.sent, e ∈ c.sent ∨ e.seg.payload = [] ∧ e.seg.flags.fin = false
  view : d.tcb.sendView = c.tcb.sendView

namespace SameSend

variable {c d : Conn}

theorem refl (c : Conn) :
  SameSend c c
  := ⟨fun _ h => .inl h, rfl⟩

section

variable (h : SameSend c d)
include h

theorem update {f : Tcb → Tcb} (hf : (f d.tcb).sendView = d.tcb.sendView) :
  SameSend c (d.update f)
  := ⟨h.sent, hf.trans h.view⟩

theorem sendOk (hc : c.SendOk) :
  d.SendOk
  := by
  refine ⟨fun e he => ?_, ?_⟩
  · obtain he' | ⟨hp, hf⟩ := h.sent e he
    · apply hc.sent e he'
    · apply Sent.faithful_of_empty hp hf
  · rw [h.view]
    apply hc.view

end

end SameSend

theorem SendOk.sameCore {d : Conn} (h : c.SendOk) (hd : c.SameCore d) :
  d.SendOk
  := SameSend.sendOk ⟨hd.sent, congrArg Core.sendView hd.core⟩ h

/-! ## Operations that do not send data -/

section

variable (c : Conn)

theorem setRetxTimer_sameSend (now : ℕ) :
  SameSend c (c.setRetxTimer now)
  := (SameSend.refl c).update rfl

theorem cancelRetxTimer_sameSend :
  SameSend c c.cancelRetxTimer
  := (SameSend.refl c).update rfl

theorem armRetxTimer_sameSend (now : ℕ) :
  SameSend c (c.armRetxTimer now)
  := by
  unfold armRetxTimer
  split_ifs
  · apply setRetxTimer_sameSend
  · apply SameSend.refl

theorem armRetxTimer_sent (now : ℕ) :
  (c.armRetxTimer now).sent = c.sent
  := by
  unfold armRetxTimer
  split_ifs <;> rfl

theorem restartRetxTimer_sameSend (now : ℕ) :
  SameSend c (c.restartRetxTimer now)
  := by
  unfold restartRetxTimer
  split_ifs
  · apply cancelRetxTimer_sameSend
  · exact ⟨fun _ h => .inl h, rfl⟩

end

/-- A block that is free or closed. -/
theorem SendOk.idle (h : c.SendOk) (hstate : c.tcb.state = .closed) :
  c.tcb.accepted = [] ∧ c.tcb.txBuf.toList = []
  := by
  have hfits := h.view.fits
  rw [show c.tcb.sendView.state = .closed from hstate] at hfits
  exact hfits

theorem SendOk.free (h : c.SendOk) (hfree : c.tcb.active = false) :
  c.tcb.accepted = [] ∧ c.tcb.txBuf.toList = []
  := h.idle (h.view.inactive hfree)

/-! ## Sending data -/

theorem mem_emitData {payload : List Byte} {e : Sent} (h : e ∈ (c.emitData payload).sent) :
  e ∈ c.sent ∨ e.origin = some (c.tcb.iss, c.tcb.accepted) ∧ e.seg.seq = c.tcb.sndNxt ∧
      e.seg.payload = payload ∧ e.seg.flags.fin = false
  := by
  obtain he | he := mem_append.mp h
  · exact .inl he
  · rw [mem_singleton.mp he]
    exact .inr ⟨rfl, rfl, rfl, rfl⟩

/-- What `flushTx` does: it emits the first bytes of the transmit buffer at `sndNxt`. -/
theorem flushTx_spec (c : Conn) (now : ℕ) :
  ∃ n, n ≤ c.tcb.txBuf.toList.length ∧ (c.flushTx now).tcb.sendView
      = { c.tcb.sendView with nxt := c.tcb.sndNxt + BitVec.ofNat 32 n } ∧
    ∀ e ∈ (c.flushTx now).sent, e ∈ c.sent ∨
      e.origin = some (c.tcb.iss, c.tcb.accepted) ∧ e.seg.seq = c.tcb.sndNxt ∧
        e.seg.payload = c.tcb.txBuf.toList.take n ∧ e.seg.flags.fin = false
  := by
  have hnone : { c.tcb.sendView with nxt := c.tcb.sndNxt + BitVec.ofNat 32 0 } = c.tcb.sendView := by
    rw [show BitVec.ofNat 32 0 = 0#32 from rfl, BitVec.add_zero]
    rfl
  unfold flushTx
  split_ifs with hlen hsend
  · exact ⟨0, Nat.zero_le _, hnone.symm, fun e he => .inl he⟩
  · exact ⟨0, Nat.zero_le _, hnone.symm, fun e he => .inl he⟩
  have hle : c.sendLen ≤ c.tcb.txBuf.toList.length := by
    rw [length_toList, sendLen]
    omega
  have hpeek := c.tcb.txBuf.peekAll_eq c.sendLen
  have hn : (c.tcb.txBuf.peekAll c.sendLen).length = c.sendLen := by
    rw [hpeek, length_take]
    omega
  have harm := armRetxTimer_sameSend (c.emitData (c.tcb.txBuf.peekAll c.sendLen)) now
  refine ⟨c.sendLen, hle, ?_, ?_⟩
  · rw [harm.view]
    show { c.tcb.sendView with
      nxt := c.tcb.sndNxt + BitVec.ofNat 32 (c.tcb.txBuf.peekAll c.sendLen).length } = _
    rw [hn]
  · intro e he
    rw [armRetxTimer_sent] at he
    rw [← hpeek]
    apply mem_emitData he

/-- Bytes of the transmit buffer are faithful at the position of the buffer. -/
theorem faithful_of_buffered (h : v.Buffered) {e : Sent} {n : ℕ}
    (horigin : e.origin = some (v.iss, v.accepted)) (hseq : e.seg.seq = v.una)
    (hpayload : e.seg.payload = v.tx.take n) (hfin : e.seg.flags.fin = false) :
  e.Faithful
  := by
  obtain ⟨p, hp, hdrop, _⟩ := h
  intro iss accepted ho
  rw [horigin] at ho
  cases ho
  refine ⟨fun _ => ⟨p, ?_, ?_⟩, fun hf => ?_⟩
  · rw [hseq, hp]
    rfl
  · rw [hpayload, hdrop]
    apply take_prefix
  · rw [hfin] at hf
    cases hf

theorem toNat_add_ofNat_sub (x : Seq) {n : ℕ} (h : n < 2 ^ 32) :
  (x + BitVec.ofNat 32 n - x).toNat = n
  := by
  have hx : x + BitVec.ofNat 32 n - x = BitVec.ofNat 32 n := by
    rw [BitVec.add_comm, BitVec.add_sub_cancel]
  rw [hx, toNat_ofNat, Nat.mod_eq_of_lt h]

theorem length_tx_le (t : Tcb) :
  t.sendView.tx.length ≤ bufSize
  := by
  show t.txBuf.toList.length ≤ bufSize
  rw [length_toList]
  apply t.txBuf.len_le

/-- Nothing is in flight, or the window is full. -/
def Settled (c : Conn) : Prop :=
  c.tcb.sndNxt = c.tcb.sndUna ∨ c.tcb.sndWnd ≤ (c.tcb.sndNxt - c.tcb.sndUna).toNat

instance (c : Conn) : Decidable c.Settled := inferInstanceAs (Decidable (_ ∨ _))

/-- A full window holds everything back. -/
theorem flushTx_of_full (now : ℕ) (h : c.tcb.sndWnd ≤ (c.tcb.sndNxt - c.tcb.sndUna).toNat) :
  c.flushTx now = c
  := by
  have hlen : c.sendLen = 0 := by
    show min _ (c.tcb.sndWnd - (c.tcb.sndNxt - c.tcb.sndUna).toNat) = 0
    rw [Nat.sub_eq_zero_of_le h, Nat.min_zero]
  unfold flushTx
  split_ifs <;> rfl

/-- Flushing the buffer of a settled connection. -/
theorem SendOk.flushTx (h : c.SendOk) (now : ℕ) (hphase : c.tcb.state.phase = .streaming)
    (hset : c.Settled) :
  (c.flushTx now).SendOk
  := by
  obtain hflight | hfull := hset
  · have hview := h.view.fits_of hphase
    obtain ⟨n, hn, heq, hnew⟩ := flushTx_spec c now
    refine ⟨fun e he => ?_, ?_⟩
    · obtain he | ⟨ho, hs, hp, hf⟩ := hnew e he
      · apply h.sent e he
      apply faithful_of_buffered hview.1 ho _ hp hf
      rw [hs, hflight]
      rfl
    · rw [heq]
      refine h.view.stay hphase (by decide) rfl rfl ⟨hview.1, ?_⟩
      show (c.tcb.sndNxt + BitVec.ofNat 32 n - c.tcb.sndUna).toNat ≤ c.tcb.txBuf.toList.length
      have hlen : c.tcb.txBuf.toList.length ≤ 8192 := length_tx_le c.tcb
      rw [hflight, toNat_add_ofNat_sub _ (by omega)]
      exact hn
  · rw [flushTx_of_full now hfull]
    apply h

/-- The buffered bytes after more bytes were accepted. -/
theorem acceptData_view (c : Conn) (data : List Byte) :
  (c.acceptData data).tcb.sendView = { c.tcb.sendView with
        accepted := c.tcb.accepted ++ data.take (c.tcb.txBuf.write data).1
        tx := c.tcb.txBuf.toList ++ data.take (c.tcb.txBuf.write data).1 }
  := by
  rw [← toList_write]
  rfl

theorem SendOk.acceptData (h : c.SendOk) (data : List Byte) (hphase : c.tcb.state.phase = .streaming) :
  (c.acceptData data).SendOk
  := by
  obtain ⟨⟨p, hp, hdrop, hle⟩, hflight⟩ := h.view.fits_of hphase
  use h.sent
  rw [acceptData_view]
  refine h.view.stay hphase (by decide) rfl rfl ⟨⟨p, hp, ?_, ?_⟩, ?_⟩
  · show (c.tcb.sendView.accepted ++ _).drop p = c.tcb.sendView.tx ++ _
    rw [drop_append_of_le_length hle, hdrop]
  · rw [length_append]
    apply Nat.le_add_right_of_le hle
  · rw [length_append]
    apply Nat.le_add_right_of_le hflight

/-- Sending on a settled connection. -/
theorem SendOk.tcpSend (h : c.SendOk) (data : List Byte) (now : ℕ) (hset : c.Settled) :
  (c.tcpSend data now).2.SendOk
  := by
  unfold Conn.tcpSend
  by_cases hstate : c.tcb.state ≠ .established ∧ c.tcb.state ≠ .closeWait
  · rw [if_pos hstate]
    apply h
  have hphase : c.tcb.state.phase = .streaming := by
    obtain hs | hs := Decidable.not_and_iff_or_not.mp hstate
    · rw [not_not.mp hs]
      rfl
    · rw [not_not.mp hs]
      rfl
  have haccept := h.acceptData data hphase
  rw [if_neg hstate]
  split_ifs
  · apply haccept.flushTx now hphase hset
  · apply haccept

/-! ## Acknowledgements -/

/-- The acknowledgement leaves nothing in flight, or nothing to send, or a full window. -/
def AckSettles (c : Conn) (hdr : Header) : Prop :=
  seqGt hdr.ack c.tcb.sndUna = true → seqGt hdr.ack c.tcb.sndNxt = false →
    hdr.ack = c.tcb.sndNxt ∨ c.tcb.txBuf.len ≤ (hdr.ack - c.tcb.sndUna).toNat ∨
      c.tcb.sndWnd ≤ (c.tcb.sndNxt - hdr.ack).toNat

instance (c : Conn) (hdr : Header) : Decidable (c.AckSettles hdr) :=
  inferInstanceAs (Decidable (_ → _))

/-- The buffered bytes after an acknowledgement of some of them. -/
theorem buffered_drop (h : v.Buffered) (hack : (ack - v.una).toNat ≤ v.tx.length) :
  { v with una := ack, tx := v.tx.drop (ack - v.una).toNat }.Buffered
  := by
  obtain ⟨p, hp, hdrop, hle⟩ := h
  refine ⟨p + (ack - v.una).toNat, ?_, ?_, ?_⟩
  · show ack = v.iss + 1 + BitVec.ofNat 32 (p + (ack - v.una).toNat)
    rw [BitVec.ofNat_add, ← BitVec.add_assoc, BitVec.ofNat_toNat, BitVec.setWidth_eq]
    show ack = v.seqAt p + (ack - v.una)
    rw [← hp, BitVec.add_comm, sub_add_cancel]
  · rw [← hdrop, drop_drop]
  · show _ ≤ v.accepted.length
    rw [← hdrop, length_drop] at hack
    omega

theorem toNat_sub_sub {una nxt : Seq} (h : (ack - una).toNat ≤ (nxt - una).toNat) :
  (nxt - ack).toNat = (nxt - una).toNat - (ack - una).toNat
  := by
  have hsub : nxt - ack = (nxt - una) - (ack - una) := by
    bv_omega
  rw [hsub, toNat_sub_of_le h]

theorem advance_view (c : Conn) (hdr : Header) :
  (c.advance hdr).tcb.sendView = { c.tcb.sendView with
        una := hdr.ack, tx := c.tcb.sendView.tx.drop (hdr.ack - c.tcb.sndUna).toNat }
  := by
  show _ = { c.tcb.sendView with
    una := hdr.ack, tx := c.tcb.txBuf.toList.drop (hdr.ack - c.tcb.sndUna).toNat }
  rw [← toList_drain]
  rfl

/-- The bytes before a FIN that are not acknowledged. -/
theorem toNat_fin_sub (hb : v.Buffered) (hfin : v.fin = v.seqAt v.accepted.length)
    (hlen : v.tx.length < 2 ^ 31) :
  (v.fin + 1 - v.una).toNat = v.tx.length + 1
  := by
  obtain ⟨p, hp, hdrop, hle⟩ := hb
  have hsum : v.accepted.length = p + v.tx.length := by
    rw [← hdrop, length_drop]
    omega
  have hseq : v.fin + 1 - v.una = BitVec.ofNat 32 (v.tx.length + 1) := by
    rw [hfin, hp, hsum, SendView.seqAt, SendView.seqAt]
    bv_omega
  rw [hseq, toNat_ofNat, Nat.mod_eq_of_lt (by omega)]

/-- An acknowledgement of new data moves the buffer forward. -/
theorem SendOk.advance (h : c.SendOk) (hdr : Header)
    (hphase : c.tcb.state.phase = .streaming ∨ c.tcb.state.phase = .finished)
    (hnew : seqGt hdr.ack c.tcb.sndUna = true) (hold : seqGt hdr.ack c.tcb.sndNxt = false) :
  (c.advance hdr).SendOk
  := by
  have hlen : c.tcb.sendView.tx.length ≤ 8192 := length_tx_le c.tcb
  use h.sent
  rw [advance_view]
  obtain hphase | hphase := hphase
  · obtain ⟨hb, hflight⟩ := h.view.fits_of hphase
    have hacked : (hdr.ack - c.tcb.sndUna).toNat ≤ (c.tcb.sndNxt - c.tcb.sndUna).toNat :=
      acked_le (hflight.trans_lt (by omega)) hnew hold
    refine h.view.stay hphase (by decide) rfl rfl ⟨buffered_drop hb (hacked.trans hflight), ?_⟩
    show (c.tcb.sndNxt - hdr.ack).toNat ≤ (c.tcb.sendView.tx.drop _).length
    rw [toNat_sub_sub hacked, length_drop]
    apply Nat.sub_le_sub_right hflight
  · obtain ⟨hfin, hrest⟩ := h.view.fits_of hphase
    refine h.view.stay hphase (by decide) rfl rfl ⟨hfin, ?_⟩
    obtain htx | ⟨hb, hnxt⟩ := hrest
    · left
      rw [htx, drop_nil]
    by_cases hle : (hdr.ack - c.tcb.sndUna).toNat ≤ c.tcb.sendView.tx.length
    · exact .inr ⟨buffered_drop hb hle, hnxt⟩
    left
    apply drop_eq_nil_of_le
    omega

theorem restartRetxTimer_sndWnd (c : Conn) (now : ℕ) :
  (c.restartRetxTimer now).tcb.sndWnd = c.tcb.sndWnd
  := by
  unfold restartRetxTimer
  split_ifs <;> rfl

theorem sendMore_of_held (now : ℕ)
    (h : c.tcb.txBuf.toList = [] ∨ c.tcb.sndWnd ≤ (c.tcb.sndNxt - c.tcb.sndUna).toNat) :
  c.sendMore now = c
  := by
  unfold sendMore
  split_ifs
  · obtain h | h := h
    · exact if_pos ((toList_eq_nil_iff _).mp h)
    · apply flushTx_of_full now h
  · rfl

/-- Sending more when nothing is in flight, or nothing can be sent. -/
theorem SendOk.sendMore (h : c.SendOk) (now : ℕ)
    (hset : c.tcb.state.phase = .streaming ∧ c.tcb.sndNxt = c.tcb.sndUna ∨
      c.tcb.txBuf.toList = [] ∨ c.tcb.sndWnd ≤ (c.tcb.sndNxt - c.tcb.sndUna).toNat) :
  (c.sendMore now).SendOk
  := by
  obtain ⟨hphase, hset⟩ | hheld := hset
  · unfold Conn.sendMore
    split_ifs
    · apply h.flushTx now hphase (.inl hset)
    · apply h
  · rw [sendMore_of_held now hheld]
    apply h

/-- An acknowledgement that covers the FIN covers all bytes. -/
theorem SendOk.tx_drop_of_ack_nxt (h : c.SendOk) {hdr : Header}
    (hphase : c.tcb.state.phase = .finished) (hack : hdr.ack = c.tcb.sndNxt) :
  c.tcb.sendView.tx.drop (hdr.ack - c.tcb.sndUna).toNat = []
  := by
  have hlen : c.tcb.sendView.tx.length ≤ 8192 := length_tx_le c.tcb
  obtain ⟨hfin, htx | ⟨hb, hnxt⟩⟩ := h.view.fits_of hphase
  · rw [htx, drop_nil]
  apply drop_eq_nil_of_le
  have hsub := toNat_fin_sub hb hfin (by omega)
  rw [hack, show c.tcb.sndNxt = _ from hnxt]
  show _ ≤ (c.tcb.sendView.fin + 1 - c.tcb.sendView.una).toNat
  omega

/-- `processAck` with an acknowledgement that settles the connection. -/
theorem SendOk.processAck (h : c.SendOk) (hdr : Header) (now : ℕ)
    (hphase : c.tcb.state.phase = .streaming ∨ c.tcb.state.phase = .finished)
    (hset : c.AckSettles hdr) :
  (c.processAck hdr now).SendOk
  := by
  unfold Conn.processAck
  split_ifs with hold hnew
  · apply h
  · have hold' : seqGt hdr.ack c.tcb.sndNxt = false := eq_false_of_ne_true hold
    have hadv := h.advance hdr hphase hnew hold'
    have hrestart := restartRetxTimer_sameSend (c.advance hdr) now
    have hview := hrestart.view.trans (advance_view c hdr)
    have hmore : (((c.advance hdr).restartRetxTimer now).sendMore now).SendOk := by
      apply (hrestart.sendOk hadv).sendMore now
      have htx : ((c.advance hdr).restartRetxTimer now).tcb.txBuf.toList
          = c.tcb.sendView.tx.drop (hdr.ack - c.tcb.sndUna).toNat :=
        congrArg SendView.tx hview
      have hnxt : ((c.advance hdr).restartRetxTimer now).tcb.sndNxt = c.tcb.sndNxt :=
        congrArg SendView.nxt hview
      have huna : ((c.advance hdr).restartRetxTimer now).tcb.sndUna = hdr.ack :=
        congrArg SendView.una hview
      have hstate : ((c.advance hdr).restartRetxTimer now).tcb.state = c.tcb.state :=
        congrArg SendView.state hview
      rw [htx, hnxt, huna, hstate, restartRetxTimer_sndWnd]
      obtain hack | hlen | hfull := hset hnew hold'
      · obtain hphase | hphase := hphase
        · exact .inl ⟨hphase, hack.symm⟩
        · exact .inr (.inl (h.tx_drop_of_ack_nxt hphase hack))
      · right
        left
        apply drop_eq_nil_of_le
        show c.tcb.txBuf.toList.length ≤ _
        rw [length_toList]
        exact hlen
      · exact .inr (.inr hfull)
    exact ⟨hmore.sent, hmore.view⟩
  · exact ⟨h.sent, h.view⟩

/-! ## Incoming segments -/

/-- A change of the state within a phase. -/
theorem SendOk.withState (h : c.SendOk) {f : Tcb → Tcb}
    (hf : (f c.tcb).sendView = { c.tcb.sendView with state }) {phase : Phase}
    (hphase : c.tcb.state.phase = phase) (hidle : phase ≠ .idle) (hstate : state.phase = phase) :
  (c.update f).SendOk
  := by
  use h.sent
  show (f c.tcb).sendView.Ok
  rw [hf]
  refine h.view.change hphase hidle rfl ?_
  have hfits := h.view.fits_of hphase
  rw [hstate]
  cases phase <;> exact hfits

/-- The segment does not move the send side to where data would be labelled wrongly. -/
def AckCareful (c : Conn) (hdr : Header) : Prop :=
  hdr.flags.ack = true →
    match c.tcb.state with
    | .synReceived => hdr.ack ≠ c.tcb.sndUna
    | .established | .closeWait | .finWait1 | .finWait2 => c.AckSettles hdr
    | _ => True

instance (c : Conn) (hdr : Header) : Decidable (c.AckCareful hdr) := by
  unfold AckCareful
  cases c.tcb.state <;> infer_instance

/-- An acceptable acknowledgement of a SYN is the one of the next sequence number. -/
theorem ack_eq_of_acceptable {iss : Seq} (hnew : seqLe ack iss = false)
    (hold : seqGt ack (iss + 1) = false) :
  ack = iss + 1
  := by
  have hnew' : ¬ (ack - iss).toInt ≤ 0 := of_decide_eq_false hnew
  have hold' : ¬ 0 < (ack - (iss + 1)).toInt := of_decide_eq_false hold
  rw [toInt_nonpos_iff] at hnew'
  rw [toInt_pos_iff] at hold'
  bv_omega

theorem ack_eq_of_between {iss : Seq} (hnew : seqLe iss ack = true)
    (hold : seqLe ack (iss + 1) = true) (hne : ack ≠ iss) :
  ack = iss + 1
  := by
  have hnew' := (toInt_nonpos_iff _).mp (of_decide_eq_true hnew)
  have hold' := (toInt_nonpos_iff _).mp (of_decide_eq_true hold)
  bv_omega

/-- The connection is established once the SYN is acknowledged. -/
theorem fits_streaming_of_connected (haccepted : v.accepted = []) (htx : v.tx = [])
    (huna : v.una = v.iss + 1) (hnxt : v.nxt = v.iss + 1) :
  v.Fits .streaming
  := by
  refine ⟨⟨0, ?_, ?_, Nat.zero_le _⟩, ?_⟩
  · rw [huna, SendView.seqAt]
    exact (BitVec.add_zero _).symm
  · rw [haccepted, htx, drop_nil]
  · rw [huna, hnxt, BitVec.sub_self]
    apply Nat.zero_le

theorem SendOk.answerSyn (h : c.SendOk) (hdr : Header) (hstate : c.tcb.state = .synSent)
    (hack : hdr.flags.ack = true → hdr.ack = c.tcb.iss + 1) :
  (c.takeSyn hdr).answerSyn.SendOk
  := by
  have hphase : c.tcb.state.phase = .connecting := by rw [hstate]; rfl
  obtain ⟨haccepted, htx, huna, hnxt⟩ := h.view.fits_of hphase
  unfold Conn.answerSyn
  split_ifs with hgt
  · have hest : ((c.takeSyn hdr).setState .established).SendOk := by
      refine ⟨h.sent, h.view.change hphase (by decide) rfl ?_⟩
      refine fits_streaming_of_connected haccepted htx ?_ hnxt
      show (if hdr.flags.ack then hdr.ack else c.tcb.sndUna) = c.tcb.iss + 1
      split_ifs with hf
      · exact hack hf
      exfalso
      have hgt' : seqGt (if hdr.flags.ack then hdr.ack else c.tcb.sndUna) c.tcb.iss = true := hgt
      rw [if_neg hf, show c.tcb.sndUna = c.tcb.iss from huna] at hgt'
      unfold seqGt at hgt'
      rw [BitVec.sub_self] at hgt'
      cases hgt'
    have hcancel := cancelRetxTimer_sameSend ((c.takeSyn hdr).setState .established)
    exact (hcancel.sendOk hest).sameCore ((SameCore.refl _).sendAck.trans (reportConnect_sameCore _))
  · have hrcv : ((c.takeSyn hdr).setState .synReceived).SendOk := by
      refine ⟨h.sent, h.view.change hphase (by decide) rfl ?_⟩
      refine ⟨haccepted, htx, ?_, hnxt⟩
      show (if hdr.flags.ack then hdr.ack else c.tcb.sndUna) = c.tcb.iss
      split_ifs with hf
      · exfalso
        apply hgt
        show seqGt (if hdr.flags.ack then hdr.ack else c.tcb.sndUna) c.tcb.iss = true
        rw [if_pos hf, hack hf, seqGt, BitVec.add_comm, BitVec.add_sub_cancel]
        decide
      · exact huna
    exact hrcv.sameCore ((SameCore.refl _).append rfl rfl)

/-- A change of the state after the FIN. -/
theorem SendOk.finished {d : Conn} (h : c.SendOk) (hphase : c.tcb.state.phase = .finished)
    (hstate : d.tcb.state.phase = .finished) (hsent : d.sent = c.sent)
    (hcore : d.tcb.core = { c.tcb.core with state := d.tcb.state }) :
  d.SendOk
  := by
  have hd : (c.update fun _ => d.tcb).SendOk :=
    h.withState (congrArg Core.sendView hcore) hphase (by decide) hstate
  refine ⟨fun e he => ?_, hd.view⟩
  rw [hsent] at he
  exact hd.sent e he

/-- The acknowledgement of the own SYN. -/
theorem SendOk.accepted (h : c.SendOk) (hdr : Header) (hstate : c.tcb.state = .synReceived)
    (hnew : seqLe c.tcb.sndUna hdr.ack = true) (hold : seqLe hdr.ack c.tcb.sndNxt = true)
    (hne : hdr.ack ≠ c.tcb.sndUna) :
  (c.update fun t =>
    { t with sndUna := hdr.ack, sndWnd := hdr.window, state := .established
      }).cancelRetxTimer.SendOk
  := by
  have hphase : c.tcb.state.phase = .connecting := by rw [hstate]; rfl
  obtain ⟨haccepted, htx, huna, hnxt⟩ := h.view.fits_of hphase
  apply (cancelRetxTimer_sameSend _).sendOk
  refine ⟨h.sent, h.view.change hphase (by decide) rfl ?_⟩
  refine fits_streaming_of_connected haccepted htx ?_ hnxt
  rw [show c.tcb.sndUna = c.tcb.iss from huna] at hnew hne
  rw [show c.tcb.sndNxt = c.tcb.iss + 1 from hnxt] at hold
  exact ack_eq_of_between hnew hold hne

/-! ## Connecting and closing -/

theorem SendOk.tcpConnect (h : c.SendOk) (ip port : ℕ) (isn : Seq) (call now : ℕ)
    (hstate : c.tcb.state = .closed) (hactive : c.tcb.active = true) :
  (c.tcpConnect ip port isn call now).SendOk
  := by
  obtain ⟨haccepted, htx⟩ := h.idle hstate
  apply SendOk.mk
  · intro e he
    obtain he | he := mem_append.mp he
    · apply h.sent e he
    rw [mem_singleton.mp he]
    apply Sent.faithful_of_empty
    · rfl
    · rfl
  · refine ⟨fun ha => ?_, haccepted, htx, rfl, rfl⟩
    rw [show c.tcb.active = false from ha] at hactive
    cases hactive

/-- A FIN at the end of the stream. -/
theorem faithful_emitFin (hsent : ∀ e ∈ c.sent, e.Faithful)
    (hfin : c.tcb.sendView.fin = c.tcb.sendView.seqAt c.tcb.sendView.accepted.length) :
  ∀ e ∈ c.emitFin.sent, e.Faithful
  := by
  intro e he
  obtain he | he := mem_append.mp he
  · apply hsent e he
  rw [mem_singleton.mp he]
  intro iss accepted ho
  cases ho
  exact ⟨fun hp => absurd rfl hp, fun _ => hfin⟩

/-- Everything that was accepted is in flight. -/
def AllSent (c : Conn) : Prop :=
  c.tcb.state.phase = .streaming → (c.tcb.sndNxt - c.tcb.sndUna).toNat = c.tcb.txBuf.len

instance (c : Conn) : Decidable c.AllSent := inferInstanceAs (Decidable (_ → _))

/-- The next sequence number comes after all bytes. -/
theorem nxt_eq_of_buffered (hb : v.Buffered) (hall : (v.nxt - v.una).toNat = v.tx.length) :
  v.nxt = v.seqAt v.accepted.length
  := by
  obtain ⟨p, hp, hdrop, hle⟩ := hb
  have hsum : v.accepted.length = p + v.tx.length := by
    rw [← hdrop, length_drop]
    omega
  have hsub : v.nxt - v.una = BitVec.ofNat 32 v.tx.length := by
    rw [← hall, BitVec.ofNat_toNat, BitVec.setWidth_eq]
  rw [hsum, SendView.seqAt, BitVec.ofNat_add, ← BitVec.add_assoc, ← hsub]
  show v.nxt = v.seqAt p + (v.nxt - v.una)
  rw [← hp, BitVec.add_comm, sub_add_cancel]

/-- Sending a FIN when everything is in flight. -/
theorem SendOk.sendFin (h : c.SendOk) (now : ℕ)
    (hphase : c.tcb.state = .synReceived ∨ c.tcb.state.phase = .streaming)
    (hstate : state.phase = .finished) (hall : c.AllSent) :
  (c.sendFin state now).SendOk
  := by
  obtain ⟨hnxt, htx, hidle⟩ :
      c.tcb.sendView.nxt = c.tcb.sendView.seqAt c.tcb.sendView.accepted.length ∧
        (c.tcb.sendView.tx = [] ∨ c.tcb.sendView.Buffered) ∧ c.tcb.state.phase ≠ .idle := by
    obtain hphase | hphase := hphase
    · have hconnecting : c.tcb.state.phase = .connecting := congrArg TcpState.phase hphase
      obtain ⟨haccepted, htx, -, hnxt⟩ := h.view.fits_of hconnecting
      refine ⟨?_, .inl htx, by rw [hconnecting]; decide⟩
      rw [haccepted, hnxt]
      exact (BitVec.add_zero _).symm
    · have hb := (h.view.fits_of hphase).1
      refine ⟨nxt_eq_of_buffered hb ?_, .inr hb, by rw [hphase]; decide⟩
      show (c.tcb.sndNxt - c.tcb.sndUna).toNat = c.tcb.txBuf.toList.length
      rw [hall hphase, length_toList]
  apply SendOk.mk
  · exact faithful_emitFin (c := c.update fun t => { t with finSeq := t.sndNxt }) h.sent hnxt
  refine h.view.change rfl hidle rfl ?_
  show SendView.Fits _ state.phase
  rw [hstate]
  exact ⟨hnxt, htx.imp_right fun hb => ⟨hb, rfl⟩⟩

/-! ## Timers and changes of the address -/

section

variable (h : c.SendOk)
include h

/-- Data that is sent again from the first byte that is not acknowledged. -/
theorem SendOk.resend (n : ℕ) (hphase : c.tcb.state.phase = .streaming) :
  (c.rewind.emitData (c.tcb.txBuf.peekAll n)).SendOk
  := by
  have hb := (h.view.fits_of hphase).1
  have hlen : c.tcb.txBuf.toList.length ≤ 8192 := length_tx_le c.tcb
  apply SendOk.mk
  · intro e he
    obtain he | ⟨ho, hs, hp, hf⟩ := mem_emitData he
    · apply h.sent e he
    · rw [peekAll_eq] at hp
      apply faithful_of_buffered hb ho hs hp hf
  refine h.view.stay hphase (by decide) rfl rfl ⟨hb, ?_⟩
  show (c.tcb.sndUna + BitVec.ofNat 32 (c.tcb.txBuf.peekAll n).length - c.tcb.sndUna).toNat
    ≤ c.tcb.txBuf.toList.length
  have hle : (c.tcb.txBuf.peekAll n).length ≤ c.tcb.txBuf.toList.length := by
    rw [peekAll_eq]
    apply length_take_le'
  rw [toNat_add_ofNat_sub _ (by omega)]
  exact hle

theorem SendOk.emitFin (hphase : c.tcb.state.phase = .finished) :
  c.emitFin.SendOk
  := ⟨faithful_emitFin h.sent (h.view.fits_of hphase).1, h.view⟩

theorem SendOk.retransmit :
  c.retransmit.SendOk
  := by
  unfold Conn.retransmit
  split
  case h_1 => exact h.sameCore ((SameCore.refl c).append rfl rfl)
  case h_2 => exact h.sameCore ((SameCore.refl c).append rfl rfl)
  case h_3 hstate =>
    split_ifs
    · apply h.resend _ (by rw [hstate]; rfl)
    · apply h
  case h_4 hstate =>
    split_ifs
    · apply h.resend _ (by rw [hstate]; rfl)
    · apply h
  case h_5 hstate => apply h.emitFin (by rw [hstate]; rfl)
  case h_6 hstate => apply h.emitFin (by rw [hstate]; rfl)
  case h_7 hstate => apply h.emitFin (by rw [hstate]; rfl)
  case h_8 => apply h

end

end Conn

end SaltyOS.Tcp
