import SaltyOS.Tcp.Identifiers

/-!
# Socket identifiers

The network server keeps its TCP and its UDP sockets in two tables and finds the table of a request by
the range its identifier lies in.  This module models the UDP table as far as identifiers go, beside
the whole TCP model, and shows under which condition every active socket is the only one with its
identifier and is looked for in the table it lives in.
-/

namespace SaltyOS.Net

open Function List

open Tcp (System)

/-! ## Identifiers of a table -/

/-- Two active entries of a table have different identifiers. -/
def Distinct {ι : Type*} (ids : ι → Bool × ℕ) : Prop :=
  ∀ i j, (ids i).1 = true → (ids j).1 = true → (ids i).2 = (ids j).2 → i = j

namespace Distinct

variable {ι : Type*} {ids ids' : ι → Bool × ℕ}

/-- Entries that keep their identifiers or become inactive stay distinct. -/
theorem keeps (h : Distinct ids) (hkeeps : ∀ i, (ids' i).1 = true → ids' i = ids i) :
  Distinct ids'
  := by
  intro i j hi hj hij
  have hidi := hkeeps i hi
  have hidj := hkeeps j hj
  rw [hidi] at hi hij
  rw [hidj] at hj hij
  exact h i j hi hj hij

/-- An entry that takes an identifier no active entry has is distinct from all others. -/
theorem takes (h : Distinct ids) {j : ι} (hkeeps : ∀ i, i ≠ j → (ids' i).1 = true → ids' i = ids i)
    (hfresh : ∀ i, (ids i).1 = true → (ids i).2 ≠ (ids' j).2) :
  Distinct ids'
  := by
  have hne : ∀ k, k ≠ j → (ids' k).1 = true → (ids' k).2 ≠ (ids' j).2 := by
    intro k hkj hk
    have hidk := hkeeps k hkj hk
    rw [hidk] at hk ⊢
    exact hfresh k hk
  intro i k hi hk hik
  by_cases hij : i = j
  · subst hij
    by_contra hki
    exact hne k (Ne.symm hki) hk hik.symm
  by_cases hkj : k = j
  · subst hkj
    exact absurd hik (hne i hij hi)
  have hidi := hkeeps i hij hi
  have hidk := hkeeps k hkj hk
  rw [hidi] at hi hik
  rw [hidk] at hk hik
  exact h i k hi hk hik

end Distinct

/-! ## The UDP table -/

/-- `MAX_UDP_SOCKETS`. -/
abbrev maxUdpSockets : ℕ := 8

/-- A `UdpSocket`, as far as its identifier goes. -/
structure UdpEntry where
  active : Bool
  connId : ℕ
  deriving DecidableEq, Repr

/-- `UDP_SOCKETS` and `NEXT_UDP_CONN_ID`. -/
structure UdpTable where
  sockets : Fin maxUdpSockets → UdpEntry
  nextConnId : ℕ

namespace UdpTable

/-- The table at boot. -/
def initial : UdpTable where
  sockets := fun _ => { active := false, connId := 0 }
  nextConnId := 1000

variable (u : UdpTable)

/-- `find_socket`. -/
def findSocket (connId : ℕ) : Option (Fin maxUdpSockets) :=
  (finRange maxUdpSockets).find? fun i => (u.sockets i).active && (u.sockets i).connId == connId

/-- The first inactive entry. -/
def findFree : Option (Fin maxUdpSockets) :=
  (finRange maxUdpSockets).find? fun i => !(u.sockets i).active

/-- Write an entry. -/
def setSocket (i : Fin maxUdpSockets) (e : UdpEntry) : UdpTable :=
  { u with sockets := update u.sockets i e }

/-- `udp_socket`. -/
def udpSocket : UdpTable :=
  match u.findFree with
  | none => u
  | some i =>
    { u.setSocket i { active := true, connId := u.nextConnId } with
      nextConnId := (u.nextConnId + 1) % 2 ^ 32 }

/-- `udp_close`. -/
def udpClose (connId : ℕ) : UdpTable :=
  match u.findSocket connId with
  | none => u
  | some i => u.setSocket i { u.sockets i with active := false }

/-- The identifiers of the table. -/
def ids (i : Fin maxUdpSockets) : Bool × ℕ :=
  ((u.sockets i).active, (u.sockets i).connId)

theorem ids_setSocket (i : Fin maxUdpSockets) (e : UdpEntry) :
  (u.setSocket i e).ids = update u.ids i (e.active, e.connId)
  := comp_update (fun e : UdpEntry => (e.active, e.connId)) u.sockets i e

end UdpTable

/-! ## The two tables -/

/-- `SocketKind`. -/
inductive SocketKind where
  | tcp
  | udp
  | raw
  deriving DecidableEq, Repr

/-- `socket_kind`. -/
def socketKind (connId : ℕ) : SocketKind :=
  if connId ≥ 2000 then .raw
  else if connId ≥ 1000 then .udp
  else .tcp

/-- The sockets of the server. -/
structure Sockets where
  tcp : System
  udp : UdpTable

namespace Sockets

variable {s : System} {u : UdpTable} {n next : ℕ}

/-- The events that change the tables.  A TCP event is any event of the TCP model, and `NET_CLOSE` and
`NET_SHUTDOWN` go to the table that `socket_kind` names. -/
inductive Event where
  | tcp (e : System.Event)
  | udpSocket
  | close (connId now : ℕ)
  | shutdown (connId how now : ℕ)

/-- The sockets after an event. -/
def Event.exec (s : Sockets) : Event → Sockets
  | tcp e => { s with tcp := e.exec s.tcp }
  | udpSocket => { s with udp := s.udp.udpSocket }
  | close connId now =>
    match socketKind connId with
    | .raw => s
    | .udp => { s with udp := s.udp.udpClose connId }
    | .tcp => { s with tcp := s.tcp.tcpClose connId now }
  | shutdown connId how now =>
    match socketKind connId with
    | .raw => s
    | .udp => { s with udp := s.udp.udpClose connId }
    | .tcp => { s with tcp := s.tcp.tcpShutdown connId how now }

/-- The sockets at boot. -/
def initial (ourIp : ℕ) : Sockets where
  tcp := System.initial ourIp
  udp := UdpTable.initial

/-- The identifiers of the TCP table. -/
def tcpIds (s : Sockets) (i : Fin Tcp.maxTcpConns) : Bool × ℕ := (s.tcp.tcbs i).ident

/-- No two active sockets have the same identifier, and `socket_kind` names the table of each. -/
structure Unambiguous (s : Sockets) : Prop where
  tcp : Distinct s.tcpIds
  udp : Distinct s.udp.ids
  apart : ∀ i j, (s.tcpIds i).1 = true → (s.udp.ids j).1 = true → (s.tcpIds i).2 ≠ (s.udp.ids j).2
  tcp_kind : ∀ i, (s.tcpIds i).1 = true → socketKind (s.tcpIds i).2 = .tcp
  udp_kind : ∀ i, (s.udp.ids i).1 = true → socketKind (s.udp.ids i).2 = .udp

/-- The event takes only identifiers that are free: a TCP socket one that no active TCP socket has, a
UDP socket one below the range of raw sockets. -/
def Careful (s : Sockets) : Event → Prop
  | .tcp e => e.takesId s.tcp = true → ∀ i, (s.tcpIds i).1 = true → (s.tcpIds i).2 ≠ s.tcp.nextConnId
  | .udpSocket => s.udp.findFree.isSome = true → s.udp.nextConnId < 2000
  | _ => True

/-- One careful event. -/
def Step (s t : Sockets) : Prop := ∃ e : Event, s.Careful e ∧ e.exec s = t

/-! ## The invariant -/

/-- The identifiers of the TCP table are distinct and lie between 1 and 999. -/
structure TcpOk (s : System) : Prop where
  distinct : Distinct fun i => (s.tcbs i).ident
  next : 1 ≤ s.nextConnId ∧ s.nextConnId ≤ 999
  range : ∀ i, (s.tcbs i).ident.1 = true → (s.tcbs i).ident.2 ≤ 999

/-- The identifiers of the UDP table are distinct and lie between 1000 and the next one. -/
structure UdpOk (u : UdpTable) : Prop where
  distinct : Distinct u.ids
  next : 1000 ≤ u.nextConnId ∧ u.nextConnId ≤ 2000
  range : ∀ i, (u.ids i).1 = true → 1000 ≤ (u.ids i).2 ∧ (u.ids i).2 < u.nextConnId

theorem TcpOk.keepsIds {t : System} (h : TcpOk s) (hkeeps : s.KeepsIds t) :
  TcpOk t
  := by
  refine ⟨h.distinct.keeps hkeeps.block, ?_, ?_⟩
  · rw [hkeeps.next]
    exact h.next
  intro i hi
  have hident : (t.tcbs i).ident = (s.tcbs i).ident := hkeeps.block i hi
  rw [hident] at hi ⊢
  exact h.range i hi

/-- A new identifier that nobody has is given to one block. -/
theorem TcpOk.takesId {t : System} (h : TcpOk s) {j : Fin Tcp.maxTcpConns} (htakes : s.TakesId t j)
    (hfresh : ∀ i, (s.tcbs i).ident.1 = true → (s.tcbs i).ident.2 ≠ s.nextConnId) :
  TcpOk t
  := by
  refine ⟨h.distinct.takes (j := j) htakes.block ?_, ?_, ?_⟩
  · intro i hi
    rw [htakes.ident]
    exact hfresh i hi
  · rw [htakes.next]
    unfold System.allocConnId
    dsimp only
    split_ifs <;> omega
  · intro i hi
    by_cases hij : i = j
    · rw [hij, htakes.ident]
      exact h.next.2
    have hident : (t.tcbs i).ident = (s.tcbs i).ident := htakes.block i hij hi
    rw [hident] at hi ⊢
    exact h.range i hi

/-- A new UDP socket takes the next identifier, which must stay in its range. -/
theorem UdpOk.udpSocket (h : UdpOk u) (hcareful : u.findFree.isSome = true → u.nextConnId < 2000) :
  UdpOk u.udpSocket
  := by
  unfold UdpTable.udpSocket
  rcases hfree : u.findFree with _ | i
  · exact h
  have hnext := h.next
  have hbelow : u.nextConnId < 2000 := hcareful (by rw [hfree]; rfl)
  have hids := u.ids_setSocket i { active := true, connId := u.nextConnId }
  refine ⟨?_, ?_, ?_⟩
  · change Distinct (u.setSocket i _).ids
    rw [hids]
    apply h.distinct.takes (j := i)
    · intro k hk _
      rw [update_of_ne hk]
    intro k hk
    rw [update_self]
    exact (h.range k hk).2.ne
  · change 1000 ≤ (u.nextConnId + 1) % 2 ^ 32 ∧ (u.nextConnId + 1) % 2 ^ 32 ≤ 2000
    omega
  · intro k
    change ((u.setSocket i _).ids k).1 = true → 1000 ≤ ((u.setSocket i _).ids k).2 ∧
      ((u.setSocket i _).ids k).2 < (u.nextConnId + 1) % 2 ^ 32
    rw [hids]
    revert k
    apply (forall_update_iff u.ids fun _ p => p.1 = true → 1000 ≤ p.2 ∧ p.2 < _).mpr
    refine ⟨by dsimp only; omega, fun k _ hk => ?_⟩
    have hrange := h.range k hk
    omega

theorem UdpOk.udpClose (h : UdpOk u) (connId : ℕ) :
  UdpOk (u.udpClose connId)
  := by
  unfold UdpTable.udpClose
  obtain _ | i := u.findSocket connId
  · exact h
  have hkeeps : ∀ k, ((u.setSocket i { u.sockets i with active := false }).ids k).1 = true →
      (u.setSocket i { u.sockets i with active := false }).ids k = u.ids k := by
    rw [UdpTable.ids_setSocket]
    apply (forall_update_iff u.ids fun k p => p.1 = true → p = u.ids k).mpr
    exact ⟨nofun, fun _ _ _ => rfl⟩
  use h.distinct.keeps hkeeps, h.next
  intro k hk
  have hid := hkeeps k hk
  rw [hid] at hk ⊢
  exact h.range k hk

/-- Both tables are in order. -/
structure Ok (s : Sockets) : Prop where
  tcp : TcpOk s.tcp
  udp : UdpOk s.udp

theorem ok_initial (ourIp : ℕ) :
  (initial ourIp).Ok
  := by
  refine ⟨⟨?_, ?_, ?_⟩, ⟨?_, ?_, ?_⟩⟩
  · exact nofun
  · exact ⟨Nat.le_refl 1, Nat.le_of_ble_eq_true rfl⟩
  · exact nofun
  · exact nofun
  · exact ⟨Nat.le_refl 1000, Nat.le_of_ble_eq_true rfl⟩
  · exact nofun

/-- One request or event. -/
theorem Ok.step {s t : Sockets} (h : s.Ok) (hst : s.Step t) :
  t.Ok
  := by
  obtain ⟨e, hcareful, rfl⟩ := hst
  cases e with
  | tcp e =>
    obtain hkeeps | ⟨htakes, j, hj⟩ := s.tcp.idStep_exec e
    · exact ⟨h.tcp.keepsIds hkeeps, h.udp⟩
    · exact ⟨h.tcp.takesId hj (hcareful htakes), h.udp⟩
  | udpSocket => exact ⟨h.tcp, h.udp.udpSocket hcareful⟩
  | close connId now =>
    unfold Event.exec
    dsimp only
    split
    · exact h
    · exact ⟨h.tcp, h.udp.udpClose connId⟩
    · exact ⟨h.tcp.keepsIds (Tcp.System.keepsIds_exec (e := .close connId now) rfl), h.udp⟩
  | shutdown connId how now =>
    unfold Event.exec
    dsimp only
    split
    · exact h
    · exact ⟨h.tcp, h.udp.udpClose connId⟩
    · exact ⟨h.tcp.keepsIds (Tcp.System.keepsIds_exec (e := .shutdown connId how now) rfl), h.udp⟩

/-- Identifiers of the two tables are in different ranges. -/
theorem Ok.unambiguous {s : Sockets} (h : s.Ok) :
  s.Unambiguous
  := by
  refine ⟨h.tcp.distinct, h.udp.distinct, ?_, ?_, ?_⟩
  · intro i j hi hj
    have htcp : (s.tcpIds i).2 ≤ 999 := h.tcp.range i hi
    have hudp := h.udp.range j hj
    omega
  · intro i hi
    have htcp : (s.tcpIds i).2 ≤ 999 := h.tcp.range i hi
    unfold socketKind
    rw [if_neg (by omega), if_neg (by omega)]
  · intro i hi
    have hudp := h.udp.range i hi
    have hnext := h.udp.next
    unfold socketKind
    rw [if_neg (by omega), if_pos (by omega)]

/-- In every run of careful events from boot, identifiers are unambiguous in every state reached. -/
theorem unambiguous_of_run (ourIp : ℕ) {t : Sockets}
    (h : Relation.ReflTransGen Step (initial ourIp) t) :
  t.Unambiguous
  := by
  have hok : t.Ok := invariant_of_run (fun _ _ hs hst => hs.step hst) (ok_initial ourIp) h
  exact hok.unambiguous

/-- A TCP socket is closed while another one is open, and its place is taken again. -/
def afterOpening : Sockets :=
  [.tcp .socket, .tcp .socket, .close 1 0, .tcp .socket, .udpSocket].foldl Event.exec (initial 0)

/-- Two TCP sockets and a UDP socket are open. -/
theorem unambiguous_of_opening :
  afterOpening.tcpIds 0 = (true, 3) ∧ afterOpening.tcpIds 1 = (true, 2) ∧
    afterOpening.udp.ids 0 = (true, 1000) ∧ afterOpening.Unambiguous
  := by
  refine ⟨by decide +kernel, by decide +kernel, by decide +kernel, unambiguous_of_run 0 ?_⟩
  refine .tail (.tail (.tail (.tail (.single ⟨.tcp .socket, nofun, rfl⟩) ⟨.tcp .socket, fun _ => ?_, rfl⟩)
    ⟨.close 1 0, trivial, rfl⟩) ⟨.tcp .socket, fun _ => ?_, rfl⟩) ⟨.udpSocket, fun _ => ?_, rfl⟩
  · decide +kernel
  · decide +kernel
  · decide +kernel

/-! ## Many sockets one after the other -/

/-- The sockets after a list of events. -/
def run (s : Sockets) (es : List Event) : Sockets := es.foldl Event.exec s

theorem run_append (s : Sockets) (es es' : List Event) :
  s.run (es ++ es') = (s.run es).run es'
  := foldl_append ..

/-- Open and close `n` UDP sockets, one after the other. -/
def udpChurn (n : ℕ) : List Event :=
  (range n).flatMap fun k => [.udpSocket, .close (1000 + k) 0]

/-- Open and close `n` TCP sockets, one after the other, beside a first one. -/
def tcpChurn (n : ℕ) : List Event :=
  (range n).flatMap fun k => [.tcp .socket, .close (k + 2) 0]

theorem find?_finRange_zero {p : Fin (n + 1) → Bool} (h : p 0 = true) :
  (finRange (n + 1)).find? p = some 0
  := by
  rw [finRange_succ, find?_cons_of_pos h]

theorem find?_finRange_one {p : Fin (n + 2) → Bool} (h : p 0 = false) (h' : p 1 = true) :
  (finRange (n + 2)).find? p = some 1
  := by
  rw [finRange_succ, find?_cons_of_neg (by rw [h]; exact Bool.false_ne_true), find?_map,
    find?_finRange_zero (p := p ∘ Fin.succ) h']
  rfl

theorem findFree_of_inactive (h : (u.sockets 0).active = false) :
  u.findFree = some 0
  := by
  apply find?_finRange_zero
  rw [h]
  rfl

theorem findSocket_of_first {connId : ℕ} (h : u.sockets 0 = { active := true, connId }) :
  u.findSocket connId = some 0
  := by
  apply find?_finRange_zero
  rw [h]
  exact beq_self_eq_true connId

/-- After a UDP socket was opened and closed, the first entry is free and the next identifier is one
higher. -/
theorem udp_openClose (hfree : (u.sockets 0).active = false) (hnext : u.nextConnId < 2000) :
  ((u.udpSocket.udpClose u.nextConnId).sockets 0).active = false ∧
    (u.udpSocket.udpClose u.nextConnId).nextConnId = u.nextConnId + 1
  := by
  have hopen : u.udpSocket =
      { u.setSocket 0 { active := true, connId := u.nextConnId } with
        nextConnId := u.nextConnId + 1 } := by
    unfold UdpTable.udpSocket
    rw [findFree_of_inactive hfree]
    rw [Nat.mod_eq_of_lt (by omega)]
  have hfound : u.udpSocket.findSocket u.nextConnId = some 0 := by
    apply findSocket_of_first
    rw [hopen]
    rfl
  unfold UdpTable.udpClose
  rw [hfound]
  rw [hopen]
  exact ⟨rfl, rfl⟩

/-- Each socket that is opened and closed uses up an identifier. -/
theorem udp_run_udpChurn (ourIp : ℕ) :
  ∀ n ≤ 1000, (((initial ourIp).run (udpChurn n)).udp.sockets 0).active = false ∧
    ((initial ourIp).run (udpChurn n)).udp.nextConnId = 1000 + n
  := by
  intro n
  induction n with
  | zero => exact fun _ => ⟨rfl, rfl⟩
  | succ n ih =>
    intro hn
    obtain ⟨hfree, hnext⟩ := ih (by omega)
    have hkind : socketKind (1000 + n) = .udp := by
      unfold socketKind
      rw [if_neg (by omega), if_pos (by omega)]
    have hchurn : udpChurn (n + 1) = udpChurn n ++ [.udpSocket, .close (1000 + n) 0] := by
      unfold udpChurn
      rw [range_succ, flatMap_append]
      rfl
    have hpair := udp_openClose hfree (by omega)
    have hudp : ((initial ourIp).run (udpChurn (n + 1))).udp =
        ((initial ourIp).run (udpChurn n)).udp.udpSocket.udpClose (1000 + n) := by
      rw [hchurn, run_append]
      change (Event.exec _ (.close (1000 + n) 0)).udp = _
      unfold Event.exec
      dsimp only
      rw [hkind]
    rw [hudp, ← hnext]
    exact ⟨hpair.1, by omega⟩

/-- A UDP socket with the identifier 2000 is taken for a raw socket. -/
theorem ambiguous_of_udpSocket {s : Sockets} (hfree : (s.udp.sockets 0).active = false)
    (hnext : s.udp.nextConnId = 2000) :
  ¬ (s.run [.udpSocket]).Unambiguous
  := by
  intro h
  have hids : (s.run [.udpSocket]).udp.ids 0 = (true, 2000) := by
    change s.udp.udpSocket.ids 0 = _
    unfold UdpTable.udpSocket
    rw [findFree_of_inactive hfree]
    change (s.udp.setSocket 0 { active := true, connId := s.udp.nextConnId }).ids 0 = _
    rw [UdpTable.ids_setSocket, update_self, hnext]
  have hkind := h.udp_kind 0 (by rw [hids])
  rw [hids] at hkind
  exact absurd hkind (by decide)

/-- The first TCP socket is open and all others are closed. -/
structure Alone (s : System) (next : ℕ) : Prop where
  first : (s.tcbs 0).ident = (true, 1)
  others : (s.tcbs 1).active = false
  next : s.nextConnId = next

theorem Alone.findFreeTcb (h : Alone s next) :
  s.findFreeTcb = some 1
  := by
  have hfirst : (s.tcbs 0).active = true := congrArg Prod.fst h.first
  apply find?_finRange_one
  · rw [hfirst]
    rfl
  · rw [h.others]
    rfl

/-- The second TCP socket is given the next identifier. -/
theorem Alone.tcpSocket (h : Alone s next) :
  (s.tcpSocket.tcbs 0).ident = (true, 1) ∧ (s.tcpSocket.tcbs 1).ident = (true, next) ∧
    (s.tcpSocket.tcbs 1).state = .closed ∧
    s.tcpSocket.nextConnId = if next ≥ 999 then 1 else next + 1
  := by
  unfold System.tcpSocket
  rw [h.findFreeTcb, ← h.next]
  refine ⟨?_, ?_, ?_, rfl⟩
  · rw [← h.first]
    rfl
  · rfl
  · rfl

/-- When it is closed, the first one is alone again. -/
theorem Alone.openClose (h : Alone s next) (hnext : 1 < next) :
  Alone (s.tcpSocket.tcpClose next 0) (if next ≥ 999 then 1 else next + 1)
  := by
  obtain ⟨hfirst, hsecond, hstate, hnext'⟩ := h.tcpSocket
  have hfound : s.tcpSocket.findTcbByConnId next = some 1 := by
    have hid : (s.tcpSocket.tcbs 0).connId = 1 := congrArg Prod.snd hfirst
    have hactive : (s.tcpSocket.tcbs 1).active = true := congrArg Prod.fst hsecond
    have hid' : (s.tcpSocket.tcbs 1).connId = next := congrArg Prod.snd hsecond
    apply find?_finRange_one
    · rw [hid, beq_false_of_ne (by omega), Bool.and_false]
    · rw [hactive, hid', beq_self_eq_true]
      rfl
  have hclose : (s.tcpSocket.conn 1).tcpClose 0 = (s.tcpSocket.conn 1).reset := by
    unfold Tcp.Conn.tcpClose
    rw [show (s.tcpSocket.conn 1).tcb.state = .closed from hstate]
  unfold System.tcpClose
  rw [hfound]
  unfold System.onBlock
  dsimp only
  rw [hclose]
  refine ⟨?_, ?_, ?_⟩
  · exact hfirst
  · rfl
  · rw [← hnext']
    exact System.pushAll_nextConnId ..

/-- The identifiers wrap around while the first socket stays open. -/
theorem alone_run_tcpChurn (ourIp : ℕ) :
  ∀ n ≤ 998, Alone ((initial ourIp).run (.tcp .socket :: tcpChurn n)).tcp (if n = 998 then 1 else n + 2)
  := by
  intro n
  induction n with
  | zero => exact fun _ => ⟨rfl, rfl, rfl⟩
  | succ n ih =>
    intro hn
    have halone := ih (by omega)
    rw [if_neg (by omega)] at halone
    have hkind : socketKind (n + 2) = .tcp := by
      unfold socketKind
      rw [if_neg (by omega), if_neg (by omega)]
    have hchurn : tcpChurn (n + 1) = tcpChurn n ++ [.tcp .socket, .close (n + 2) 0] := by
      unfold tcpChurn
      rw [range_succ, flatMap_append]
      rfl
    have htcp : ((initial ourIp).run (.tcp .socket :: tcpChurn (n + 1))).tcp =
        ((initial ourIp).run (.tcp .socket :: tcpChurn n)).tcp.tcpSocket.tcpClose (n + 2) 0 := by
      rw [hchurn, ← cons_append, run_append]
      change (Event.exec _ (.close (n + 2) 0)).tcp = _
      unfold Event.exec
      dsimp only
      rw [hkind]
      rfl
    have hnext : (if n + 2 ≥ 999 then 1 else n + 2 + 1) = if n + 1 = 998 then 1 else n + 1 + 2 := by
      split_ifs <;> omega
    rw [htcp, ← hnext]
    exact halone.openClose (by omega)

/-- The identifier of the first TCP socket, still open, is given out again. -/
theorem Alone.ambiguous {s : Sockets} (halone : Alone s.tcp 1) :
  ¬ (s.run [.tcp .socket]).Unambiguous
  := by
  intro h
  obtain ⟨hfirst, hsecond, -, -⟩ := halone.tcpSocket
  have hsame : (0 : Fin Tcp.maxTcpConns) = 1 := by
    apply h.tcp 0 1
    · exact congrArg Prod.fst hfirst
    · exact congrArg Prod.fst hsecond
    · exact (congrArg Prod.snd hfirst).trans (congrArg Prod.snd hsecond).symm
  exact absurd hsame (by decide)

/-- Two runs from boot after which identifiers are ambiguous: a thousand short-lived UDP sockets before
another one, and 998 short-lived TCP sockets between two others. -/
theorem ambiguous_of_churn :
  ¬ ((initial 0).run (udpChurn 1000 ++ [.udpSocket])).Unambiguous ∧
    ¬ ((initial 0).run (.tcp .socket :: tcpChurn 998 ++ [.tcp .socket])).Unambiguous
  := by
  obtain ⟨hfree, hnext⟩ := udp_run_udpChurn 0 1000 le_rfl
  rw [run_append, run_append]
  exact ⟨ambiguous_of_udpSocket hfree hnext, (alone_run_tcpChurn 0 998 le_rfl).ambiguous⟩

end Sockets

end SaltyOS.Net
