import Mathlib.Algebra.Group.Nat.Defs
import SaltyOS.Lib.Prog

/-!
# The DHCP client

The client asks for an address, uses it until its lease ends, and asks again for it in time.  Every
call of `process` first handles the datagrams that wait at the socket, and then its timers.  The
clock, the numbers of transactions, and whether a message could be sent come from outside.  What the
messages to the server say is left out, and so is what the sockets do when the address changes.

The lease is kept in every run in which no lease is to be renewed after its end, and in which no
acknowledgement is handled after the lease has ended.
-/

namespace SaltyOS.Dhcp

/-- A byte. -/
abbrev Byte : Type := BitVec 8

/-! ## Messages -/

/-- `Offer`. -/
structure Offer where
  yiaddr : ℕ
  subnetMask : ℕ
  router : ℕ
  dnsServer : ℕ
  serverId : ℕ
  leaseTimeS : ℕ
  renewTimeS : ℕ
  rebindTimeS : ℕ
  deriving DecidableEq, Repr

/-- `Offer::zeroed`. -/
def Offer.zeroed : Offer := ⟨0, 0, 0, 0, 0, 0, 0, 0⟩

/-- `DHCPOFFER`. -/
def dhcpOffer : ℕ := 2

/-- `DHCPACK`. -/
def dhcpAck : ℕ := 5

/-- `DHCPNAK`. -/
def dhcpNak : ℕ := 6

/-- `read_u32_be`. -/
def readU32Be (buf : List Byte) (off : ℕ) : ℕ :=
  (buf.getD off 0).toNat * 2 ^ 24 + (buf.getD (off + 1) 0).toNat * 2 ^ 16 +
    (buf.getD (off + 2) 0).toNat * 2 ^ 8 + (buf.getD (off + 3) 0).toNat

/-- What an option says: the type of the message, or a field of the offer. -/
def readOption (code : Byte) (value : List Byte) (x : ℕ × Offer) : ℕ × Offer :=
  if code = 53 then
    if value.length = 1 then ((value.getD 0 0).toNat, x.2) else x
  else if value.length < 4 then x
  else if code = 1 then (x.1, { x.2 with subnetMask := readU32Be value 0 })
  else if code = 3 then (x.1, { x.2 with router := readU32Be value 0 })
  else if code = 6 then (x.1, { x.2 with dnsServer := readU32Be value 0 })
  else if code = 51 then (x.1, { x.2 with leaseTimeS := readU32Be value 0 })
  else if code = 54 then (x.1, { x.2 with serverId := readU32Be value 0 })
  else if code = 58 then (x.1, { x.2 with renewTimeS := readU32Be value 0 })
  else if code = 59 then (x.1, { x.2 with rebindTimeS := readU32Be value 0 })
  else x

/-- The loop of `parse_offer` over the options. Every round reads at least one byte. -/
def readOptions : ℕ → List Byte → ℕ × Offer → ℕ × Offer
  | n + 1, code :: rest, x =>
    if code = 0 then readOptions n rest x
    else if code = 255 then x
    else
      match rest with
      | [] => x
      | len :: value =>
        if value.length < len.toNat then x
        else readOptions n (value.drop len.toNat) (readOption code (value.take len.toNat) x)
  | _, _, x => x

/-- The type of a message and its offer. -/
def offerOf (buf : List Byte) : ℕ × Offer :=
  readOptions buf.length (buf.drop 240) (0, { Offer.zeroed with yiaddr := readU32Be buf 16 })

/-- `parse_offer`. -/
def parseOffer (xid : ℕ) (mac buf : List Byte) : Option (ℕ × Offer) :=
  if buf.length < 240 then none
  else if buf.take 3 ≠ [2, 1, 6] then none
  else if readU32Be buf 4 ≠ xid then none
  else if readU32Be buf 236 ≠ 0x63825363 then none
  else if (buf.drop 28).take 6 ≠ mac then none
  else some (offerOf buf)

/-! ## The client -/

/-- `DhcpState`. -/
inductive DhcpState where
  | disabled
  | discovering
  | requesting
  | bound
  | renewing
  | rebinding
  | failed
  deriving DecidableEq, Repr

/-- The states in which the client has an address. -/
def DhcpState.isLeased : DhcpState → Bool
  | .bound => true
  | .renewing => true
  | .rebinding => true
  | _ => false

/-- The states of the network. -/
inductive NetcfgState where
  | down
  | configuring
  | ready
  deriving DecidableEq, Repr

/-- `NetworkConfig`, without the counters of packets. -/
structure NetworkConfig where
  state : NetcfgState
  ourIp : ℕ
  subnetMask : ℕ
  gatewayIp : ℕ
  dnsServer : ℕ
  mac : List Byte
  deriving DecidableEq, Repr

/-- The client, with the configuration of the network. -/
structure Client where
  state : DhcpState
  socketId : Option ℕ
  xid : ℕ
  lastTxNs : ℕ
  retries : ℕ
  offer : Offer
  leaseExpiresNs : ℕ
  renewAtNs : ℕ
  rebindAtNs : ℕ
  config : NetworkConfig
  deriving DecidableEq, Repr

/-- What comes from outside while something is handled: the clock, the number of the next
transaction, and the clock after a message was sent, if it could be sent. -/
structure Env where
  now : ℕ
  xid : ℕ
  sentAt : Option ℕ

/-- A datagram that waits at the socket. -/
structure Arrival where
  srcPort : ℕ
  bytes : List Byte
  env : Env

/-- `DHCP_RETRY_NS`. -/
def dhcpRetryNs : ℕ := 1000000000

/-- `DHCP_MAX_RETRIES`. -/
def dhcpMaxRetries : ℕ := 3

/-- A sum of 64 bits that does not overflow. -/
def satAdd (a b : ℕ) : ℕ := min (a + b) (2 ^ 64 - 1)

/-- The nanoseconds of a number of seconds. -/
def seconds (n : ℕ) : ℕ := min (n * 1000000000) (2 ^ 64 - 1)

namespace Offer

/-- The time of the lease, in seconds. -/
def leaseTime (o : Offer) : ℕ := if o.leaseTimeS ≠ 0 then o.leaseTimeS else 3600

/-- The time after which the lease is renewed. -/
def renewTime (o : Offer) : ℕ :=
  if o.renewTimeS ≠ 0 then o.renewTimeS else o.leaseTime / 2

/-- The time after which every server is asked. -/
def rebindTime (o : Offer) : ℕ :=
  if o.rebindTimeS ≠ 0 then o.rebindTimeS else min (o.leaseTime * 7) (2 ^ 32 - 1) / 8

end Offer

namespace Client

/-- The client after `config::init`. -/
def initial (mac : List Byte) : Client where
  state := .disabled
  socketId := none
  xid := 0
  lastTxNs := 0
  retries := 0
  offer := .zeroed
  leaseExpiresNs := 0
  renewAtNs := 0
  rebindAtNs := 0
  config := ⟨.configuring, 0, 0, 0, 0, mac⟩

variable (c : Client) (env : Env)

/-- `send_discover`. It fails if it returns nothing. -/
def sendDiscover (sentAt : Option ℕ) : Option Client :=
  if c.socketId = none then none
  else sentAt.map fun t => { c with lastTxNs := t, retries := min (c.retries + 1) 255 }

/-- `send_request`. -/
def sendRequest (sentAt : Option ℕ) : Option Client := c.sendDiscover sentAt

/-- `send_renew_request`. -/
def sendRenewRequest (sentAt : Option ℕ) : Option Client :=
  if c.socketId = none ∨ c.config.ourIp = 0 then none
  else sentAt.map fun t => { c with lastTxNs := t }

/-- `send_rebind_request`. -/
def sendRebindRequest (sentAt : Option ℕ) : Option Client := c.sendRenewRequest sentAt

/-- The client gives up. -/
def fail : Client := { c with state := .failed }

/-- `apply_lease`. -/
def applyLease (o : Offer) (fallbackIp now : ℕ) : Client :=
  { c with
    state := .bound
    lastTxNs := 0
    retries := 0
    offer :=
      { yiaddr := if o.yiaddr ≠ 0 then o.yiaddr else fallbackIp
        subnetMask := if o.subnetMask ≠ 0 then o.subnetMask else 0xFFFFFF00
        router := o.router
        dnsServer := if o.dnsServer ≠ 0 then o.dnsServer else o.serverId
        serverId := o.serverId
        leaseTimeS := o.leaseTime
        renewTimeS := o.renewTime
        rebindTimeS := o.rebindTime }
    leaseExpiresNs := satAdd now (seconds o.leaseTime)
    renewAtNs := satAdd now (seconds o.renewTime)
    rebindAtNs := satAdd now (seconds o.rebindTime)
    config :=
      { c.config with
        state := .ready
        ourIp := if o.yiaddr ≠ 0 then o.yiaddr else fallbackIp
        subnetMask := if o.subnetMask ≠ 0 then o.subnetMask else 0xFFFFFF00
        gatewayIp := o.router
        dnsServer := if o.dnsServer ≠ 0 then o.dnsServer else o.serverId } }

/-- The client starts over, with a new transaction. -/
def reset (xid : ℕ) : Client :=
  { c with
    state := .discovering
    xid
    lastTxNs := 0
    retries := 0
    offer := .zeroed
    leaseExpiresNs := 0
    renewAtNs := 0
    rebindAtNs := 0 }

/-- `config::begin_reconfigure`. -/
def beginReconfigure : Client :=
  { c with config := ⟨.configuring, 0, 0, 0, 0, c.config.mac⟩ }

/-- `restart_discovery`, with what its callers do if it fails. -/
def restartDiscovery : Client :=
  ((c.beginReconfigure.reset env.xid).sendDiscover env.sentAt).getD
    (c.beginReconfigure.reset env.xid).fail

/-- `start`, with the socket if it could be made. -/
def start (socket : Option ℕ) (env : Env) : Client :=
  match c.socketId.or socket with
  | none => c
  | some i =>
    (sendDiscover ({ c with socketId := some i }.reset env.xid) env.sentAt).getD
      ({ c with socketId := some i }.reset env.xid)

/-- What `process` does with a message while the lease is renewed. -/
def handleRenewal (kind : ℕ) (o : Offer) (env : Env) : Client :=
  if kind = dhcpAck then
    if c.config.ourIp ≠ 0 then c.applyLease o c.config.ourIp env.now else c
  else if kind = dhcpNak then c.restartDiscovery env
  else c

/-- What `process` does with a message. -/
def handle (kind : ℕ) (o : Offer) (env : Env) : Client :=
  match c.state with
  | .discovering =>
    if kind = dhcpOffer ∧ o.yiaddr ≠ 0 then
      (sendRequest { c with offer := o, state := .requesting, retries := 0 } env.sentAt).getD
        { c with offer := o, state := .failed, retries := 0 }
    else c
  | .requesting =>
    if kind = dhcpAck ∧ o.yiaddr ≠ 0 then c.applyLease o o.yiaddr env.now
    else if kind = dhcpNak then c.fail
    else c
  | .renewing => c.handleRenewal kind o env
  | .rebinding => c.handleRenewal kind o env
  | _ => c

/-- The loop of `process` over the datagrams. -/
def receiveAll (c : Client) : List Arrival → Client
  | [] => c
  | a :: rest =>
    if a.bytes = [] then c
    else if a.srcPort ≠ 67 then c.receiveAll rest
    else
      match parseOffer c.xid c.config.mac (a.bytes.take 1536) with
      | none => c.receiveAll rest
      | some x => (c.handle x.1 x.2 a.env).receiveAll rest

/-- The lease has ended. -/
def Expired (now : ℕ) : Prop := c.leaseExpiresNs ≠ 0 ∧ now ≥ c.leaseExpiresNs

/-- A message was sent long enough ago to be sent again. -/
def RetryDue (now : ℕ) : Prop := now - c.lastTxNs ≥ dhcpRetryNs

instance (c : Client) (now : ℕ) : Decidable (c.Expired now) :=
  inferInstanceAs (Decidable (_ ∧ _))

instance (c : Client) (now : ℕ) : Decidable (c.RetryDue now) :=
  inferInstanceAs (Decidable (_ ≥ _))

/-- A message without an answer is sent again, a few times. -/
def resend (sent : Option Client) (now : ℕ) : Client :=
  if c.lastTxNs ≠ 0 ∧ c.RetryDue now then
    if c.retries ≥ dhcpMaxRetries then c.fail else sent.getD c.fail
  else c

/-- A lease that has ended is given up. -/
def unlessExpired (rest : Client) : Client :=
  if c.Expired env.now then c.restartDiscovery env else rest

/-- The rest of `process`. -/
def timers : Client :=
  match c.state with
  | .discovering => c.resend (c.sendDiscover env.sentAt) env.now
  | .requesting => c.resend (c.sendRequest env.sentAt) env.now
  | .bound =>
    c.unlessExpired env (if c.renewAtNs ≠ 0 ∧ env.now ≥ c.renewAtNs then
        (sendRenewRequest { c with xid := env.xid, state := .renewing, lastTxNs := 0 }
          env.sentAt).getD { c with xid := env.xid, state := .rebinding, lastTxNs := 0 }
      else c)
  | .renewing =>
    c.unlessExpired env (if c.rebindAtNs ≠ 0 ∧ env.now ≥ c.rebindAtNs then
        (sendRebindRequest { c with state := .rebinding, lastTxNs := 0 } env.sentAt).getD
          { c with state := .rebinding, lastTxNs := env.now }
      else if c.lastTxNs = 0 ∨ c.RetryDue env.now then (c.sendRenewRequest env.sentAt).getD c
      else c)
  | .rebinding =>
    c.unlessExpired env
      (if c.lastTxNs = 0 ∨ c.RetryDue env.now then (c.sendRebindRequest env.sentAt).getD c else c)
  | _ => c

/-- `process`. -/
def process (arrivals : List Arrival) (env : Env) : Client :=
  if c.socketId = none then c else (c.receiveAll arrivals).timers env

/-- The time at which the last message is sent again. -/
def retryAt (now : ℕ) : ℕ :=
  if c.lastTxNs = 0 then now else satAdd c.lastTxNs dhcpRetryNs

/-- `nearest_deadline_ns`. -/
def nearestDeadlineNs (now : ℕ) : ℕ :=
  match c.state with
  | .discovering => c.retryAt now
  | .requesting => c.retryAt now
  | .bound => if c.renewAtNs ≠ 0 then c.renewAtNs else c.leaseExpiresNs
  | .renewing => min (min (c.retryAt now) c.rebindAtNs) c.leaseExpiresNs
  | .rebinding => min (c.retryAt now) c.leaseExpiresNs
  | _ => 2 ^ 64 - 1

end Client

/-- The events of the client. A call of `process` is made at some time and reads the clock for its
timers some time later. -/
inductive Event where
  | start (socket : Option ℕ) (env : Env)
  | process (time elapsed xid : ℕ) (sentAt : Option ℕ) (arrivals : List Arrival)

namespace Client

/-- What an event does. -/
def exec (c : Client) : Event → Client
  | .start socket env => c.start socket env
  | .process time elapsed xid sentAt arrivals => c.process arrivals ⟨time + elapsed, xid, sentAt⟩

/-- A step that meets a condition on the client and the event. -/
def StepOf (C : Client → Event → Prop) (c d : Client) : Prop :=
  ∃ e, C c e ∧ d = c.exec e

/-! ## Leases -/

/-- A client with a socket whose lease ends at some time and is to be renewed before. -/
structure Kept (c : Client) : Prop where
  socket : c.socketId ≠ none
  expires : c.state.isLeased = true → c.leaseExpiresNs ≠ 0
  renew : c.state = .bound → c.renewAtNs ≤ c.leaseExpiresNs

/-- The client has no address. -/
def Idle (c : Client) : Prop := c.state.isLeased = false ∧ c.config.ourIp = 0

variable {c d : Client} {env : Env} {o : Offer} {kind time : ℕ}

section

variable {P : Client → Prop} {sentAt : Option ℕ} (hfail : P d)
include hfail

/-- If the message cannot be sent, what the caller does instead counts. -/
theorem getD_sendDiscover (hsent : ∀ t n, P { c with lastTxNs := t, retries := n }) :
  P ((c.sendDiscover sentAt).getD d)
  := by
  unfold sendDiscover
  split
  · exact hfail
  cases sentAt with
  | none => exact hfail
  | some t => apply hsent

theorem getD_sendRenewRequest (hsent : ∀ t, P { c with lastTxNs := t }) :
  P ((c.sendRenewRequest sentAt).getD d)
  := by
  unfold sendRenewRequest
  split
  · exact hfail
  cases sentAt with
  | none => exact hfail
  | some t => apply hsent

end

/-- A message is sent again unless too many were sent. -/
theorem resend_rule {P : Client → Prop} {sentAt : Option ℕ} (hc : P c) (hgive : P c.fail)
    (hsent : ∀ t n, P { c with lastTxNs := t, retries := n }) (now : ℕ) :
  P (c.resend (c.sendDiscover sentAt) now)
  := by
  unfold resend
  split
  · split
    · exact hgive
    · exact getD_sendDiscover hgive hsent
  · exact hc

/-- A client that starts again holds no lease. -/
theorem restartDiscovery_idle (c : Client) (env : Env) :
  (c.restartDiscovery env).Idle
  := by
  apply getD_sendDiscover
  · exact ⟨rfl, rfl⟩
  · exact fun t n => ⟨rfl, rfl⟩

/-- A client without a lease. -/
theorem Kept.of_not_leased (hsocket : c.socketId ≠ none) (h : c.state.isLeased = false) :
  c.Kept
  := by
  refine ⟨hsocket, ?_, ?_⟩
  · intro hleased
    rw [h] at hleased
    cases hleased
  · intro hbound
    rw [hbound] at h
    cases h

theorem Kept.restartDiscovery (h : c.Kept) (env : Env) :
  (c.restartDiscovery env).Kept
  := by
  apply getD_sendDiscover
  · exact .of_not_leased h.socket rfl
  · exact fun t n => .of_not_leased h.socket rfl

/-- A lease is taken with its three times in order. -/
theorem Kept.applyLease (h : c.Kept) (ho : o.renewTime ≤ o.leaseTime) (fallbackIp now : ℕ) :
  (c.applyLease o fallbackIp now).Kept
  := by
  have hlease : 0 < o.leaseTime := by
    unfold Offer.leaseTime
    split_ifs <;> omega
  refine ⟨h.socket, ?_, ?_⟩
  · intro _
    change satAdd now (seconds o.leaseTime) ≠ 0
    unfold satAdd seconds
    omega
  · intro _
    change satAdd now (seconds o.renewTime) ≤ satAdd now (seconds o.leaseTime)
    unfold satAdd seconds
    omega

/-! ## Steps -/

/-- A renewal is acknowledged, refused, or ignored. -/
theorem Kept.handleRenewal (h : c.Kept) (hack : kind = dhcpAck → o.renewTime ≤ o.leaseTime) :
  (c.handleRenewal kind o env).Kept
  := by
  unfold Client.handleRenewal
  split
  next hkind =>
    split
    · exact h.applyLease (hack hkind) _ _
    · exact h
  · split
    · exact h.restartDiscovery env
    · exact h

/-- A message counts only in the state that waits for it. -/
theorem Kept.handle (h : c.Kept) (hack : kind = dhcpAck → o.renewTime ≤ o.leaseTime) :
  (c.handle kind o env).Kept
  := by
  unfold Client.handle
  split
  · split
    · apply getD_sendDiscover
      · exact .of_not_leased h.socket rfl
      · exact fun t n => .of_not_leased h.socket rfl
    · exact h
  · split
    next hkind => exact h.applyLease (hack hkind.1) _ _
    split
    · exact .of_not_leased h.socket rfl
    · exact h
  · exact h.handleRenewal hack
  · exact h.handleRenewal hack
  · exact h

/-- A lease that has ended is given up first. -/
theorem Kept.unlessExpired (h : c.Kept) (env : Env) (hd : d.Kept) :
  (c.unlessExpired env d).Kept
  := by
  unfold Client.unlessExpired
  split
  · exact h.restartDiscovery env
  · exact hd

/-- The timers move the client to renewing, to rebinding, and to giving up. -/
theorem Kept.timers (h : c.Kept) (env : Env) :
  (c.timers env).Kept
  := by
  have hfail : c.fail.Kept := .of_not_leased h.socket rfl
  have hretry : ∀ t, Kept { c with lastTxNs := t } := fun t => ⟨h.socket, h.expires, h.renew⟩
  unfold Client.timers
  split
  · exact resend_rule h hfail (fun t n => ⟨h.socket, h.expires, h.renew⟩) _
  · exact resend_rule h hfail (fun t n => ⟨h.socket, h.expires, h.renew⟩) _
  next hstate =>
    have hc : c.state.isLeased = true := congrArg DhcpState.isLeased hstate
    apply h.unlessExpired
    split
    · apply getD_sendRenewRequest
      · exact ⟨h.socket, fun _ => h.expires hc, nofun⟩
      · exact fun t => ⟨h.socket, fun _ => h.expires hc, nofun⟩
    · exact h
  next hstate =>
    have hc : c.state.isLeased = true := congrArg DhcpState.isLeased hstate
    apply h.unlessExpired
    split
    · apply getD_sendRenewRequest
      · exact ⟨h.socket, fun _ => h.expires hc, nofun⟩
      · exact fun t => ⟨h.socket, fun _ => h.expires hc, nofun⟩
    · split
      · exact getD_sendRenewRequest h hretry
      · exact h
  · apply h.unlessExpired
    split
    · exact getD_sendRenewRequest h hretry
    · exact h
  · exact h

/-- The client has no address, or its lease has ended. -/
def Over (c : Client) (time : ℕ) : Prop :=
  c.Idle ∨ c.state.isLeased = true ∧ c.Expired time

theorem Over.handleRenewal (h : c.Over time) (hack : kind ≠ dhcpAck) :
  (c.handleRenewal kind o env).Over time
  := by
  unfold Client.handleRenewal
  rw [if_neg hack]
  split
  · exact .inl (c.restartDiscovery_idle env)
  · exact h

/-- Only an acknowledgement gives a new lease. -/
theorem Over.handle (h : c.Over time) (hack : kind ≠ dhcpAck) :
  (c.handle kind o env).Over time
  := by
  have hidle : c.state.isLeased = false → c.config.ourIp = 0 := by
    intro hc
    obtain hidle | ⟨hleased, -⟩ := h
    · exact hidle.2
    · rw [hc] at hleased
      cases hleased
  unfold Client.handle
  split
  next hstate =>
    have hip := hidle (congrArg DhcpState.isLeased hstate)
    split
    · apply getD_sendDiscover (P := fun d => d.Over time)
      · exact .inl ⟨rfl, hip⟩
      · exact fun t n => .inl ⟨rfl, hip⟩
    · exact h
  next hstate =>
    have hip := hidle (congrArg DhcpState.isLeased hstate)
    rw [if_neg fun hkind => hack hkind.1]
    split
    · exact .inl ⟨rfl, hip⟩
    · exact h
  · exact h.handleRenewal hack
  · exact h.handleRenewal hack
  · exact h

/-- The timers give a lease up that is over. -/
theorem Over.timers (h : c.Over time) (elapsed xid : ℕ) (sentAt : Option ℕ) :
  (c.timers ⟨time + elapsed, xid, sentAt⟩).Idle
  := by
  obtain hidle | ⟨hleased, hexpires, htime⟩ := h
  · have hfail : c.fail.Idle := ⟨rfl, hidle.2⟩
    have hc := hidle.1
    unfold Client.timers
    cases hstate : c.state with
    | discovering => exact resend_rule hidle hfail (fun t n => hidle) _
    | requesting => exact resend_rule hidle hfail (fun t n => hidle) _
    | disabled => exact hidle
    | failed => exact hidle
    | _ =>
      rw [hstate] at hc
      cases hc
  · have hnow : c.Expired (time + elapsed) := ⟨hexpires, Nat.le_add_right_of_le htime⟩
    have hgone : ∀ d, (c.unlessExpired ⟨time + elapsed, xid, sentAt⟩ d).Idle := by
      intro d
      unfold unlessExpired
      rw [if_pos hnow]
      apply restartDiscovery_idle
    unfold Client.timers
    cases hstate : c.state with
    | bound => apply hgone
    | renewing => apply hgone
    | rebinding => apply hgone
    | _ =>
      rw [hstate] at hleased
      cases hleased

/-! ## Runs -/

/-- The events after which the lease is kept: a lease that is acknowledged is to be renewed before it
ends, and nothing is acknowledged in a call that is made after the lease has ended. -/
def Careful (c : Client) : Event → Prop
  | .start _ _ => True
  | .process time _ _ _ arrivals =>
    ∀ a ∈ arrivals, ∀ xid mac o, parseOffer xid mac (a.bytes.take 1536) = some (dhcpAck, o) →
      o.renewTime ≤ o.leaseTime ∧ ¬(c.state.isLeased = true ∧ c.leaseExpiresNs ≤ time)

variable {arrivals : List Arrival}

/-- A predicate that every message keeps is kept by all of them. -/
theorem receiveAll_rule {P : Client → Prop} (hc : P c) (hstep : ∀ c kind o env a, a ∈ arrivals → P c →
      parseOffer c.xid c.config.mac (a.bytes.take 1536) = some (kind, o) → P (c.handle kind o env)) :
  P (c.receiveAll arrivals)
  := by
  induction arrivals generalizing c with
  | nil => exact hc
  | cons a rest ih =>
    have hrest := fun d (hd : P d) => ih hd fun c kind o env a ha =>
      hstep c kind o env a (List.mem_cons_of_mem _ ha)
    unfold receiveAll
    split
    · exact hc
    split
    · exact hrest c hc
    split
    · exact hrest c hc
    next x hx => exact hrest _ (hstep c x.1 x.2 a.env a List.mem_cons_self hc hx)

/-- A client without a socket has no lease. -/
def Safe (c : Client) : Prop := c.socketId = none ∧ c.state.isLeased = false ∨ c.Kept

/-- One call of the client, which handles all messages that have arrived. -/
theorem Safe.exec (h : c.Safe) {e : Event} (he : c.Careful e) :
  (c.exec e).Safe
  := by
  cases e with
  | start socket env =>
    change (c.start socket env).Safe
    unfold start
    split
    · exact h
    right
    apply getD_sendDiscover
    · exact .of_not_leased nofun rfl
    · exact fun t n => .of_not_leased nofun rfl
  | process time elapsed xid sentAt arrivals =>
    change (c.process arrivals _).Safe
    unfold process
    split_ifs with hsocket
    · exact h
    have hkept : c.Kept := h.resolve_left fun hnone => hsocket hnone.1
    refine .inr (Kept.timers (receiveAll_rule hkept ?_) _)
    intro d kind o env a ha hd hparse
    apply hd.handle
    rintro rfl
    exact (he a ha _ _ o hparse).1

/-- In every run in which leases are to be renewed before they end, and in which nothing is
acknowledged in a call after the end of the lease, the client wakes up before the end of its lease,
and a call after that gives the address up. -/
theorem lease_respected_of_careful_run {mac : List Byte}
    (h : Relation.ReflTransGen (StepOf Careful) (initial mac) c) (hc : c.state.isLeased = true) :
  (∀ now, c.nearestDeadlineNs now ≤ c.leaseExpiresNs) ∧
    ∀ time elapsed xid sentAt arrivals, c.Careful (.process time elapsed xid sentAt arrivals) →
      c.leaseExpiresNs ≤ time →
        (c.exec (.process time elapsed xid sentAt arrivals)).state.isLeased = false ∧
          (c.exec (.process time elapsed xid sentAt arrivals)).config.ourIp = 0
  := by
  have hsafe : c.Safe := by
    refine invariant_of_run (I := Safe) ?_ (.inl ⟨rfl, rfl⟩) h
    rintro c d hc ⟨e, he, rfl⟩
    exact hc.exec he
  have hkept : c.Kept := hsafe.resolve_left fun hnone => by
    rw [hnone.2] at hc
    cases hc
  constructor
  · intro now
    unfold nearestDeadlineNs
    cases hstate : c.state with
    | bound =>
      dsimp only
      split
      · exact hkept.renew hstate
      · exact Nat.le_refl _
    | renewing => exact Nat.min_le_right _ _
    | rebinding => exact Nat.min_le_right _ _
    | _ =>
      rw [hstate] at hc
      cases hc
  · intro time elapsed xid sentAt arrivals hcareful htime
    change (c.process arrivals _).Idle
    unfold process
    rw [if_neg hkept.socket]
    apply Over.timers
    apply receiveAll_rule (P := fun d => d.Over time) (.inr ⟨hc, hkept.expires hc, htime⟩)
    intro d kind o env a ha hd hparse
    apply hd.handle
    rintro rfl
    exact (hcareful a ha _ _ o hparse).2 ⟨hc, htime⟩

/-! ## Runs for one message -/

/-- A message of transaction 1 that offers the address 10.0.2.15. -/
def message (kind : Byte) (options : List Byte) : List Byte :=
  [2, 1, 6, 0, 0, 0, 0, 1] ++ List.replicate 8 0 ++ [10, 0, 2, 15] ++ List.replicate 216 0 ++
    [0x63, 0x82, 0x53, 0x63, 53, 1, kind] ++ options

/-- A call of `process` for one message. -/
def deliver (time : ℕ) (kind : Byte) (options : List Byte) : Event :=
  .process time 0 1 (some time) [⟨67, message kind options, ⟨time, 1, some time⟩⟩]

/-- The client after its request was acknowledged with some options, ten seconds after its start. -/
def acknowledged (options : List Byte) : Client :=
  (((initial (List.replicate 6 0)).exec (.start (some 3) ⟨1, 1, some 1⟩)).exec
    (deliver 5000000000 2 [])).exec (deliver 10000000000 5 options)

/-- What is asked of a call for one message. -/
theorem careful_deliver {kind : Byte} {options : List Byte}
    (h : (offerOf ((message kind options).take 1536)).1 = dhcpAck →
      (offerOf ((message kind options).take 1536)).2.renewTime ≤
        (offerOf ((message kind options).take 1536)).2.leaseTime ∧ c.state.isLeased = false) :
  c.Careful (deliver time kind options)
  := by
  intro a ha xid mac o hparse
  obtain rfl := List.mem_singleton.mp ha
  unfold parseOffer at hparse
  split_ifs at hparse
  have hoffer := Option.some.inj hparse
  rw [hoffer] at h
  obtain ⟨htime, hstate⟩ := h rfl
  exact ⟨htime, fun hleased => by simp [hstate] at hleased⟩

/-- The lease is 100 seconds and is to be renewed after 50. -/
theorem lease_respected_of_acknowledgement :
  (acknowledged [51, 4, 0, 0, 0, 100, 58, 4, 0, 0, 0, 50]).nearestDeadlineNs 0 ≤ 110000000000 ∧
    ((acknowledged [51, 4, 0, 0, 0, 100, 58, 4, 0, 0, 0, 50]).exec
      (.process 110000000000 0 1 none [])).config.ourIp = 0
  := by
  have hrun : Relation.ReflTransGen (StepOf Careful) (initial (List.replicate 6 0))
      (acknowledged [51, 4, 0, 0, 0, 100, 58, 4, 0, 0, 0, 50]) := by
    refine ((Relation.ReflTransGen.single ⟨.start (some 3) ⟨1, 1, some 1⟩, trivial, rfl⟩).tail
      ⟨_, ?_, rfl⟩).tail ⟨_, ?_, rfl⟩
    · exact careful_deliver (by decide +kernel)
    · exact careful_deliver (by decide +kernel)
  have hrespected := lease_respected_of_careful_run hrun (by decide +kernel)
  have hexpires : (acknowledged [51, 4, 0, 0, 0, 100, 58, 4, 0, 0, 0, 50]).leaseExpiresNs =
      110000000000 := by decide +kernel
  refine ⟨hexpires ▸ hrespected.1 0, (hrespected.2 110000000000 0 1 none [] ?_ (Nat.le_of_eq hexpires)).2⟩
  intro a ha
  cases ha

/-- A lease of 10 seconds that is to be renewed after 100: the client sleeps until its lease is over
for 90 seconds. And a lease of 10 seconds whose renewal is acknowledged after it has ended: the client
keeps the address. -/
theorem lease_not_respected :
  (acknowledged [51, 4, 0, 0, 0, 10, 58, 4, 0, 0, 0, 100]).leaseExpiresNs +
      seconds 90 ≤ (acknowledged [51, 4, 0, 0, 0, 10, 58, 4, 0, 0, 0, 100]).nearestDeadlineNs 0 ∧
    ∃ c, c = (acknowledged [51, 4, 0, 0, 0, 10]).exec (.process 15000000000 0 1 none []) ∧
      c.state.isLeased = true ∧ c.leaseExpiresNs = 20000000000 ∧
      (c.exec (deliver 30000000000 5 [])).state = .bound ∧
      (c.exec (deliver 30000000000 5 [])).config.ourIp = 0x0A00020F
  := by
  refine ⟨by decide +kernel, _, rfl, by decide +kernel, by decide +kernel, by decide +kernel,
    by decide +kernel⟩

end Client

end SaltyOS.Dhcp
