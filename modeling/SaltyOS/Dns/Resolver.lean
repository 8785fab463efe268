import SaltyOS.Dns.Message

/-!
# The resolver

The queries that are under way, and what the event loop does with them.

The datagrams that `process_pending` takes from its socket, the time, the configured server and whether
the hardware address of the next hop is known are arguments of the events.  A call to the resolver has a
number; `cnode_save_caller` saves the number of the call in a capability slot, and a reply goes to the
number saved there.

Some fields are not part of the implementation: what each call asked, the replies that were sent, the
messages that came from the server, and the time of the last event.
-/

namespace SaltyOS.Dns

/-- `MAX_PENDING_DNS`. -/
abbrev maxPendingDns : ℕ := 4

/-- `DNS_TIMEOUT_NS`. -/
def dnsTimeoutNs : ℕ := 3000000000

/-- `ARP_RETRY_NS`. -/
def arpRetryNs : ℕ := 200000000

/-- `DNS_MAX_RETRIES`. -/
def dnsMaxRetries : ℕ := 2

/-- `DNS_PORT`. -/
def dnsPort : ℕ := 53

/-- `DnsQueryType`. -/
inductive DnsQueryType where
  | a
  | ptr
  deriving DecidableEq, Repr

/-- `DnsError`. -/
inductive DnsError where
  | nxDomain
  | serverFail
  | timeout
  | other
  deriving DecidableEq, Repr

/-- What is asked. -/
structure Query where
  queryType : DnsQueryType
  hostname : List Byte
  ptrIp : BitVec 32
  deriving DecidableEq, Repr

/-- `PendingDns`. The capability slot of the reply is that of the entry. -/
structure PendingDns where
  active : Bool
  query : Query
  txnId : BitVec 16
  attempt : ℕ
  deadlineNs : ℕ
  deriving DecidableEq, Repr

/-- `PendingDns::zeroed`. -/
def PendingDns.zeroed : PendingDns where
  active := false
  query := { queryType := .a, hostname := [], ptrIp := 0 }
  txnId := 0
  attempt := 0
  deadlineNs := 0

/-- `DnsCompletion`. -/
structure DnsCompletion where
  replySlot : Fin maxPendingDns
  queryType : DnsQueryType
  success : Bool
  dnsResult : DnsResult
  error : DnsError
  ptrHostname : List Byte
  deriving DecidableEq, Repr

/-- A reply to a call. -/
structure Reply where
  call : ℕ
  completion : DnsCompletion
  deriving DecidableEq, Repr

/-- A datagram from the socket, cut to 512 bytes and not empty. -/
structure Datagram where
  srcIp : ℕ
  srcPort : ℕ
  payload : List Byte
  deriving DecidableEq, Repr

/-- The configured server, and whether the hardware address of the next hop to it is known. -/
structure Network where
  dnsServer : ℕ
  arpResolved : Bool
  deriving DecidableEq, Repr

/-- The state of the resolver. -/
structure Resolver where
  socketReady : Bool
  pending : Fin maxPendingDns → PendingDns
  completions : List DnsCompletion
  callers : Fin maxPendingDns → ℕ
  calls : List Query
  replies : List Reply
  heard : List (List Byte)
  clock : ℕ

/-- `rcode_to_error`. -/
def rcodeToError (rcode : Byte) : DnsError :=
  if rcode = 3 then .nxDomain
  else if rcode = 2 then .serverFail
  else .other

/-- The result of a completion that has none. -/
def noResult : DnsResult where
  ips := []
  ttl := 0

variable (r : Resolver) (i : Fin maxPendingDns) (net : Network) (slot : PendingDns)

/-- The query that is sent for a slot. -/
def PendingDns.packet : Option (List Byte) :=
  match slot.query.queryType with
  | .a => buildQuery slot.query.hostname slot.txnId
  | .ptr => buildPtrQuery slot.query.ptrIp slot.txnId

/-- A time after another, as the 64-bit sum. -/
def later (now delay : ℕ) : ℕ := (now + delay) % 2 ^ 64

namespace Resolver

/-- `send_query_for_slot`: whether the query went out. -/
def sendQueryForSlot : Bool :=
  if r.socketReady then
    match slot.packet with
    | none => true
    | some _ => if net.dnsServer = 0 then false else net.arpResolved
  else false

/-- `find_free_slot`. -/
def findFreeSlot : Option (Fin maxPendingDns) :=
  (List.finRange maxPendingDns).find? fun i => !(r.pending i).active

/-- Write a slot. -/
def setSlot : Resolver := { r with pending := Function.update r.pending i slot }

/-- `push_completion`. -/
def pushCompletion (c : DnsCompletion) : Resolver :=
  if r.completions.length ≥ maxPendingDns then r
  else { r with completions := r.completions ++ [c] }

/-- Push the completion of a slot and free the slot. -/
def complete (c : DnsCompletion) : Resolver :=
  (r.pushCompletion c).setSlot i { r.pending i with active := false }

/-! ## Starting a query -/

/-- The slot of a query that starts. -/
def startSlot (query : Query) (txnId : BitVec 16) (now : ℕ) : PendingDns :=
  let slot : PendingDns := { active := true, query, txnId, attempt := 0, deadlineNs := 0 }
  { slot with
    deadlineNs := later now (if r.sendQueryForSlot net slot then dnsTimeoutNs else arpRetryNs) }

/-- What `start_resolve` and `start_resolve_ptr` have in common. `saved` says whether the reply
capability of the caller could be saved. -/
def start (query : Query) (txnId : BitVec 16) (saved : Bool) (now : ℕ) : Resolver :=
  if r.socketReady then
    match PendingDns.packet { PendingDns.zeroed with query, txnId } with
    | none => r
    | some _ =>
      match r.findFreeSlot with
      | none => r
      | some i =>
        if saved then
          { r.setSlot i (r.startSlot net query txnId now) with
            callers := Function.update r.callers i r.calls.length
            calls := r.calls ++ [query] }
        else r
  else r

/-- `start_resolve`, behind the check of the request in `dispatch_ipc`. -/
def startResolve (hostname : List Byte) (txnId : BitVec 16) (saved : Bool) (now : ℕ) : Resolver :=
  if hostname.length = 0 ∨ hostname.length > 120 then r
  else r.start net { queryType := .a, hostname, ptrIp := 0 } txnId saved now

/-- `start_resolve_ptr`. -/
def startResolvePtr (ip : BitVec 32) (txnId : BitVec 16) (saved : Bool) (now : ℕ) : Resolver :=
  r.start net { queryType := .ptr, hostname := [], ptrIp := ip } txnId saved now

/-- `flush_arp_waiters`, for one slot. -/
def flushSlot (now : ℕ) (r : Resolver) (i : Fin maxPendingDns) : Resolver :=
  if (r.pending i).active && r.sendQueryForSlot net (r.pending i) then
    r.setSlot i { r.pending i with deadlineNs := later now dnsTimeoutNs }
  else r

/-- `flush_arp_waiters`. -/
def flushArpWaiters (now : ℕ) : Resolver :=
  (List.finRange maxPendingDns).foldl (flushSlot net now) r

/-! ## Responses and deadlines -/

/-- The completion of an A query by a message, if the message is taken for its response. -/
def matchA (data : List Byte) : Option DnsCompletion :=
  match parseResponse data slot.txnId.toNat with
  | some (.ok result) =>
    some
      { replySlot := i, queryType := .a, success := true, dnsResult := result, error := .other
        ptrHostname := [] }
  | some (.error rcode) =>
    some
      { replySlot := i, queryType := .a, success := false, dnsResult := noResult
        error := rcodeToError rcode, ptrHostname := [] }
  | _ => none

/-- The completion of a PTR query by a message. -/
def matchPtr (data : List Byte) : Option DnsCompletion :=
  match parsePtrResponse data slot.txnId.toNat with
  | some (.ok name) =>
    some
      { replySlot := i, queryType := .ptr, success := true, dnsResult := noResult, error := .other
        ptrHostname := name }
  | some (.error rcode) =>
    some
      { replySlot := i, queryType := .ptr, success := false, dnsResult := noResult
        error := rcodeToError rcode, ptrHostname := [] }
  | _ => none

/-- The completion of a slot by a message. -/
def matchSlot (data : List Byte) (i : Fin maxPendingDns) : Option DnsCompletion :=
  if (r.pending i).active then
    match (r.pending i).query.queryType with
    | .a => matchA i (r.pending i) data
    | .ptr => matchPtr i (r.pending i) data
  else none

/-- One datagram in `process_pending`: it completes the first slot that takes it. -/
def processDatagram (r : Resolver) (d : Datagram) : Resolver :=
  if d.srcIp ≠ net.dnsServer ∨ d.srcPort ≠ dnsPort then r
  else
    match (List.finRange maxPendingDns).findSome? (r.matchSlot d.payload) with
    | none => r
    | some c => r.complete c.replySlot c

/-- The completion of a slot whose time is over. -/
def timedOut : DnsCompletion where
  replySlot := i
  queryType := slot.query.queryType
  success := false
  dnsResult := noResult
  error := .timeout
  ptrHostname := []

/-- The deadline of one slot in `process_pending`. -/
def checkDeadline (now : ℕ) (r : Resolver) (i : Fin maxPendingDns) : Resolver :=
  if (r.pending i).active && decide (now ≥ (r.pending i).deadlineNs) then
    if (r.pending i).attempt < dnsMaxRetries then
      if r.sendQueryForSlot net (r.pending i) then
        r.setSlot i
          { r.pending i with
            attempt := (r.pending i).attempt + 1, deadlineNs := later now dnsTimeoutNs }
      else r.setSlot i { r.pending i with deadlineNs := later now arpRetryNs }
    else r.complete i (timedOut i (r.pending i))
  else r

/-- `process_pending`. -/
def processPending (received : List Datagram) (now : ℕ) : Resolver :=
  if r.socketReady then
    (List.finRange maxPendingDns).foldl (checkDeadline net now) (received.foldl (processDatagram net) r)
  else r

/-- `drain_dns_completions`: the completions are popped from the end. -/
def drainDnsCompletions : Resolver :=
  { r with
    completions := []
    replies := r.replies ++
      r.completions.reverse.map fun c => { call := r.callers c.replySlot, completion := c } }

/-! ## Runs -/

/-- What happens to the resolver. `wake` is a round of the event loop after a notification or a
timeout. -/
inductive Event where
  | resolve (net : Network) (hostname : List Byte) (txnId : BitVec 16) (saved : Bool) (now : ℕ)
  | resolvePtr (net : Network) (ip : BitVec 32) (txnId : BitVec 16) (saved : Bool) (now : ℕ)
  | arpUpdate (net : Network) (now : ℕ)
  | wake (net : Network) (received : List Datagram) (now : ℕ)

/-- The time of an event. -/
def Event.now : Event → ℕ
  | resolve _ _ _ _ now => now
  | resolvePtr _ _ _ _ now => now
  | arpUpdate _ now => now
  | wake _ _ now => now

/-- The messages among the datagrams that come from the server. -/
def fromServer (received : List Datagram) : List (List Byte) :=
  (received.filter fun d => d.srcIp == net.dnsServer && d.srcPort == dnsPort).map Datagram.payload

/-- What an event does. -/
def Event.apply : Event → Resolver
  | resolve net hostname txnId saved now => r.startResolve net hostname txnId saved now
  | resolvePtr net ip txnId saved now => r.startResolvePtr net ip txnId saved now
  | arpUpdate net now => r.flushArpWaiters net now
  | wake net received now =>
    { (r.processPending net received now).drainDnsCompletions with
      heard := r.heard ++ fromServer net received }

/-- The state after an event. -/
def Event.exec (e : Event) : Resolver := { e.apply r with clock := e.now }

/-- The state after a list of events. -/
def run (es : List Event) : Resolver := es.foldl Event.exec r

/-- The state after `init_dns_socket`. -/
def initial (socketReady : Bool) : Resolver where
  socketReady
  pending := fun _ => .zeroed
  completions := []
  callers := fun _ => 0
  calls := []
  replies := []
  heard := []
  clock := 0

end Resolver

end SaltyOS.Dns
