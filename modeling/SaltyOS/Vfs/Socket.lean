import SaltyOS.Lib.GapRing
import SaltyOS.Lib.Slots
import SaltyOS.Vfs.Types

/-!
# Unix sockets

A unix socket of the file server: a ring of received bytes, the connections that wait to be accepted,
at most one client that waits to accept, at most one client that waits to receive, and the
descriptors that were sent and not yet received. The operations here change one socket.
-/

namespace SaltyOS.Vfs

/-- The states of a socket. -/
inductive SockState where
  | unbound
  | bound
  | listening
  | connecting
  | connected
  | closed
  deriving DecidableEq, Repr

/-- A connection that waits to be accepted: its client, and the socket of the client. -/
structure PendingConn where
  waiter : Waiter
  socket : ℕ
  deriving DecidableEq, Repr

/-- The size of the ring of a socket. -/
def sockBufSize : ℕ := 4096

/-- The number of connections that can wait to be accepted. -/
def initialPendingConn : ℕ := 4

/-- A socket. The descriptors in `pendingCaps` are packed with the badge of the sender. The field
`closedBy` is not part of the implementation: it is the socket that set `peerClosed`. -/
structure SocketState where
  state : SockState
  boundIno : ℕ
  backlog : ℕ
  pendingCount : ℕ
  pending : List (Option PendingConn)
  peerSocket : Option ℕ
  peerBadge : ℕ
  buf : GapRing Byte sockBufSize
  acceptWaiter : Option Waiter
  recvWaiter : Option Waiter
  pendingCaps : List ℕ
  shutRd : Bool
  shutWr : Bool
  peerClosed : Bool
  closedBy : Option ℕ
  refcount : ℕ

namespace SocketState

/-- `alloc_socket`. -/
def new : SocketState where
  state := .unbound
  boundIno := 0
  backlog := 0
  pendingCount := 0
  pending := List.replicate initialPendingConn none
  peerSocket := none
  peerBadge := 0
  buf := GapRing.empty (fun _ => 0) (by decide)
  acceptWaiter := none
  recvWaiter := none
  pendingCaps := []
  shutRd := false
  shutWr := false
  peerClosed := false
  closedBy := none
  refcount := 1

/-- The socket is connected to a socket of a client. -/
def connect (k : SocketState) (peer badge : ℕ) : SocketState :=
  { k with state := .connected, peerSocket := some peer, peerBadge := badge }

/-- Bytes arrive. A waiting client gets the first bytes of the ring, at most `limit`. -/
def arrive (k : SocketState) (data : List Byte) (limit : ℕ) (reply : List Byte → Reply) :
    SocketState × List (Waiter × Reply) :=
  match k.recvWaiter with
  | none => ({ k with buf := k.buf.write data }, [])
  | some w =>
    if k.buf.writeLen data = 0 then ({ k with buf := k.buf.write data }, [])
    else
      ({ k with buf := (k.buf.write data).drop limit, recvWaiter := none },
        [(w, reply ((k.buf.write data).peek limit))])

/-- The first bytes of the ring and all descriptors of a message are taken. -/
def takeMessage (k : SocketState) (maxData : ℕ) : SocketState :=
  { k with buf := k.buf.drop (min 120 maxData), pendingCaps := [] }

/-- The peer `h` sends nothing more. A waiting client is told so. -/
def hangUp (k : SocketState) (h : ℕ) : SocketState × List (Waiter × Reply) :=
  ({ k with peerClosed := true, closedBy := some h, recvWaiter := none },
    k.recvWaiter.toList.map fun w => (w, .bytes []))

/-- What `close_socket` sends to the clients that wait for the socket, when its last descriptor is
closed. The client that waits to receive is not among them. -/
def farewell (k : SocketState) : List (Waiter × Reply) :=
  (k.acceptWaiter.toList ++ k.pending.reduceOption.map (·.waiter)).map fun w =>
    (w, .error .invalidOperation)

end SocketState

/-! ## Descriptors in messages -/

/-- The badge of the sender and the number of a descriptor in one word of 64 bits. -/
def packCap (badge fd : ℕ) : ℕ := badge * 2 ^ 32 % 2 ^ 64 + fd % 2 ^ 32

/-- The badge in a packed descriptor. -/
def capBadge (packed : ℕ) : ℕ := packed / 2 ^ 32

/-- The number in a packed descriptor. -/
def capFd (packed : ℕ) : ℕ := packed % 2 ^ 32

end SaltyOS.Vfs
