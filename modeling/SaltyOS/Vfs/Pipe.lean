import SaltyOS.Lib.GapRing
import SaltyOS.Vfs.Types

/-!
# Pipes

A pipe of the file server: a ring of bytes, the reference counts of its two ends, and the clients
that wait to read or to write. The operations are those of one request: a read, a write, and the
closing of an end. A request is answered at once, or its caller is saved and put into a queue, or its
caller is saved and the queue turns out to be full.
-/

namespace SaltyOS.Vfs

/-- A client that waits to read. -/
structure PipeReadWaiter where
  waiter : Waiter
  requestedLen : ℕ
  deriving DecidableEq, Repr

/-- A client that waits to write. -/
structure PipeWriteWaiter where
  waiter : Waiter
  data : List Byte
  deriving DecidableEq, Repr

/-- The size of the ring of a pipe. -/
def pipeBufSize : ℕ := 4096

/-- The number of clients that can wait at each end of a pipe. -/
def pipeWaiters : ℕ := 4

/-- A pipe. -/
structure PipeState where
  readRefcount : ℕ
  writeRefcount : ℕ
  buf : GapRing Byte pipeBufSize
  recvWaiters : List PipeReadWaiter
  writeWaiters : List PipeWriteWaiter

/-- `alloc_pipe`. -/
def PipeState.new : PipeState where
  readRefcount := 1
  writeRefcount := 1
  buf := GapRing.empty (fun _ => 0) (by decide)
  recvWaiters := []
  writeWaiters := []

/-- What a request does to a pipe. The reply is missing if the request is deferred. `saved` says that
the caller was saved in a reply slot. -/
structure PipeEffect where
  pipe : PipeState
  sends : List (Waiter × Reply)
  reply : Option Reply
  saved : Bool

namespace PipeState

variable (p : PipeState)

/-- The pipe is unchanged and the caller gets a reply. -/
def answer (reply : Reply) : PipeEffect :=
  { pipe := p, sends := [], reply := some reply, saved := false }

/-- The caller was saved, but there is no room for it in the queue. -/
def overflow : PipeEffect := { p.answer (.error .wouldBlock) with saved := true }

/-- The caller is saved and waits. The pipe is the one with the caller in the queue. -/
def defer : PipeEffect := { pipe := p, sends := [], reply := none, saved := true }

/-! ## Reading -/

/-- The number of bytes that a read of the given length gets. -/
def readCount (avail requested : ℕ) : ℕ :=
  min (if 0 < requested ∧ requested < avail then requested else avail) 152

theorem readCount_le (avail requested : ℕ) :
  readCount avail requested ≤ avail
  := by
  unfold readCount
  split <;> omega

/-- The read of `handle_pipe_read` and the writer that it wakes. -/
def readNow (count : ℕ) : PipeEffect :=
  match p.writeWaiters with
  | [] =>
    { pipe := { p with buf := p.buf.drop count }
      sends := []
      reply := some (.bytes (p.buf.peek count))
      saved := false }
  | w :: ws =>
    { pipe := { p with buf := (p.buf.drop count).write w.data, writeWaiters := ws }
      sends := [(w.waiter, .ok [(p.buf.drop count).writeLen w.data])]
      reply := some (.bytes (p.buf.peek count))
      saved := false }

/-- The number of bytes that a waiting reader gets at most. -/
def waitLen (requested : ℕ) : ℕ :=
  if 0 < requested ∧ requested < 152 then requested else 152

/-- `pipe_push_recv_waiter`. -/
def pushRecvWaiter (r : PipeReadWaiter) : PipeState :=
  { p with recvWaiters := p.recvWaiters ++ [r] }

/-- `handle_pipe_read`, for a slot with the right to read. -/
def read (requested : ℕ) (nonblocking : Bool) (w : Waiter) : PipeEffect :=
  if 0 < p.buf.len then p.readNow (readCount p.buf.len requested)
  else if p.writeRefcount = 0 then p.answer (.bytes [])
  else if nonblocking then p.answer (.error .wouldBlock)
  else if p.recvWaiters.length ≥ pipeWaiters then p.overflow
  else (p.pushRecvWaiter { waiter := w, requestedLen := waitLen requested }).defer

/-! ## Writing -/

/-- The write of `handle_pipe_write` and the reader that it wakes. -/
def writeNow (data : List Byte) : PipeEffect :=
  match p.recvWaiters with
  | [] =>
    { pipe := { p with buf := p.buf.write data }
      sends := []
      reply := some (.ok [p.buf.writeLen data])
      saved := false }
  | r :: rs =>
    { pipe :=
        { p with
          buf := (p.buf.write data).drop (readCount (p.buf.write data).len r.requestedLen)
          recvWaiters := rs }
      sends := [(r.waiter,
        .bytes ((p.buf.write data).peek (readCount (p.buf.write data).len r.requestedLen)))]
      reply := some (.ok [p.buf.writeLen data])
      saved := false }

/-- `pipe_push_write_waiter`. -/
def pushWriteWaiter (w : PipeWriteWaiter) : PipeState :=
  { p with writeWaiters := p.writeWaiters ++ [w] }

/-- `handle_pipe_write`, for a slot with the right to write. -/
def write (data : List Byte) (nonblocking : Bool) (w : Waiter) : PipeEffect :=
  if p.readRefcount = 0 then p.answer (.error .invalidOperation)
  else if p.buf.free = 0 then
    if nonblocking then p.answer (.error .wouldBlock)
    else if p.writeWaiters.length ≥ pipeWaiters then p.overflow
    else (p.pushWriteWaiter { waiter := w, data := data.take 144 }).defer
  else if p.buf.writeLen (data.take 144) = 0 then p.answer (.ok [0])
  else p.writeNow (data.take 144)

/-! ## Closing -/

/-- `close_pipe` for a slot with the right to read. The pipe is released if both counts are zero. -/
def closeRead : PipeState × List (Waiter × Reply) :=
  if p.readRefcount - 1 = 0 then
    ({ p with readRefcount := 0, writeWaiters := [] },
      p.writeWaiters.map fun w => (w.waiter, .error .invalidOperation))
  else ({ p with readRefcount := p.readRefcount - 1 }, [])

/-- `close_pipe` for a slot without the right to read. -/
def closeWrite : PipeState × List (Waiter × Reply) :=
  if p.writeRefcount - 1 = 0 then
    ({ p with writeRefcount := 0, recvWaiters := [] }, p.recvWaiters.map fun r => (r.waiter, .bytes []))
  else ({ p with writeRefcount := p.writeRefcount - 1 }, [])

/-- Both ends are closed. -/
def isClosed : Bool := p.readRefcount == 0 && p.writeRefcount == 0

end PipeState

end SaltyOS.Vfs
