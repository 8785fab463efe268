import Mathlib.Data.Nat.Notation

/-!
# Messages and waiters of the file server

The replies of the file server, the events that a client can poll for, and the clients that wait for
a message. A waiter has the reply slot in which its caller is saved. It also has the number of its
request, which is not part of the implementation.
-/

namespace SaltyOS.Vfs

/-- A byte. -/
abbrev Byte : Type := BitVec 8

/-- The errors of a request. -/
inductive Label where
  | invalidArgument
  | invalidOperation
  | wouldBlock
  | outOfMemory
  | busy
  | notFound
  | alreadyExists
  | inProgress
  deriving DecidableEq, Repr

/-- A set of events of a descriptor. -/
structure Events where
  pollin : Bool
  pollout : Bool
  pollerr : Bool
  pollhup : Bool
  pollnval : Bool
  deriving DecidableEq, Repr

namespace Events

/-- No event. -/
def none : Events :=
  { pollin := false, pollout := false, pollerr := false, pollhup := false, pollnval := false }

/-- The part of some events that a client is told: errors and hang-ups are told always. -/
def matched (revents requested : Events) : Events where
  pollin := revents.pollin && requested.pollin
  pollout := revents.pollout && requested.pollout
  pollerr := revents.pollerr
  pollhup := revents.pollhup
  pollnval := revents.pollnval && requested.pollnval

/-- Every event of the first set is in the second one. -/
def Subset (e f : Events) : Prop :=
  (e.pollin = true → f.pollin = true) ∧ (e.pollout = true → f.pollout = true) ∧
    (e.pollerr = true → f.pollerr = true) ∧ (e.pollhup = true → f.pollhup = true) ∧
    (e.pollnval = true → f.pollnval = true)

end Events

/-- A message to a client. -/
inductive Reply where
  | error (label : Label)
  | ok (values : List ℕ)
  | bytes (data : List Byte)
  | message (data : List Byte) (fds : List ℕ)
  | events (revents : List (Events × ℕ))
  deriving DecidableEq, Repr

/-- A client that waits for a message to its reply slot. -/
structure Waiter where
  slot : ℕ
  badge : ℕ
  request : ℕ
  deriving DecidableEq, Repr

end SaltyOS.Vfs
