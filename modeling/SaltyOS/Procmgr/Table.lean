import SaltyOS.Lib.Prog

/-!
# The process table

The table of the process manager, with what the handlers of credentials read of a process. An entry that is
free has been zeroed; it is `none` here. Handlers return the table and the label of the reply.
-/

namespace SaltyOS.Procmgr

/-- The real, effective and saved id of a user or of a group. -/
structure Ids where
  real : ℕ := 0
  effective : ℕ := 0
  saved : ℕ := 0
  deriving DecidableEq

/-- The credentials of a process. -/
structure PosixState where
  uids : Ids := {}
  gids : Ids := {}
  groups : List ℕ := []
  deriving DecidableEq

/-- A process. Only POSIX processes have credentials. -/
structure Process where
  badge : ℕ := 0
  posix : Option PosixState := none
  deriving DecidableEq

/-- The labels of replies. -/
inductive Label where
  | ok
  | notFound
  | invalidOperation
  | invalidArgument
  | unreachable
  deriving DecidableEq

/-- The entries and the capacity. -/
structure ProcTable where
  procs : ℕ → Option Process
  cap : ℕ

namespace ProcTable

/-- The table after `init_proctab`. -/
def initial : ProcTable := { procs := fun _ => none, cap := 16 }

variable (T : ProcTable)

/-- Replace an entry. -/
def put (i : ℕ) (p : Process) : ProcTable :=
  { T with procs := Function.update T.procs i (some p) }

/-- The first process with a property. -/
def findBy (test : Process → Bool) : Option (ℕ × Process) :=
  (List.range T.cap).findSome? fun i => ((T.procs i).filter test).map (Prod.mk i)

/-- `find_by_badge` -/
def findByBadge (badge : ℕ) : Option (ℕ × Process) := T.findBy fun p => p.badge = badge

variable {T} {i : ℕ} {p : Process}

theorem findBy_spec {test : Process → Bool} (h : T.findBy test = some (i, p)) :
  T.procs i = some p ∧ test p = true
  := by
  obtain ⟨j, -, hj⟩ := List.exists_of_findSome?_eq_some h
  obtain ⟨q, hq, heq⟩ := Option.map_eq_some_iff.mp hj
  cases heq
  exact Option.filter_eq_some_iff.mp hq

end ProcTable

end SaltyOS.Procmgr
