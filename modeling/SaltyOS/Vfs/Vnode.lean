import Mathlib.Data.List.Basic
import SaltyOS.Vfs.Types

/-!
# Vnodes

The errors of the file systems, and the types of the objects that a vnode stands for.
-/

namespace SaltyOS.Vfs

/-- `VfsError`. -/
inductive VfsError where
  | notFound
  | notDir
  | isDir
  | loop
  | io
  | notSupported
  | perm
  | noSpace
  | exists
  | nameTooLong
  | inval
  | busy
  | noEntry
  | sharingViolation
  | deletePending
  | readOnly
  | tooLarge
  | badHandle
  | wouldBlock
  deriving DecidableEq, Repr

/-- The types of vnodes. -/
inductive Vtype where
  | bad
  | reg
  | dir
  | lnk
  | chr
  | blk
  | fifo
  | sock
  deriving DecidableEq, Repr

/-- A name in a directory. -/
abbrev Name : Type := List Byte

end SaltyOS.Vfs
