import SaltyOS.Tmpfs.Pool
import SaltyOS.Vfs.Vnode

/-!
# The records of a tmpfs

A mount of a tmpfs has an array of records, one for every file, directory or symbolic link, the pool
of blocks, the marks of the targets of symbolic links, and counters of the records and bytes in use.
A record is named by its index in the array. The array is moved when it grows, so a pointer to a
record is its index together with the number of moves of the array so far.

The modes, owners and times of the records, and the targets of the symbolic links, are left out: no
operation here depends on them.
-/

namespace SaltyOS.Tmpfs

export Vfs (VfsError Vtype Name)

/-- An entry of a directory. The number of the record is cut to 32 bits. -/
structure Dirent where
  ino : ℕ
  name : Name
  deriving DecidableEq, Repr

/-- A record. The entries of a directory are an array, in which some places are free. -/
structure VnodeData where
  active : Bool
  ftype : Vtype
  id : ℕ
  vnode : Option ℕ
  parentId : ℕ
  nlink : ℕ
  size : ℕ
  dirents : List (Option Dirent)
  writableHead : ℕ
  symlinkData : Option ℕ
  deriving DecidableEq, Repr

namespace VnodeData

/-- `TmpfsVnodeData::zeroed`. -/
def zeroed : VnodeData where
  active := false
  ftype := .bad
  id := 0
  vnode := none
  parentId := 0
  nlink := 0
  size := 0
  dirents := []
  writableHead := invalidSlot
  symlinkData := none

end VnodeData

/-- `INITIAL_VDATA`. -/
def initialVdata : ℕ := 64

/-- `INITIAL_SYMLINKS`. -/
def initialSymlinks : ℕ := 32

/-- The data of a mount. -/
structure MountData where
  maxBytes : ℕ
  usedBytes : ℕ
  maxInodes : ℕ
  usedInodes : ℕ
  vdata : List VnodeData
  moves : ℕ
  pool : WritablePool
  symlinkUsed : List Bool
  nextId : ℕ

namespace MountData

/-- `init_pools`, with the limits from the options of the mount. -/
def init (maxBytes maxInodes : ℕ) : MountData where
  maxBytes := maxBytes
  usedBytes := 0
  maxInodes := maxInodes
  usedInodes := 0
  vdata := List.replicate initialVdata .zeroed
  moves := 0
  pool := .init
  symlinkUsed := List.replicate initialSymlinks false
  nextId := 1

variable (md : MountData)

/-- Replace a record. -/
def setVdata (i : ℕ) (vd : VnodeData) : MountData :=
  { md with vdata := md.vdata.set i vd }

/-- The blocks change. -/
def setPool (pool : WritablePool) : MountData := { md with pool }

/-- The answers of the memory server to the requests to come. -/
def expect (memory : List Bool) : MountData := md.setPool { md.pool with memory }

/-! ## Records -/

/-- The record that `alloc_vdata` gives. -/
def newVdata : VnodeData := { VnodeData.zeroed with active := true }

/-- `alloc_vdata`, with the index of the new record. -/
def allocVdata : MountData × Option ℕ :=
  match md.vdata.findIdx? fun vd => !vd.active with
  | some i => (md.setVdata i newVdata, some i)
  | none =>
    if md.vdata = [] then (md, none)
    else if md.pool.granted = false then (md.setPool md.pool.answered, none)
    else
      (MountData.setVdata
        { md.setPool md.pool.answered with
          vdata := md.vdata ++ List.replicate (WritablePool.growth md.vdata.length) .zeroed
          moves := md.moves + 1 } md.vdata.length newVdata, some md.vdata.length)

/-! ## Accounting -/

/-- `check_bytes`. -/
def checkBytes (bytes : ℕ) : Bool :=
  md.maxBytes == 0 || decide ((md.usedBytes + bytes) % 2 ^ 64 ≤ md.maxBytes)

/-- `account_bytes_add`. -/
def accountBytesAdd (bytes : ℕ) : MountData :=
  { md with usedBytes := (md.usedBytes + bytes) % 2 ^ 64 }

/-- `account_bytes_sub`. -/
def accountBytesSub (bytes : ℕ) : MountData :=
  { md with usedBytes := md.usedBytes - bytes }

/-- `free_symlink`. -/
def freeSymlink (slot : Option ℕ) : MountData :=
  match slot with
  | none => md
  | some j => { md with symlinkUsed := md.symlinkUsed.set j false }

/-- `free_vdata_storage`, for the record with an index. -/
def freeVdataStorage (i : ℕ) (vd : VnodeData) : MountData :=
  if vd.ftype = .lnk then
    (md.freeSymlink vd.symlinkData).setVdata i
      { vd with symlinkData := none, size := 0, active := false }
  else
    ((md.setPool (md.pool.freeChain vd.writableHead)).accountBytesSub vd.size).setVdata i
      { vd with writableHead := invalidSlot, size := 0, active := false }

/-! ## The contents of files -/

/-- `tmpfs_read`, for the record with an index. -/
def tmpfsRead (i offset len : ℕ) : Except VfsError (List Byte) :=
  match md.vdata[i]? with
  | none => .error .io
  | some vd =>
    if vd.ftype = .dir then .error .isDir
    else if vd.size ≤ offset then .ok []
    else .ok (md.pool.chainRead vd.writableHead offset (min len (vd.size - offset)))

/-- A record gets its first block, unless it has one. -/
def ensureHead (i : ℕ) (vd : VnodeData) : MountData × Option VnodeData :=
  if vd.writableHead = invalidSlot then
    match md.pool.allocWritable.2 with
    | none => (md.setPool md.pool.allocWritable.1, none)
    | some slot =>
      ((md.setPool md.pool.allocWritable.1).setVdata i { vd with writableHead := slot },
        some { vd with writableHead := slot })
  else (md, some vd)

/-- The rest of `tmpfs_write`, for a record that has a block. -/
def writeChain (i : ℕ) (vd : VnodeData) (offset : ℕ) (src : List Byte) :
    MountData × Except VfsError ℕ :=
  if (md.pool.chainWrite vd.writableHead offset src).2 = 0 ∧ src ≠ [] then
    (md.setPool (md.pool.chainWrite vd.writableHead offset src).1, .error .noSpace)
  else if vd.size < (offset + (md.pool.chainWrite vd.writableHead offset src).2) % 2 ^ 64 then
    (((md.setPool (md.pool.chainWrite vd.writableHead offset src).1).accountBytesAdd
      ((offset + (md.pool.chainWrite vd.writableHead offset src).2) % 2 ^ 64 - vd.size)).setVdata i
      { vd with size := (offset + (md.pool.chainWrite vd.writableHead offset src).2) % 2 ^ 64 },
      .ok (md.pool.chainWrite vd.writableHead offset src).2)
  else
    (md.setPool (md.pool.chainWrite vd.writableHead offset src).1,
      .ok (md.pool.chainWrite vd.writableHead offset src).2)

/-- `tmpfs_write`, for the record with an index, with the number of bytes that were written. -/
def tmpfsWrite (i offset : ℕ) (src : List Byte) : MountData × Except VfsError ℕ :=
  match md.vdata[i]? with
  | none => (md, .error .io)
  | some vd =>
    if vd.ftype = .dir then (md, .error .isDir)
    else if vd.size < (offset + src.length) % 2 ^ 64 ∧
        md.checkBytes ((offset + src.length) % 2 ^ 64 - vd.size) = false then
      (md, .error .noSpace)
    else
      match (md.ensureHead i vd).2 with
      | none => ((md.ensureHead i vd).1, .error .noSpace)
      | some vd' => (md.ensureHead i vd).1.writeChain i vd' offset src

/-- `tmpfs_truncate`, for the record with an index. -/
def tmpfsTruncate (i size : ℕ) : MountData × Except VfsError Unit :=
  match md.vdata[i]? with
  | none => (md, .error .io)
  | some vd =>
    if size < vd.size then
      (((md.setPool (md.pool.chainTruncate vd.writableHead size)).accountBytesSub
        (vd.size - size)).setVdata i { vd with size }, .ok ())
    else if vd.size < size then
      if md.checkBytes (size - vd.size) = false then (md, .error .noSpace)
      else
        match (md.ensureHead i vd).2 with
        | none => ((md.ensureHead i vd).1, .error .noSpace)
        | some vd' =>
          (((md.ensureHead i vd).1.accountBytesAdd (size - vd.size)).setVdata i { vd' with size },
            .ok ())
    else (md.setVdata i { vd with size }, .ok ())

end MountData

end SaltyOS.Tmpfs
