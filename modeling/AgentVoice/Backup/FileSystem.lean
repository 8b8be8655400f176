import AgentVoice.Foundations.Program
import Mathlib.Logic.Function.Basic

/-!
# The file system a snapshot is written to

Directories bind names to files; files are told apart by their inode (device and inode number). The writer makes the
system calls of `SystemCall`; any of them may fail, and then has no effect, and other processes may create, replace,
link or delete entries and move the parent directory between two calls. A check of an entry's identity and the rename
or unlink it guards are one call. The log lists what the writer itself did to directory entries.
-/

namespace AgentVoice.Backup

open AgentVoice.Foundations

/-- A device and inode number. -/
abbrev Inode := ℕ

/-- An open directory. -/
abbrev Directory := ℕ

/-- `io::ErrorKind`, as far as it is looked at. -/
inductive IoError where
  | notFound
  | alreadyExists
  | other
  deriving DecidableEq, Repr

/-- A file. -/
structure FileNode where
  contents : List UInt8
  /-- Whether the contents have been synchronised. -/
  synced : Bool
  symlink : Bool
  deriving DecidableEq

/-- The metadata of a directory. -/
structure DirectoryStat where
  isDir : Bool
  mode : ℕ
  uid : ℕ

/-- `metadata_identity`: the inode, and whether the entry is a symbolic link. -/
abbrev Identity := Inode × Bool

/-- Directories and files. Entries lead to files that exist. -/
structure Disk where
  entries : Directory × String → Option Inode
  files : Inode → FileNode
  /-- The inodes not in use are those from here on. -/
  unused : Inode
  directories : Directory → DirectoryStat
  /-- What the path of the parent leads to, without following a symbolic link at its end. -/
  parentEntry : Option Directory
  /-- What the path of the parent leads to. -/
  parentTarget : Option Directory
  allocated : ∀ l i, entries l = some i → i < unused

namespace Disk

variable (disk : Disk)

/-- Removes an entry. -/
def unbind (l : Directory × String) : Disk where
  entries := Function.update disk.entries l none
  files := disk.files
  unused := disk.unused
  directories := disk.directories
  parentEntry := disk.parentEntry
  parentTarget := disk.parentTarget
  allocated := by
    intro l' i h
    by_cases hl : l' = l
    · rw [hl, Function.update_self] at h
      cases h
    · rw [Function.update_of_ne hl] at h
      exact disk.allocated l' i h

/-- Binds an entry to the file of another entry; without one nothing changes. -/
def link (l source : Directory × String) : Disk where
  entries := Function.update disk.entries l ((disk.entries source).or (disk.entries l))
  files := disk.files
  unused := disk.unused
  directories := disk.directories
  parentEntry := disk.parentEntry
  parentTarget := disk.parentTarget
  allocated := by
    intro l' i h
    by_cases hl : l' = l
    · rw [hl, Function.update_self] at h
      cases hsource : disk.entries source with
      | none =>
        rw [hsource, Option.none_or] at h
        exact disk.allocated l i h
      | some j =>
        rw [hsource, Option.some_or] at h
        exact disk.allocated source i (hsource.trans h)
    · rw [Function.update_of_ne hl] at h
      exact disk.allocated l' i h

/-- Binds an entry to a new file. -/
def create (l : Directory × String) (node : FileNode) : Disk where
  entries := Function.update disk.entries l (some disk.unused)
  files := Function.update disk.files disk.unused node
  unused := disk.unused + 1
  directories := disk.directories
  parentEntry := disk.parentEntry
  parentTarget := disk.parentTarget
  allocated := by
    intro l' i h
    by_cases hl : l' = l
    · rw [hl, Function.update_self] at h
      cases h
      exact Nat.lt_succ_self _
    · rw [Function.update_of_ne hl] at h
      exact Nat.lt_succ_of_lt (disk.allocated l' i h)

/-- Changes the file of an inode. -/
def modify (i : Inode) (f : FileNode → FileNode) : Disk :=
  { disk with files := Function.update disk.files i (f (disk.files i)) }

end Disk

/-- What the writer did to directory entries. -/
inductive Effect where
  | created (d : Directory) (name : String) (i : Inode)
  | removed (d : Directory) (name : String) (i : Inode)
  /-- A rename, with the file as it was then and the entry that stood at the target. -/
  | renamed (d : Directory) (source target : String) (i : Inode) (node : FileNode) (replaced : Option Inode)
  deriving DecidableEq

/-- The disk, the counter of temporary names, and the log. -/
structure Scene where
  disk : Disk
  /-- `TEMP_SEQUENCE`. -/
  sequence : UInt64
  effects : List Effect

/-! ### System calls -/

/-- Whose `Drop` makes a call. -/
inductive Guard where
  | createdTemporary
  | temporaryFile
  deriving DecidableEq

/-- The calls of the writer. -/
inductive SystemCall : Type → Type where
  /-- `fs::symlink_metadata(parent)`. -/
  | parentMetadata : SystemCall (Except IoError (Directory × DirectoryStat))
  /-- `File::open(parent)`. -/
  | openParent : SystemCall (Except IoError Directory)
  /-- `directory.metadata()` and `fstat(&directory)`. -/
  | directoryMetadata (d : Directory) : SystemCall (Except IoError (Directory × DirectoryStat))
  /-- `entry_identity_at`. -/
  | entryIdentityAt (d : Directory) (name : String) : SystemCall (Except IoError Identity)
  /-- `TEMP_SEQUENCE.fetch_add(1, Ordering::Relaxed)`. -/
  | fetchSequence : SystemCall UInt64
  /-- `parent_directory.try_clone()`. -/
  | tryClone (d : Directory) : SystemCall (Except IoError Directory)
  /-- `open_temporary_at`. -/
  | openTemporaryAt (d : Directory) (name : String) : SystemCall (Except IoError Inode)
  /-- `file.metadata()`. -/
  | fileMetadata (file : Inode) : SystemCall (Except IoError Identity)
  /-- `file.set_permissions(..)`. -/
  | setPermissions (file : Inode) (mode : ℕ) : SystemCall (Except IoError Unit)
  /-- `file.write(buf)`. -/
  | write (file : Inode) (buf : List UInt8) : SystemCall (Except IoError ℕ)
  /-- `file.sync_all()`. -/
  | syncAll (file : Inode) : SystemCall (Except IoError Unit)
  /-- `publish_without_replacement_owned`, after the names. -/
  | publishOwned (d : Directory) (source target : String) (identity : Identity) : SystemCall (Except IoError Unit)
  /-- `unlink_at`. -/
  | unlinkAt (d : Directory) (name : String) : SystemCall (Except IoError Unit)
  /-- `remove_if_owned_at`. -/
  | removeIfOwnedAt (guard : Guard) (d : Directory) (name : String) (identity : Identity) : SystemCall Bool
  /-- `remove_if_owned`, of a file in the parent directory. -/
  | removeIfOwned (name : String) (identity : Identity) : SystemCall Unit
  /-- `parent.sync_all()`. -/
  | syncDirectory (d : Directory) : SystemCall (Except IoError Unit)

/-- How a call goes. -/
structure Outcome where
  /-- The error with which the call fails. -/
  error : Option IoError
  /-- How many bytes a write takes at most. -/
  count : ℕ

namespace Scene

variable (s : Scene)

/-- The writer removes an entry. -/
def remove (d : Directory) (name : String) (i : Inode) : Scene :=
  { s with disk := s.disk.unbind (d, name), effects := s.effects ++ [.removed d name i] }

/-- The identity of an entry. -/
def identityAt (d : Directory) (name : String) : Except IoError Identity :=
  okOr ((s.disk.entries (d, name)).map fun i => (i, (s.disk.files i).symlink)) .notFound

/-- What the path of the parent leads to, with its metadata. -/
def statOf (d : Option Directory) : Except IoError (Directory × DirectoryStat) :=
  okOr (d.map fun d => (d, s.disk.directories d)) .notFound

/-- `open_temporary_at`: an entry is created exclusively. -/
def openTemporaryAt (d : Directory) (name : String) : Except IoError Inode × Scene :=
  match s.disk.entries (d, name) with
  | some _ => (.error .alreadyExists, s)
  | none =>
    (.ok s.disk.unused,
      { s with disk := s.disk.create (d, name) ⟨[], false, false⟩,
               effects := s.effects ++ [.created d name s.disk.unused] })

/-- `write`: a part of the buffer is appended. -/
def write (file : Inode) (buf : List UInt8) (count : ℕ) : Except IoError ℕ × Scene :=
  (.ok (min count buf.length),
    { s with disk := s.disk.modify file fun node => { node with contents := node.contents ++ buf.take count, synced := false } })

/-- `publish_without_replacement_owned`: the rename takes place unless the target exists. -/
def publishOwned (d : Directory) (source target : String) (identity : Identity) : Except IoError Unit × Scene :=
  match s.disk.entries (d, source) with
  | none => (.error .other, s)
  | some i =>
    if (s.disk.files i).symlink = false ∧ (i, (s.disk.files i).symlink) = identity then
      if (s.disk.entries (d, target)).isSome then (.error .alreadyExists, s)
      else
        (.ok (),
          { s with disk := (s.disk.link (d, target) (d, source)).unbind (d, source),
                   effects := s.effects ++ [.renamed d source target i (s.disk.files i) (s.disk.entries (d, target))] })
    else (.error .other, s)

/-- `unlink_at`. -/
def unlinkAt (d : Directory) (name : String) : Except IoError Unit × Scene :=
  match s.disk.entries (d, name) with
  | none => (.error .notFound, s)
  | some i => (.ok (), s.remove d name i)

/-- `remove_if_owned_at`. -/
def removeIfOwnedAt (d : Directory) (name : String) (identity : Identity) : Bool × Scene :=
  match s.disk.entries (d, name) with
  | none => (false, s)
  | some i =>
    if (i, (s.disk.files i).symlink) ≠ identity then (false, s) else (true, s.remove d name i)

/-- `remove_if_owned`: the path is followed anew, and only inodes are compared. -/
def removeIfOwned (name : String) (identity : Identity) : Unit × Scene :=
  match s.disk.parentTarget with
  | none => ((), s)
  | some d =>
    match s.disk.entries (d, name) with
    | none => ((), s)
    | some i => if identity.1 = i then ((), s.remove d name i) else ((), s)

end Scene

/-- A call that fails has no effect. -/
def fallible {α : Type} (o : Outcome) (s : Scene) (r : Except IoError α × Scene) : Except IoError α × Scene :=
  match o.error with
  | some e => (.error e, s)
  | none => r

/-- What a call does. -/
def perform {β : Type} (c : SystemCall β) (o : Outcome) (s : Scene) : β × Scene :=
  match c with
  | .parentMetadata => fallible o s (s.statOf s.disk.parentEntry, s)
  | .openParent => fallible o s (okOr s.disk.parentTarget .notFound, s)
  | .directoryMetadata d => fallible o s (s.statOf (some d), s)
  | .entryIdentityAt d name => fallible o s (s.identityAt d name, s)
  | .fetchSequence => (s.sequence, { s with sequence := s.sequence + 1 })
  | .tryClone d => fallible o s (.ok d, s)
  | .openTemporaryAt d name => fallible o s (s.openTemporaryAt d name)
  | .fileMetadata file => fallible o s (.ok (file, (s.disk.files file).symlink), s)
  | .setPermissions _ _ => fallible o s (.ok (), s)
  | .write file buf => fallible o s (s.write file buf o.count)
  | .syncAll file => fallible o s (.ok (), { s with disk := s.disk.modify file fun node => { node with synced := true } })
  | .publishOwned d source target identity => fallible o s (s.publishOwned d source target identity)
  | .unlinkAt d name => fallible o s (s.unlinkAt d name)
  | .removeIfOwnedAt _ d name identity => if o.error.isSome then (false, s) else s.removeIfOwnedAt d name identity
  | .removeIfOwned name identity => if o.error.isSome then ((), s) else s.removeIfOwned name identity
  | .syncDirectory _ => fallible o s (.ok (), s)

/-! ### Other processes -/

/-- What other processes do. -/
inductive Change where
  /-- A new file takes an entry, whatever stood there. -/
  | create (l : Directory × String) (node : FileNode)
  /-- An entry is bound to a file that has another entry. -/
  | link (l source : Directory × String)
  | delete (l : Directory × String)
  /-- The path of the parent is moved. -/
  | moveParent (entry target : Option Directory)
  | setStat (d : Directory) (stat : DirectoryStat)
  /-- Other writers of the process take temporary names. -/
  | takeNames (n : UInt64)

/-- The scene after a change by others. -/
def interfere (c : Change) (s : Scene) : Scene :=
  match c with
  | .create l node => { s with disk := s.disk.create l node }
  | .link l source => { s with disk := s.disk.link l source }
  | .delete l => { s with disk := s.disk.unbind l }
  | .moveParent entry target => { s with disk := { s.disk with parentEntry := entry, parentTarget := target } }
  | .setStat d stat => { s with disk := { s.disk with directories := Function.update s.disk.directories d stat } }
  | .takeNames n => { s with sequence := s.sequence + n }

/-- What happens around the writer. -/
abbrev fileSystem : Program.Semantics SystemCall Scene Outcome Change := ⟨perform, interfere⟩

end AgentVoice.Backup
