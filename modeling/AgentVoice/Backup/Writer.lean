import AgentVoice.Backup.FileSystem

/-!
# The atomic snapshot writer

`write_inner` of `src/pa/backup/writer.rs`, as a program of system calls: the snapshot is written to a temporary file
next to its destination, synchronised, and renamed to the destination unless that exists. The two guards of the
temporary file remove it when a step fails before publication: `CreatedTemporary` while the file is being set up, and
`TemporaryFile` after that. A destination is its file name in the parent directory, if it has one.
-/

namespace AgentVoice.Backup

open AgentVoice.Foundations

/-- `WriterError`. -/
inductive WriterError where
  | destinationExists
  | invalidDestination
  | invalidInput
  | write
  | sync
  | rename
  | directorySync
  deriving DecidableEq, Repr

/-- `FaultStage`. -/
inductive FaultStage where
  | none
  | write
  | fileSync
  | rename
  | directorySync
  deriving DecidableEq, Repr

/-- The programs of the writer. -/
abbrev Writer := Program SystemCall WriterError

/-- `TEMP_COLLISION_LIMIT`. -/
def tempCollisionLimit : ℕ := 32

/-- The file name of `temporary_path`. -/
def temporaryName (pid : ℕ) (sequence : UInt64) : String :=
  ".agent-voice-snapshot-" ++ toString pid ++ "-" ++ toString sequence ++ ".tmp"

/-! ### The parent and the destination -/

/-- `destination_parent`; the result is the file name of the destination. -/
def destinationParent (destination : Option String) : Writer String := do
  let name ← Program.done (okOr destination .invalidDestination)
  let (_, metadata) ← Program.attempt .parentMetadata .invalidDestination
  Program.ensure (metadata.isDir = true) .invalidDestination
  return name

/-- `trusted_parent_stat`. -/
def trustedParentStat (euid : ℕ) (stat : DirectoryStat) : Prop := stat.mode &&& 0o022 = 0 ∧ stat.uid = euid

instance (euid : ℕ) (stat : DirectoryStat) : Decidable (trustedParentStat euid stat) :=
  inferInstanceAs (Decidable (_ ∧ _))

/-- `open_parent_directory`. -/
def openParentDirectory (euid : ℕ) : Writer Directory := do
  let directory ← Program.attempt .openParent .invalidDestination
  let (handle, handleMetadata) ← Program.attempt (.directoryMetadata directory) .invalidDestination
  let (path, _) ← Program.attempt .parentMetadata .invalidDestination
  let (_, stat) ← Program.attempt (.directoryMetadata directory) .invalidDestination
  Program.ensure (handleMetadata.isDir = true ∧ handle = path ∧ trustedParentStat euid stat) .invalidDestination
  return directory

/-- What `ensure_destination_absent_at` makes of the identity of the destination. -/
def absent : Except IoError Identity → Writer Unit
  | .ok _ => Program.fail .destinationExists
  | .error .notFound => return ()
  | .error _ => Program.fail .invalidDestination

/-- `ensure_destination_absent_at`. -/
def ensureDestinationAbsentAt (parent : Directory) (name : String) : Writer Unit :=
  Program.call (.entryIdentityAt parent name) absent

/-! ### The temporary file -/

/-- `TemporaryFile`. -/
structure TemporaryFile where
  parent : Directory
  name : String
  file : Inode
  identity : Identity

/-- `Drop` of a `CreatedTemporary` whose identity was not recorded. -/
def dropUnidentified (parent : Directory) (name : String) : Writer Unit := do
  let _ ← Program.invoke (.unlinkAt parent name)

/-- `Drop` of a `CreatedTemporary` with its identity. -/
def dropIdentified (parent : Directory) (name : String) (identity : Identity) : Writer Unit := do
  let _ ← Program.invoke (.removeIfOwnedAt .createdTemporary parent name identity)

/-- What `TemporaryFile::create` does with a file it created. -/
def setUp (parent : Directory) (name : String) (file : Inode) : Writer TemporaryFile := do
  let identity ← (Program.attempt (.fileMetadata file) .write).onError (dropUnidentified parent name)
  (Program.attempt (.setPermissions file 0o600) .write).onError (dropIdentified parent name identity)
  return ⟨parent, name, file, identity⟩

/-- `TemporaryFile::create`, with the number of names to try. -/
def create (pid : ℕ) (parentDirectory : Directory) (destination : String) : ℕ → Writer TemporaryFile
  | 0 => Program.fail .write
  | attempts + 1 => do
    let sequence ← Program.invoke .fetchSequence
    let name := temporaryName pid sequence
    if name = destination then create pid parentDirectory destination attempts
    else
      let parentHandle ← Program.attempt (.tryClone parentDirectory) .write
      Program.call (.openTemporaryAt parentHandle name) fun
        | .ok file => setUp parentHandle name file
        | .error .alreadyExists => create pid parentDirectory destination attempts
        | .error _ => Program.fail .write

namespace TemporaryFile

variable (temporary : TemporaryFile)

/-- `path_matches_identity_at`, of what was found under the name. -/
def Owned : Except IoError Identity → Prop
  | .ok current => current.2 = false ∧ current = temporary.identity
  | .error _ => False

instance : ∀ found, Decidable (temporary.Owned found)
  | .ok _ => inferInstanceAs (Decidable (_ ∧ _))
  | .error _ => inferInstanceAs (Decidable False)

/-- `ensure_owned`. -/
def ensureOwned : Writer Unit := do
  let found ← Program.invoke (.entryIdentityAt temporary.parent temporary.name)
  Program.ensure (temporary.Owned found) .rename

/-- `Drop` of an armed `TemporaryFile`. -/
def drop : Writer Unit := do
  let removed ← Program.invoke (.removeIfOwnedAt .temporaryFile temporary.parent temporary.name temporary.identity)
  if removed = false then Program.invoke (.removeIfOwned temporary.name temporary.identity) else return ()

end TemporaryFile

/-- `write_all`, with as many writes as the buffer has bytes at most. -/
def writeAll (file : Inode) : ℕ → List UInt8 → Writer Unit
  | 0, _ => return ()
  | n + 1, buf =>
    if buf = [] then return ()
    else do
      let count ← Program.attempt (.write file buf) .write
      -- a write of no byte is an error
      Program.ensure (count ≠ 0) .write
      writeAll file n (buf.drop count)

/-- What `write_inner` makes of the result of the rename. -/
def published : Except IoError Unit → Writer Unit
  | .ok () => return ()
  | .error .alreadyExists => Program.fail .destinationExists
  | .error _ => Program.fail .rename

/-- `write_inner` from the creation of the temporary file to its publication, with the guard armed. -/
def writeTemporary (parentDirectory : Directory) (destination : String) (snapshot : List UInt8) (fault : FaultStage)
    (temporary : TemporaryFile) : Writer Unit := do
  Program.ensure (fault ≠ .write) .write
  writeAll temporary.file snapshot.length snapshot
  Program.ensure (fault ≠ .fileSync) .sync
  Program.attempt (.syncAll temporary.file) .sync
  ensureDestinationAbsentAt parentDirectory destination
  temporary.ensureOwned
  temporary.ensureOwned
  Program.ensure (fault ≠ .rename) .rename
  Program.call (.publishOwned parentDirectory temporary.name destination temporary.identity) published

/-- `write_inner`. -/
def writeInner (euid pid : ℕ) (destination : Option String) (snapshot : List UInt8) (fault : FaultStage) :
    Writer Unit := do
  Program.ensure (snapshot ≠ []) .invalidInput
  let name ← destinationParent destination
  let parentDirectory ← openParentDirectory euid
  ensureDestinationAbsentAt parentDirectory name
  let temporary ← create pid parentDirectory name tempCollisionLimit
  (writeTemporary parentDirectory name snapshot fault temporary).onError temporary.drop
  -- the guard is disarmed
  Program.ensure (fault ≠ .directorySync) .directorySync
  Program.attempt (.syncDirectory parentDirectory) .directorySync

end AgentVoice.Backup
