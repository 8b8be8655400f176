import AgentVoice.Auth.Request
import AgentVoice.Backup.FileSystem
import AgentVoice.Foundations.AsciiText
import AgentVoice.Store.Columns

/-!
# The copy of the live database

`PaStore::backup_to_path` of `src/pa/backup/source.rs`, as a program of calls: the database is copied to a new file next to
the destination, the copy is validated, and it is linked to the destination unless that exists. `AttemptGuard` holds the new
file; before it opens or links what stands under the name of the file, it checks that the name leads to that file, and after
such a check its `Drop` removes the name with the sidecars of the database. Any call may fail, and between two calls, also
between a check and what it guards, other processes may change directory entries. What SQLCipher reads from a copy is a
parameter.
-/

namespace AgentVoice.Backup

open AgentVoice.Foundations AgentVoice.Domain AgentVoice.Store
open AgentVoice.Auth (lowerHex)

/-- `MIN(version)`, `MAX(version)` and `count(*)` of `schema_migrations`. -/
structure MigrationsRow where
  minimum : Option ℤ
  maximum : Option ℤ
  count : ℤ

/-- What is read from a file under a key, unless that fails. -/
structure CopyReader where
  /-- `PRAGMA quick_check`. -/
  quickCheck : String → List UInt8 → Option String
  migrations : String → List UInt8 → Option MigrationsRow
  /-- How many of the required tables there are. -/
  requiredTables : String → List UInt8 → Option ℤ
  /-- `SELECT count(*) FROM configuration`. -/
  configurationRows : String → List UInt8 → Option ℤ

/-! ### Calls -/

/-- What a check of the identity of a file guards. -/
inductive Guarded where
  | opening | link | cleanup
  deriving DecidableEq

/-- The calls of a backup. -/
inductive CopyCall : Type → Type where
  /-- `fs::symlink_metadata(parent)`. -/
  | parentMetadata : CopyCall (Except IoError (Directory × DirectoryStat))
  /-- `fs::symlink_metadata` of an entry of the parent. -/
  | entryMetadata (name : String) : CopyCall (Except IoError Inode)
  /-- `SystemRandom::fill` of the 16 bytes of a nonce. -/
  | fillNonce : CopyCall (Except IoError (List UInt8))
  /-- `ATTEMPT_SEQUENCE.fetch_add(1, Ordering::Relaxed)`. -/
  | fetchSequence : CopyCall UInt64
  /-- `create_owned_attempt_file`. -/
  | createNew (name : String) : CopyCall (Except IoError Inode)
  /-- `File::metadata` of the own file in `path_matches_owned_file`: its device and inode. -/
  | fileMetadata (guarded : Guarded) (file : Inode) : CopyCall (Except IoError Inode)
  /-- `fs::symlink_metadata` of its path in `path_matches_owned_file`. -/
  | pathMetadata (guarded : Guarded) (name : String) : CopyCall (Except IoError Inode)
  /-- `Connection::open_with_flags`. -/
  | openDatabase (name : String) : CopyCall (Except IoError Inode)
  /-- `pragma_update(None, "key", ..)`. -/
  | applyKey (database : Inode) (key : String) : CopyCall (Except IoError Unit)
  /-- `pragma_query_value(None, "cipher_version", ..)`. -/
  | cipherVersion (database : Inode) : CopyCall (Except IoError (Option String))
  /-- `Backup::new` and `run_to_completion`. -/
  | copyInto (database : Inode) : CopyCall (Except IoError Unit)
  | quickCheck (database : Inode) (key : String) : CopyCall (Except IoError String)
  | migrations (database : Inode) (key : String) : CopyCall (Except IoError MigrationsRow)
  | requiredTables (database : Inode) (key : String) : CopyCall (Except IoError ℤ)
  | configurationRows (database : Inode) (key : String) : CopyCall (Except IoError ℤ)
  /-- `fs::hard_link`. -/
  | hardLink (name target : String) : CopyCall (Except IoError Unit)
  /-- `fs::remove_file`. -/
  | removeFile (name : String) : CopyCall (Except IoError Unit)

/-- How a call goes. -/
structure CopyOutcome where
  /-- The error with which the call fails. -/
  error : Option IoError
  /-- The nonce, or what a copy writes, also where it fails. -/
  bytes : List UInt8
  /-- `cipher_version`. -/
  version : Option String

/-- What a backup did to directory entries. -/
inductive CopyEffect where
  | created (d : Directory) (name : String) (i : Inode)
  /-- A link, with the file as it was then and the entry that stood at the target. -/
  | linked (d : Directory) (source target : String) (i : Inode) (node : FileNode) (replaced : Option Inode)
  | removed (d : Directory) (name : String) (i : Inode)
  deriving DecidableEq

/-- The disk, the counter of attempt names, and the log. -/
structure CopyScene where
  disk : Disk
  /-- `ATTEMPT_SEQUENCE`. -/
  sequence : UInt64
  effects : List CopyEffect

namespace CopyScene

variable (s : CopyScene)

/-- What a name in the parent leads to, when the path is followed. -/
def entry (name : String) : Option (Directory × Inode) :=
  s.disk.parentTarget.bind fun d => (s.disk.entries (d, name)).map (d, ·)

/-- An entry is removed. -/
def remove (d : Directory) (name : String) (i : Inode) : CopyScene :=
  { s with disk := s.disk.unbind (d, name), effects := s.effects ++ [.removed d name i] }

/-- `create_owned_attempt_file`. -/
def createNew (name : String) : Except IoError Inode × CopyScene :=
  match s.disk.parentTarget with
  | none => (.error .notFound, s)
  | some d =>
    match s.disk.entries (d, name) with
    | some _ => (.error .alreadyExists, s)
    | none =>
      (.ok s.disk.unused,
        { s with disk := s.disk.create (d, name) ⟨[], false, false⟩,
                 effects := s.effects ++ [.created d name s.disk.unused] })

/-- A copy is written to a file. -/
def copyInto (database : Inode) (bytes : List UInt8) : CopyScene :=
  { s with disk := s.disk.modify database fun node => { node with contents := bytes } }

/-- What is read from a file. -/
def read {α : Type} (reader : String → List UInt8 → Option α) (database : Inode) (key : String) : Except IoError α :=
  okOr (reader key (s.disk.files database).contents) .other

/-- `fs::hard_link`: links what stands under a name to the target, unless that exists. -/
def hardLink (name target : String) : Except IoError Unit × CopyScene :=
  match s.entry name with
  | none => (.error .notFound, s)
  | some (d, i) =>
    if (s.disk.entries (d, target)).isSome then (.error .alreadyExists, s)
    else
      (.ok (),
        { s with disk := s.disk.link (d, target) (d, name),
                 effects := s.effects ++ [.linked d name target i (s.disk.files i) (s.disk.entries (d, target))] })

/-- `fs::remove_file`. -/
def removeFile (name : String) : Except IoError Unit × CopyScene :=
  match s.entry name with
  | none => (.error .notFound, s)
  | some (d, i) => (.ok (), s.remove d name i)

end CopyScene

/-- A call that fails has no effect. -/
def CopyOutcome.fallible {α : Type} (o : CopyOutcome) (s : CopyScene) (r : Except IoError α × CopyScene) :
    Except IoError α × CopyScene :=
  match o.error with
  | some e => (.error e, s)
  | none => r

/-- What a call does. -/
def copyPerform (reader : CopyReader) {β : Type} (c : CopyCall β) (o : CopyOutcome) (s : CopyScene) : β × CopyScene :=
  match c with
  | .parentMetadata => o.fallible s (okOr (s.disk.parentEntry.map fun d => (d, s.disk.directories d)) .notFound, s)
  | .entryMetadata name => o.fallible s (okOr ((s.entry name).map (·.2)) .notFound, s)
  | .fillNonce => o.fallible s (.ok o.bytes, s)
  | .fetchSequence => (s.sequence, { s with sequence := s.sequence + 1 })
  | .createNew name => o.fallible s (s.createNew name)
  | .fileMetadata _ file => o.fallible s (.ok file, s)
  | .pathMetadata _ name => o.fallible s (okOr ((s.entry name).map (·.2)) .notFound, s)
  | .openDatabase name => o.fallible s (okOr ((s.entry name).map (·.2)) .notFound, s)
  | .applyKey _ _ => o.fallible s (.ok (), s)
  | .cipherVersion _ => o.fallible s (.ok o.version, s)
  | .copyInto database =>
    -- a copy that fails may have written a part
    (o.error.elim (.ok ()) .error, s.copyInto database o.bytes)
  | .quickCheck database key => o.fallible s (s.read reader.quickCheck database key, s)
  | .migrations database key => o.fallible s (s.read reader.migrations database key, s)
  | .requiredTables database key => o.fallible s (s.read reader.requiredTables database key, s)
  | .configurationRows database key => o.fallible s (s.read reader.configurationRows database key, s)
  | .hardLink name target => o.fallible s (s.hardLink name target)
  | .removeFile name => o.fallible s (s.removeFile name)

/-- The scene after a change by others. SQLite is one of them, where it writes the sidecars of a database. -/
def copyInterfere (c : Change) (s : CopyScene) : CopyScene :=
  match c with
  | .create l node => { s with disk := s.disk.create l node }
  | .link l source => { s with disk := s.disk.link l source }
  | .delete l => { s with disk := s.disk.unbind l }
  | .moveParent entry target => { s with disk := { s.disk with parentEntry := entry, parentTarget := target } }
  | .setStat d stat => { s with disk := { s.disk with directories := Function.update s.disk.directories d stat } }
  | .takeNames n => { s with sequence := s.sequence + n }

/-- What happens around a backup. -/
abbrev copySystem (reader : CopyReader) : Program.Semantics CopyCall CopyScene CopyOutcome Change :=
  ⟨copyPerform reader, copyInterfere⟩

/-! ### The program -/

/-- The programs of a backup. -/
abbrev Copying := Program CopyCall StoreError

/-- `backup_error`. -/
def backupError : StoreError := storedRecordInvalid "backup"

/-- `ATTEMPT_COLLISION_LIMIT`. -/
def attemptCollisionLimit : ℕ := 32

/-- `opaque_attempt_name`, after its nonce and its number. -/
def attemptName (pid : ℕ) (sequence : UInt64) (nonce : List UInt8) : String :=
  ".agent-voice-backup-attempt-" ++ toString pid ++ "-" ++ toString sequence ++ "-" ++ lowerHex ⟨nonce.toArray⟩ ++ ".db"

/-- The value of `PRAGMA key` in `apply_database_key`. -/
def keyPragma (key : List UInt8) : String :=
  "x" ++ String.singleton (Char.ofNat 39) ++ lowerHex ⟨key.toArray⟩ ++ String.singleton (Char.ofNat 39)

/-- The path of a destination: its file name, and whether it is that name alone. -/
structure CopyDestination where
  fileName : Option String
  bare : Bool

/-- `schema_version`, of the row that was read. -/
def schemaVersion (row : MigrationsRow) : StoreResult ℤ := do
  let maximum ← okOr row.maximum backupError
  require (row.minimum = some 1 ∧ 0 < maximum ∧ row.count = maximum) backupError
  return maximum

/-- `AttemptGuard`. -/
structure AttemptGuard where
  name : String
  file : Inode

/-- `trusted_attempt_parent`. -/
def trustedAttemptParent : Copying Unit := do
  let (_, metadata) ← Program.attempt .parentMetadata backupError
  Program.ensure (metadata.isDir = true ∧ metadata.mode &&& 0o022 = 0) backupError

/-- What `ensure_destination_absent` makes of the metadata of the destination. -/
def destinationAbsent : Except IoError Inode → Copying Unit
  | .ok _ => Program.fail (.conflict "backup destination")
  | .error .notFound => return ()
  | .error _ => Program.fail backupError

/-- The loop of `AttemptGuard::create`, with the number of names to try. -/
def createAttempt (pid : ℕ) (destination : String) (bare : Bool) : ℕ → Copying AttemptGuard
  | 0 => Program.fail backupError
  | attempts + 1 => do
    let nonce ← Program.attempt .fillNonce backupError
    let sequence ← Program.invoke .fetchSequence
    let name := attemptName pid sequence nonce
    -- the path of the attempt has a parent also where that of the destination has none
    if bare = false ∧ name = destination then createAttempt pid destination bare attempts
    else
      Program.call (.createNew name) fun
        | .ok file => return ⟨name, file⟩
        | .error .alreadyExists => createAttempt pid destination bare attempts
        | .error _ => Program.fail backupError

/-- `AttemptGuard::create`, for a destination with a file name. -/
def AttemptGuard.create (pid : ℕ) (destination : String) (bare : Bool) : Copying AttemptGuard := do
  trustedAttemptParent
  Program.call (.entryMetadata destination) destinationAbsent
  createAttempt pid destination bare attemptCollisionLimit

/-- `validate_destination`. -/
def validateDestination (database : Inode) (key : String) (expected : ℤ) : Copying Unit := do
  let quickCheck ← Program.attempt (.quickCheck database key) backupError
  Program.ensure (eqIgnoreCase quickCheck "ok" = true) backupError
  let row ← Program.attempt (.migrations database key) backupError
  let version ← Program.done (schemaVersion row)
  Program.ensure (version = expected) backupError
  let requiredTables ← Program.attempt (.requiredTables database key) backupError
  Program.ensure (requiredTables = 13) backupError
  let configurationRows ← Program.attempt (.configurationRows database key) backupError
  Program.ensure (configurationRows = 1) backupError

/-- `verify_destination_cipher`. -/
def verifyDestinationCipher (database : Inode) : Copying Unit := do
  let version ← Program.attempt (.cipherVersion database) backupError
  Program.ensure (∃ text ∈ version, ¬ IsBlank text) .sqlCipherUnavailable

namespace AttemptGuard

/-- What `path_matches_owned_file` makes of the metadata of the path. -/
def pathMatches (file : Inode) : Except IoError Inode → Copying Bool
  | .ok i => return decide (file = i)
  | .error _ => return false

/-- `path_matches_owned_file`, before what it guards. -/
def pathMatchesOwnedFile (attempt : AttemptGuard) (guarded : Guarded) : Copying Bool :=
  Program.call (.fileMetadata guarded attempt.file) fun
    | .ok file => Program.call (.pathMetadata guarded attempt.name) (pathMatches file)
    | .error _ => return false

/-- `require_owned_path`. -/
def requireOwnedPath (attempt : AttemptGuard) (guarded : Guarded) : Copying Unit := do
  let matched ← attempt.pathMatchesOwnedFile guarded
  Program.ensure (matched = true) backupError

/-- `open_connection`. -/
def openConnection (attempt : AttemptGuard) : Copying Inode := do
  attempt.requireOwnedPath .opening
  Program.attempt (.openDatabase attempt.name) backupError

/-- What `publish` makes of the result of the link. -/
def linked : Except IoError Unit → Copying Unit
  | .ok () => return ()
  | .error .alreadyExists => Program.fail (.conflict "backup destination")
  | .error _ => Program.fail backupError

/-- `publish`. -/
def publish (attempt : AttemptGuard) (destination : String) : Copying Unit := do
  attempt.requireOwnedPath .link
  Program.call (.hardLink attempt.name destination) linked

end AttemptGuard

/-- The names of the sidecars of a database. -/
def sidecars (name : String) : List String := [name ++ "-wal", name ++ "-shm", name ++ "-journal"]

/-- The loop of `remove_owned_attempt_artifacts`. -/
def removeArtifacts : List String → Copying Unit
  | [] => return ()
  | name :: names => do
    let _ ← Program.invoke (.removeFile name)
    removeArtifacts names

/-- `Drop` of an `AttemptGuard`. -/
def AttemptGuard.drop (attempt : AttemptGuard) : Copying Unit := do
  let matched ← attempt.pathMatchesOwnedFile .cleanup
  if matched = true then removeArtifacts (attempt.name :: sidecars attempt.name) else return ()

/-- `backup_to_path` with its guard: the copy, its validation and its publication. -/
def copyAndPublish (key : List UInt8) (expected : ℤ) (destination : String) (attempt : AttemptGuard) : Copying Unit := do
  let database ← attempt.openConnection
  Program.attempt (.applyKey database (keyPragma key)) backupError
  verifyDestinationCipher database
  Program.attempt (.copyInto database) backupError
  validateDestination database (keyPragma key) expected
  attempt.publish destination

/-- `backup_to_path`, with what the migrations of the source were read as. -/
def backupToPath (pid : ℕ) (key : List UInt8) (source : Option MigrationsRow) (destination : CopyDestination) :
    Copying Unit := do
  Program.ensure (key ≠ []) .emptyDatabaseKey
  let row ← Program.done (okOr source backupError)
  let expected ← Program.done (schemaVersion row)
  let name ← Program.done (okOr destination.fileName backupError)
  let attempt ← AttemptGuard.create pid name destination.bare
  (copyAndPublish key expected name attempt).cleanedUp attempt.drop

end AgentVoice.Backup
