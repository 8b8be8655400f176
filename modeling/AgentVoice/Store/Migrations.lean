import AgentVoice.Foundations.Machine
import AgentVoice.Store.Error
import Mathlib.Data.List.Pairwise
import Mathlib.Algebra.Order.Ring.Int

/-!
# The migration runner

`run_migrations_with`: in one transaction, the migrations that are newer than the newest one on record are applied in
order and recorded. What the migrations do to the tables is arbitrary here. A run takes its clock readings, and which of
its calls of the database fail, as its environment; a transaction that is not committed leaves the database as it was.
-/

namespace AgentVoice.Store

open AgentVoice.Foundations

/-- `Migration`: its version, and what it does to the tables at a reading of the clock. -/
structure Migration (σ τ : Type) where
  version : ℤ
  apply : τ → σ → StoreResult σ

/-- A database: the rows of `schema_migrations` where this table exists, and the other tables. -/
structure VersionedStore (σ τ : Type) where
  schemaMigrations : Option (List (ℤ × τ))
  tables : σ

/-- What a run finds: the clock at each migration, and which calls of the database succeed. -/
structure MigrationRun (τ : Type) where
  clock : ℤ → τ
  begins : Bool
  createsTable : Bool
  readsVersion : Bool
  /-- The statements of the migration with this version are not interrupted. -/
  applies : ℤ → Bool
  /-- The migration with this version is recorded. -/
  records : ℤ → Bool
  commits : Bool

variable {σ τ : Type}

namespace VersionedStore

/-- A database without tables of its own. -/
def scratch (tables : σ) : VersionedStore σ τ := ⟨none, tables⟩

/-- `CREATE TABLE IF NOT EXISTS schema_migrations`. -/
def ensureTable (db : VersionedStore σ τ) : VersionedStore σ τ :=
  { db with schemaMigrations := some (db.schemaMigrations.getD []) }

/-- The versions on record. -/
def versions (db : VersionedStore σ τ) : List ℤ := (db.schemaMigrations.getD []).map Prod.fst

/-- `SELECT COALESCE(MAX(version), 0) FROM schema_migrations`. -/
def currentVersion (db : VersionedStore σ τ) : ℤ := db.versions.max?.getD 0

/-- The database with the tables of a migration, and the migration on record. -/
def record (version : ℤ) (appliedAt : τ) (tables : σ) (db : VersionedStore σ τ) : VersionedStore σ τ :=
  ⟨some (db.schemaMigrations.getD [] ++ [(version, appliedAt)]), tables⟩

@[simp] theorem versions_ensureTable (db : VersionedStore σ τ) : db.ensureTable.versions = db.versions := rfl

@[simp] theorem currentVersion_ensureTable (db : VersionedStore σ τ) :
    db.ensureTable.currentVersion = db.currentVersion := rfl

@[simp] theorem versions_record (version : ℤ) (appliedAt : τ) (tables : σ) (db : VersionedStore σ τ) :
    (db.record version appliedAt tables).versions = db.versions ++ [version] :=
  List.map_append

end VersionedStore

/-! ### The runner -/

/-- `migrations.last()`, its version. -/
def latestVersion (migrations : List (Migration σ τ)) : ℤ := (migrations.getLast?.map Migration.version).getD 0

/-- The loop over the migrations. -/
def applyNewer (run : MigrationRun τ) (currentVersion : ℤ) :
    List (Migration σ τ) → VersionedStore σ τ → StoreResult (VersionedStore σ τ)
  | [], db => .ok db
  | migration :: migrations, db =>
    if currentVersion < migration.version then do
      let tables ← migration.apply (run.clock migration.version) db.tables
      require (run.applies migration.version = true) .sqlite
      require (run.records migration.version = true) .sqlite
      applyNewer run currentVersion migrations
        (db.record migration.version (run.clock migration.version) tables)
    else applyNewer run currentVersion migrations db

/-- The statements of the transaction. -/
def migrateInTransaction (run : MigrationRun τ) (migrations : List (Migration σ τ)) (db : VersionedStore σ τ) :
    StoreResult (VersionedStore σ τ) := do
  require (run.begins = true) .sqlite
  require (run.createsTable = true) .sqlite
  let db := db.ensureTable
  require (run.readsVersion = true) .sqlite
  require (db.currentVersion ≤ latestVersion migrations) (.unsupportedSchemaVersion db.currentVersion)
  let db ← applyNewer run db.currentVersion migrations db
  require (run.commits = true) .sqlite
  return db

/-- `run_migrations_with`: what it returns, and the database after it. -/
def runMigrationsWith (run : MigrationRun τ) (migrations : List (Migration σ τ)) (db : VersionedStore σ τ) :
    StoreResult Unit × VersionedStore σ τ :=
  match migrateInTransaction run migrations db with
  | .ok db => (.ok (), db)
  | .error e => (.error e, db)

/-! ### What a run is to do -/

/-- Some migrations applied in order, and put on record. -/
def applyAll (clock : ℤ → τ) : List (Migration σ τ) → VersionedStore σ τ → StoreResult (VersionedStore σ τ)
  | [], db => .ok db
  | migration :: migrations, db => do
    let tables ← migration.apply (clock migration.version) db.tables
    applyAll clock migrations (db.record migration.version (clock migration.version) tables)

/-- No call of the database fails while some migrations are applied. -/
structure MigrationRun.Works (run : MigrationRun τ) (migrations : List (Migration σ τ)) : Prop where
  begins : run.begins = true
  createsTable : run.createsTable = true
  readsVersion : run.readsVersion = true
  applies : ∀ migration ∈ migrations, run.applies migration.version = true
  records : ∀ migration ∈ migrations, run.records migration.version = true
  commits : run.commits = true

/-- A list of migrations: the versions are positive and increase. There may be gaps. -/
structure MigrationList (σ τ : Type) where
  migrations : List (Migration σ τ)
  positive : ∀ migration ∈ migrations, 0 < migration.version
  increasing : migrations.Pairwise fun migration later => migration.version < later.version

/-- The first migrations of a list. -/
def MigrationList.take (k : ℕ) (list : MigrationList σ τ) : MigrationList σ τ where
  migrations := list.migrations.take k
  positive := fun migration h => list.positive migration (List.mem_of_mem_take h)
  increasing := list.increasing.sublist (List.take_sublist k list.migrations)

/-- The migrations on record are these. -/
def VersionedStore.Records (migrations : List (Migration σ τ)) (db : VersionedStore σ τ) : Prop :=
  db.versions = migrations.map Migration.version

/-! ### Applying migrations -/

theorem applyAll_append (clock : ℤ → τ) (as bs : List (Migration σ τ)) (db : VersionedStore σ τ) :
    applyAll clock (as ++ bs) db = (applyAll clock as db).bind (applyAll clock bs) := by
  induction as generalizing db with
  | nil => rfl
  | cons a as ih =>
    rw [List.cons_append, applyAll, applyAll]
    cases a.apply (clock a.version) db.tables with
    | error e => rfl
    | ok tables => exact ih _

/-- The clock is read at the versions of the migrations only. -/
theorem applyAll_congr {clock clock' : ℤ → τ} {migrations : List (Migration σ τ)}
    (h : ∀ migration ∈ migrations, clock migration.version = clock' migration.version) (db : VersionedStore σ τ) :
    applyAll clock migrations db = applyAll clock' migrations db := by
  induction migrations generalizing db with
  | nil => rfl
  | cons migration migrations ih =>
    rw [applyAll, applyAll, h migration List.mem_cons_self]
    exact congrArg _ (funext fun tables => ih (fun m hm => h m (List.mem_cons_of_mem _ hm)) _)

/-- Migrations that are applied are on record after those that were. -/
theorem versions_applyAll {clock : ℤ → τ} {migrations : List (Migration σ τ)} {db db' : VersionedStore σ τ}
    (h : applyAll clock migrations db = .ok db') : db'.versions = db.versions ++ migrations.map Migration.version := by
  induction migrations generalizing db with
  | nil =>
    obtain rfl := Except.ok.inj h
    exact (List.append_nil _).symm
  | cons migration migrations ih =>
    obtain ⟨tables, -, h⟩ := bind_eq_ok_iff.mp h
    rw [ih h, VersionedStore.versions_record, List.append_assoc]
    rfl

/-- What every migration keeps, all of them keep. -/
theorem applyAll_invariant {I : σ → Prop} {clock : ℤ → τ} {migrations : List (Migration σ τ)}
    (hstep : ∀ migration ∈ migrations, ∀ at' tables tables', migration.apply at' tables = .ok tables' → I tables → I tables')
    {db db' : VersionedStore σ τ} (h : applyAll clock migrations db = .ok db') (hI : I db.tables) : I db'.tables := by
  induction migrations generalizing db with
  | nil =>
    obtain rfl := Except.ok.inj h
    exact hI
  | cons migration migrations ih =>
    obtain ⟨tables, htables, h⟩ := bind_eq_ok_iff.mp h
    have hnext : I tables := hstep migration List.mem_cons_self _ _ _ htables hI
    exact ih (fun m hm => hstep m (List.mem_cons_of_mem _ hm)) h hnext

/-- **The loop.** It applies the migrations that are newer, where no call of the database fails. -/
theorem applyNewer_eq_ok_iff {run : MigrationRun τ} {currentVersion : ℤ} {migrations : List (Migration σ τ)}
    {db db' : VersionedStore σ τ} :
    applyNewer run currentVersion migrations db = .ok db' ↔
      (∀ migration ∈ migrations.filter fun migration => currentVersion < migration.version,
        run.applies migration.version = true ∧ run.records migration.version = true) ∧
      applyAll run.clock (migrations.filter fun migration => currentVersion < migration.version) db = .ok db' := by
  induction migrations generalizing db with
  | nil => simp [applyNewer, applyAll]
  | cons migration migrations ih =>
    rw [applyNewer]
    by_cases hnewer : currentVersion < migration.version
    · rw [if_pos hnewer, List.filter_cons_of_pos (by simpa using hnewer), applyAll, List.forall_mem_cons]
      simp only [bind_eq_ok_iff, require_eq_ok_iff, ih]
      constructor
      · rintro ⟨tables, htables, _, happlies, _, hrecords, hall, hdb⟩
        exact ⟨⟨⟨happlies, hrecords⟩, hall⟩, tables, htables, hdb⟩
      · rintro ⟨⟨⟨happlies, hrecords⟩, hall⟩, tables, htables, hdb⟩
        exact ⟨tables, htables, (), happlies, (), hrecords, hall, hdb⟩
    · rw [if_neg hnewer, List.filter_cons_of_neg (by simpa using hnewer)]
      exact ih

/-- The newest of some versions on record, where they are those of the first migrations of a list. -/
theorem newer_eq_drop (list : MigrationList σ τ) {k : ℕ} {db : VersionedStore σ τ}
    (h : db.Records (list.take k).migrations) :
    (list.migrations.filter fun migration => db.currentVersion < migration.version) = list.migrations.drop k := by
  have hsplit : list.migrations.take k ++ list.migrations.drop k = list.migrations := List.take_append_drop _ _
  have hincreasing := list.increasing
  rw [← hsplit, List.pairwise_append] at hincreasing
  have hversions : db.versions = (list.migrations.take k).map Migration.version := h
  have hold : ∀ migration ∈ list.migrations.take k, ¬ db.currentVersion < migration.version := by
    intro migration hmigration
    have hmem : migration.version ∈ db.versions := by
      rw [hversions]
      exact List.mem_map_of_mem hmigration
    obtain ⟨newest, hnewest⟩ := Option.isSome_iff_exists.mp (List.isSome_max?_of_mem hmem)
    rw [VersionedStore.currentVersion, hnewest, Option.getD_some, not_lt]
    exact (List.max?_eq_some_iff.mp hnewest).2 _ hmem
  have hnew : ∀ migration ∈ list.migrations.drop k, db.currentVersion < migration.version := by
    intro migration hmigration
    rw [VersionedStore.currentVersion]
    cases hmax : db.versions.max? with
    | none => exact list.positive migration (List.mem_of_mem_drop hmigration)
    | some newest =>
      have hmem := (List.max?_eq_some_iff.mp hmax).1
      rw [hversions] at hmem
      obtain ⟨earlier, hearlier, rfl⟩ := List.mem_map.mp hmem
      exact hincreasing.2.2 earlier hearlier migration hmigration
  have hfilter : ((list.migrations.take k ++ list.migrations.drop k).filter fun migration =>
      db.currentVersion < migration.version) = list.migrations.drop k := by
    rw [List.filter_append, List.filter_eq_nil_iff.mpr (by simpa using hold), List.nil_append]
    exact List.filter_eq_self.mpr (by simpa using hnew)
  rw [hsplit] at hfilter
  exact hfilter

/-- The newest of the first migrations of a list is not newer than the latest. -/
theorem currentVersion_le_latest (list : MigrationList σ τ) {k : ℕ} {db : VersionedStore σ τ}
    (h : db.Records (list.take k).migrations) : db.currentVersion ≤ latestVersion list.migrations := by
  have hlast : ∀ migration ∈ list.migrations, migration.version ≤ latestVersion list.migrations := by
    intro migration hmigration
    obtain ⟨init, last, hlist⟩ := List.eq_nil_or_concat list.migrations |>.resolve_left (List.ne_nil_of_mem hmigration)
    rw [List.concat_eq_append] at hlist
    have hincreasing := list.increasing
    rw [hlist, List.pairwise_append] at hincreasing
    rw [latestVersion, hlist, List.getLast?_concat, Option.map_some, Option.getD_some]
    rw [hlist] at hmigration
    rcases List.mem_append.mp hmigration with hinit | hlast
    · exact (hincreasing.2.2 migration hinit last List.mem_cons_self).le
    · rw [List.mem_singleton.mp hlast]
  rw [VersionedStore.currentVersion]
  cases hmax : db.versions.max? with
  | none =>
    cases hmigrations : list.migrations with
    | nil => exact le_rfl
    | cons migration migrations =>
      rw [← hmigrations]
      have hmem : migration ∈ list.migrations := by
        rw [hmigrations]
        exact List.mem_cons_self
      exact (list.positive migration hmem).le.trans (hlast migration hmem)
  | some newest =>
    have hmem := (List.max?_eq_some_iff.mp hmax).1
    rw [show db.versions = (list.migrations.take k).map Migration.version from h] at hmem
    obtain ⟨migration, hmigration, rfl⟩ := List.mem_map.mp hmem
    exact hlast migration (List.mem_of_mem_take hmigration)

/-! ### Runs -/

/-- A run either commits what its statements have made of the database, or leaves the database. -/
theorem runMigrationsWith_cases (run : MigrationRun τ) (migrations : List (Migration σ τ)) (db : VersionedStore σ τ) :
    (∃ db', migrateInTransaction run migrations db = .ok db' ∧ runMigrationsWith run migrations db = (.ok (), db')) ∨
      ∃ e, runMigrationsWith run migrations db = (.error e, db) := by
  rw [runMigrationsWith]
  cases migrateInTransaction run migrations db with
  | ok db' => exact Or.inl ⟨db', rfl, rfl⟩
  | error e => exact Or.inr ⟨e, rfl⟩

/-- **One run.** Where the first migrations of a list are on record, a run commits the remaining ones, applied in order,
exactly where no call of the database and no migration fails. -/
theorem migrateInTransaction_eq_ok_iff {list : MigrationList σ τ} {k : ℕ} {run : MigrationRun τ}
    {db db' : VersionedStore σ τ} (h : db.Records (list.take k).migrations) :
    migrateInTransaction run list.migrations db = .ok db' ↔
      run.Works (list.migrations.drop k) ∧
        applyAll run.clock (list.migrations.drop k) db.ensureTable = .ok db' := by
  have hcurrent := currentVersion_le_latest list h
  simp only [migrateInTransaction, bind_eq_ok_iff, require_eq_ok_iff, applyNewer_eq_ok_iff,
    VersionedStore.currentVersion_ensureTable, newer_eq_drop list h, pure_eq_ok]
  constructor
  · rintro ⟨_, hbegins, _, hcreates, _, hreads, _, -, db'', ⟨hworks, hdb⟩, _, hcommits, hresult⟩
    obtain rfl := Except.ok.inj hresult
    exact ⟨⟨hbegins, hcreates, hreads, fun m hm => (hworks m hm).1, fun m hm => (hworks m hm).2, hcommits⟩, hdb⟩
  · rintro ⟨⟨hbegins, hcreates, hreads, happlies, hrecords, hcommits⟩, hdb⟩
    exact ⟨(), hbegins, (), hcreates, (), hreads, (), require_of hcurrent _, db',
      ⟨fun m hm => ⟨happlies m hm, hrecords m hm⟩, hdb⟩, (), hcommits, rfl⟩

/-- A database with newer migrations than the latest is refused. -/
theorem runMigrationsWith_of_newer {migrations : List (Migration σ τ)} {db : VersionedStore σ τ}
    (h : latestVersion migrations < db.currentVersion) (run : MigrationRun τ) :
    (runMigrationsWith run migrations db).2 = db ∧
      (run.begins = true → run.createsTable = true → run.readsVersion = true →
        (runMigrationsWith run migrations db).1 = .error (.unsupportedSchemaVersion db.currentVersion)) := by
  have hrefused : ∀ db', migrateInTransaction run migrations db ≠ .ok db' := by
    intro db' hok
    simp only [migrateInTransaction, bind_eq_ok_iff, require_eq_ok_iff,
      VersionedStore.currentVersion_ensureTable] at hok
    obtain ⟨_, -, _, -, _, -, _, hle, -⟩ := hok
    exact absurd h (not_lt.mpr (require_eq_ok_iff.mp hle))
  constructor
  · obtain ⟨db', hok, -⟩ | ⟨e, he⟩ := runMigrationsWith_cases run migrations db
    · exact absurd hok (hrefused db')
    · rw [he]
  · intro hbegins hcreates hreads
    rw [runMigrationsWith, migrateInTransaction, require_of hbegins, ok_bind, require_of hcreates, ok_bind,
      require_of hreads, ok_bind, VersionedStore.currentVersion_ensureTable, require_of_not (not_le.mpr h), error_bind]

/-- A committed run leaves a table of the migrations. -/
theorem ensureTable_of_applyAll {clock : ℤ → τ} {migrations : List (Migration σ τ)} {db db' : VersionedStore σ τ}
    (h : applyAll clock migrations db.ensureTable = .ok db') : db'.ensureTable = db' := by
  have hkeeps : ∀ (migrations : List (Migration σ τ)) (db db' : VersionedStore σ τ), db.ensureTable = db →
      applyAll clock migrations db = .ok db' → db'.ensureTable = db' := by
    intro migrations
    induction migrations with
    | nil =>
      intro db db' hdb h
      obtain rfl := Except.ok.inj h
      exact hdb
    | cons migration migrations ih =>
      intro db db' hdb h
      obtain ⟨tables, -, h⟩ := bind_eq_ok_iff.mp h
      exact ih _ _ rfl h
  exact hkeeps migrations _ _ rfl h

/-- What a run of the first migrations of a list does, where fewer of them are on record. -/
theorem migrateInTransaction_take {list : MigrationList σ τ} {m k : ℕ} (hmk : m ≤ k) {run : MigrationRun τ}
    {db db' : VersionedStore σ τ} (h : db.Records (list.take m).migrations)
    (hok : migrateInTransaction run (list.take k).migrations db = .ok db') :
    applyAll run.clock ((list.migrations.take k).drop m) db.ensureTable = .ok db' := by
  have hrecords : db.Records ((list.take k).take m).migrations := by
    show db.versions = ((list.migrations.take k).take m).map Migration.version
    rw [List.take_take, min_eq_left hmk]
    exact h
  exact ((migrateInTransaction_eq_ok_iff hrecords).mp hok).2

/-! ### Interrupted runs -/

/-- The runs of several programs, each of which has the first migrations of a list. -/
def runPrograms (list : MigrationList σ τ) : MigrationRun τ × ℕ → VersionedStore σ τ → VersionedStore σ τ :=
  fun program db => (runMigrationsWith program.1 (list.take program.2).migrations db).2

/-- A database that one run of the first migrations makes from nothing. -/
def Built (list : MigrationList σ τ) (tables : σ) (db : VersionedStore σ τ) : Prop :=
  db = .scratch tables ∨ ∃ m ≤ list.migrations.length, ∃ clock,
    applyAll clock (list.migrations.take m) (VersionedStore.scratch tables).ensureTable = .ok db

/-- The first migrations of a list have lower versions than the later ones. -/
theorem version_lt_of_take_drop (list : MigrationList σ τ) {m : ℕ} {early late : Migration σ τ}
    (hearly : early ∈ list.migrations.take m) (hlate : late ∈ list.migrations.drop m) : early.version < late.version := by
  have hincreasing := list.increasing
  rw [← List.take_append_drop m list.migrations, List.pairwise_append] at hincreasing
  exact hincreasing.2.2 early hearly late hlate

/-- Two runs one after the other are one run. -/
theorem applyAll_trans {list : MigrationList σ τ} {m k : ℕ} (hmk : m ≤ k) {clock clock' : ℤ → τ}
    {db db' db'' : VersionedStore σ τ} (h : applyAll clock (list.migrations.take m) db = .ok db')
    (h' : applyAll clock' ((list.migrations.take k).drop m) db' = .ok db'') :
    ∃ clock'', applyAll clock'' (list.migrations.take k) db = .ok db'' := by
  let joined : ℤ → τ := fun version =>
    if version ∈ (list.migrations.take m).map Migration.version then clock version else clock' version
  refine ⟨joined, ?_⟩
  have htake : list.migrations.take k = list.migrations.take m ++ (list.migrations.take k).drop m := by
    have hsplit := List.take_append_drop m (list.migrations.take k)
    rw [List.take_take, min_eq_left hmk] at hsplit
    exact hsplit.symm
  have hfirst : applyAll joined (list.migrations.take m) db = .ok db' := by
    rw [← h]
    exact applyAll_congr (fun migration hm => if_pos (List.mem_map_of_mem hm)) db
  have hsecond : applyAll joined ((list.migrations.take k).drop m) db' = .ok db'' := by
    rw [← h']
    refine applyAll_congr (fun migration hm => if_neg fun hmem => ?_) db'
    obtain ⟨early, hearly, hversion⟩ := List.mem_map.mp hmem
    have hlate : migration ∈ list.migrations.drop m := by
      rw [List.drop_take] at hm
      exact List.mem_of_mem_take hm
    exact (version_lt_of_take_drop list hearly hlate).ne hversion
  rw [htake, applyAll_append, hfirst]
  exact hsecond

/-- What is on record in a database that was built. -/
theorem Built.records {list : MigrationList σ τ} {tables : σ} {db : VersionedStore σ τ} {m : ℕ} {clock : ℤ → τ}
    (h : applyAll clock (list.migrations.take m) (VersionedStore.scratch tables).ensureTable = .ok db) :
    db.Records (list.take m).migrations :=
  (versions_applyAll h).trans (List.nil_append _)

/-- An older program refuses a database that a newer one has built. -/
theorem latestVersion_take_lt {list : MigrationList σ τ} {m k : ℕ} (hkm : k < m) (hm : m ≤ list.migrations.length)
    {db : VersionedStore σ τ} (h : db.Records (list.take m).migrations) :
    latestVersion (list.take k).migrations < db.currentVersion := by
  have hk : k < list.migrations.length := hkm.trans_le hm
  have hlate : list.migrations[k] ∈ list.migrations.drop k := by
    rw [List.drop_eq_getElem_cons hk]
    exact List.mem_cons_self
  have hlatest : latestVersion (list.take k).migrations < (list.migrations[k]).version := by
    rw [latestVersion]
    cases hlast : (list.take k).migrations.getLast? with
    | none => exact list.positive _ (List.getElem_mem hk)
    | some last => exact version_lt_of_take_drop list (List.mem_of_getLast? hlast) hlate
  have hmem : (list.migrations[k]).version ∈ db.versions := by
    rw [show db.versions = (list.migrations.take m).map Migration.version from h]
    refine List.mem_map_of_mem (List.mem_take_iff_getElem.mpr ⟨k, ?_, rfl⟩)
    exact lt_min hkm hk
  obtain ⟨newest, hnewest⟩ := Option.isSome_iff_exists.mp (List.isSome_max?_of_mem hmem)
  have hle : (list.migrations[k]).version ≤ newest := (List.max?_eq_some_iff.mp hnewest).2 _ hmem
  rw [VersionedStore.currentVersion, hnewest]
  exact hlatest.trans_le hle

/-- **One program.** What it leaves of a built database, one run builds from nothing. -/
theorem Built.step {list : MigrationList σ τ} {tables : σ} {db : VersionedStore σ τ} (h : Built list tables db)
    (program : MigrationRun τ × ℕ) : Built list tables (runPrograms list program db) := by
  obtain ⟨run, k⟩ := program
  have hmin : list.migrations.take k = list.migrations.take (min k list.migrations.length) := List.take_eq_take_min
  rw [runPrograms]
  obtain ⟨db', hok, hresult⟩ | ⟨e, he⟩ := runMigrationsWith_cases run (list.take k).migrations db
  · rw [hresult]
    obtain rfl | ⟨m, hm, clock, hbuilt⟩ := h
    · have hscratch : (VersionedStore.scratch tables : VersionedStore σ τ).Records (list.take 0).migrations := rfl
      have happly := migrateInTransaction_take (Nat.zero_le k) hscratch hok
      rw [List.drop_zero, hmin] at happly
      exact Or.inr ⟨_, min_le_right _ _, run.clock, happly⟩
    · have hrecords := Built.records hbuilt
      by_cases hmk : m ≤ k
      · have happly := migrateInTransaction_take hmk hrecords hok
        rw [ensureTable_of_applyAll hbuilt] at happly
        obtain ⟨joined, hjoined⟩ := applyAll_trans hmk hbuilt happly
        rw [hmin] at hjoined
        exact Or.inr ⟨_, min_le_right _ _, joined, hjoined⟩
      · have hnewer := latestVersion_take_lt (not_le.mp hmk) hm hrecords
        have hsame := (runMigrationsWith_of_newer hnewer run).1
        rw [hresult] at hsame
        obtain rfl := hsame
        exact Or.inr ⟨m, hm, clock, hbuilt⟩
  · rw [he]
    exact h

/-- **Several programs.** -/
theorem built_run (list : MigrationList σ τ) (tables : σ) (programs : List (MigrationRun τ × ℕ)) :
    Built list tables (Machine.run (runPrograms list) programs (.scratch tables)) := by
  have hstep : ∀ program db, Built list tables db → Built list tables (runPrograms list program db) :=
    fun program db h => h.step program
  exact Machine.run_invariant (I := Built list tables) hstep (Or.inl rfl) programs

/-! ### The runner -/

/-- What the runner is to do with a list of migrations. -/
structure RunsAtomically (list : MigrationList σ τ) : Prop where
  /-- Where the first migrations are on record, a run commits the remaining ones applied in order, or it returns an
  error and leaves the database. -/
  outcome : ∀ (k : ℕ) (run : MigrationRun τ) (db : VersionedStore σ τ), db.Records (list.take k).migrations →
    (∃ db', applyAll run.clock (list.migrations.drop k) db.ensureTable = .ok db' ∧
      runMigrationsWith run list.migrations db = (.ok (), db')) ∨
    ∃ e, runMigrationsWith run list.migrations db = (.error e, db)
  /-- It commits them where nothing fails. -/
  commits : ∀ (k : ℕ) (run : MigrationRun τ) (db db' : VersionedStore σ τ), db.Records (list.take k).migrations →
    run.Works (list.migrations.drop k) → applyAll run.clock (list.migrations.drop k) db.ensureTable = .ok db' →
    runMigrationsWith run list.migrations db = (.ok (), db')
  /-- After any runs of older and newer programs, a run that succeeds leaves what one run leaves from nothing, with the
  clock readings at which the migrations were applied. -/
  interrupted : ∀ (tables : σ) (programs : List (MigrationRun τ × ℕ)) (last : MigrationRun τ)
    (db : VersionedStore σ τ),
    runMigrationsWith last list.migrations (Machine.run (runPrograms list) programs (.scratch tables)) = (.ok (), db) →
    ∃ clock, ∀ run : MigrationRun τ, run.clock = clock → run.Works list.migrations →
      runMigrationsWith run list.migrations (.scratch tables) = (.ok (), db)
  /-- A run after a run that succeeded changes nothing. -/
  again : ∀ (k : ℕ) (run next : MigrationRun τ) (db db' : VersionedStore σ τ), db.Records (list.take k).migrations →
    runMigrationsWith run list.migrations db = (.ok (), db') →
    (runMigrationsWith next list.migrations db').2 = db' ∧
      (next.Works (list.migrations.drop list.migrations.length) →
        (runMigrationsWith next list.migrations db').1 = .ok ())
  /-- A database with a newer migration is refused and left. -/
  newer : ∀ (run : MigrationRun τ) (db : VersionedStore σ τ), latestVersion list.migrations < db.currentVersion →
    (runMigrationsWith run list.migrations db).2 = db ∧
      (run.begins = true → run.createsTable = true → run.readsVersion = true →
        (runMigrationsWith run list.migrations db).1 = .error (.unsupportedSchemaVersion db.currentVersion))

theorem runMigrationsWith_eq_ok_iff {list : MigrationList σ τ} {k : ℕ} {run : MigrationRun τ}
    {db db' : VersionedStore σ τ} (h : db.Records (list.take k).migrations) :
    runMigrationsWith run list.migrations db = (.ok (), db') ↔
      run.Works (list.migrations.drop k) ∧
        applyAll run.clock (list.migrations.drop k) db.ensureTable = .ok db' := by
  rw [← migrateInTransaction_eq_ok_iff h, runMigrationsWith]
  cases migrateInTransaction run list.migrations db with
  | ok db'' =>
    constructor
    · intro heq
      exact congrArg Except.ok (Prod.mk.inj heq).2
    · intro heq
      rw [Except.ok.inj heq]
  | error e =>
    constructor
    · intro heq
      cases (Prod.mk.inj heq).1
    · intro heq
      cases heq

/-- **The migration runner.** -/
theorem runsAtomically (list : MigrationList σ τ) : RunsAtomically list where
  outcome := by
    intro k run db h
    obtain ⟨db', hok, hresult⟩ | herror := runMigrationsWith_cases run list.migrations db
    · exact Or.inl ⟨db', ((migrateInTransaction_eq_ok_iff h).mp hok).2, hresult⟩
    · exact Or.inr herror
  commits := by
    intro k run db db' h hworks happly
    exact (runMigrationsWith_eq_ok_iff h).mpr ⟨hworks, happly⟩
  interrupted := by
    intro tables programs last db hlast
    have hbuilt := built_run list tables programs
    have hnone : (VersionedStore.scratch tables : VersionedStore σ τ).Records (list.take 0).migrations := rfl
    obtain ⟨clock, happly⟩ : ∃ clock,
        applyAll clock list.migrations (VersionedStore.scratch tables).ensureTable = .ok db := by
      obtain hscratch | ⟨m, hm, clock, happlied⟩ := hbuilt
      · rw [hscratch] at hlast
        obtain ⟨-, happly⟩ := (runMigrationsWith_eq_ok_iff hnone).mp hlast
        exact ⟨last.clock, happly⟩
      · obtain ⟨-, happly⟩ := (runMigrationsWith_eq_ok_iff (Built.records happlied)).mp hlast
        rw [ensureTable_of_applyAll happlied, ← List.take_length (l := list.migrations)] at happly
        obtain ⟨joined, hjoined⟩ := applyAll_trans hm happlied happly
        rw [List.take_length] at hjoined
        exact ⟨joined, hjoined⟩
    refine ⟨clock, ?_⟩
    rintro run rfl hworks
    exact (runMigrationsWith_eq_ok_iff hnone).mpr ⟨hworks, happly⟩
  again := by
    intro k run next db db' h hok
    obtain ⟨-, happly⟩ := (runMigrationsWith_eq_ok_iff h).mp hok
    have hrecords : db'.Records (list.take list.migrations.length).migrations := by
      have hversions := versions_applyAll happly
      rw [VersionedStore.versions_ensureTable, show db.versions = (list.migrations.take k).map Migration.version from h,
        ← List.map_append, List.take_append_drop] at hversions
      refine hversions.trans ?_
      show _ = (list.migrations.take list.migrations.length).map Migration.version
      rw [List.take_length]
    have hsame := ensureTable_of_applyAll happly
    constructor
    · obtain ⟨db'', hagain, hresult⟩ | ⟨e, he⟩ := runMigrationsWith_cases next list.migrations db'
      · obtain ⟨-, hempty⟩ := (migrateInTransaction_eq_ok_iff hrecords).mp hagain
        rw [List.drop_length, hsame] at hempty
        rw [hresult]
        exact (Except.ok.inj hempty).symm
      · rw [he]
    · intro hworks
      have hempty : applyAll next.clock (list.migrations.drop list.migrations.length) db'.ensureTable = .ok db' := by
        rw [List.drop_length, hsame]
        rfl
      rw [(runMigrationsWith_eq_ok_iff hrecords).mpr ⟨hworks, hempty⟩]
  newer := fun run db h => runMigrationsWith_of_newer h run

end AgentVoice.Store
