import AgentVoice.Admin.Snapshot
import AgentVoice.Store.DraftDeletion

/-!
# When the snapshot is read

The tables that the snapshot is read from, under all the calls that write to them: those of the store, those that save,
update and delete credentials, and the updates of the configuration, in any order. `Sound` is what every call keeps of
the tables (`sound_run`): the configuration is read, an expiry has the text of an instant, and the other tables are in a
reachable state. The snapshot is then read exactly where the narrower decoders accept the first rows of each table
(`readSnapshot_iff`). The two date libraries and SHA-256 are parameters.
-/

namespace AgentVoice.Admin

open AgentVoice.Foundations AgentVoice.Domain AgentVoice.Store

variable {τ υ κ : Type} [DecidableEq κ]

/-! ### The libraries -/

/-- The libraries of the writers and of the readers. -/
structure AdminEnv (τ υ : Type) where
  store : Environment
  oauth : OAuthEnv τ
  chrono : SecondChrono υ
  sha256 : List UInt8 → List UInt8

/-- What is used of the two libraries together: the texts that one writes of the instants in question, which are those
of the years 0 to 9999 without leap seconds inside a month, are read by the other, and no other text is. -/
structure ReadByTime (chrono : Chrono τ) (inYears : τ → Prop) : Prop where
  reads : ∀ t, inYears t → ∃ u, parse (chrono.toRfc3339 t) = some u ∧ u.toUtc.YearWritable
  refuses : ∀ t, ¬ inYears t → parseTimestamp (chrono.toRfc3339 t) = none

/-- What is used of the configuration's date library: it reads the texts of `CURRENT_TIMESTAMP`, which are not RFC 3339,
and then reads what it writes. -/
structure ReadsClock (chrono : SecondChrono υ) : Prop where
  refuses : ∀ now, chrono.parseFromRfc3339 (currentTimestamp now) = none
  reads : ∀ now, ∃ t, chrono.parseFromStr (currentTimestamp now) = some t ∧
    (chrono.parseFromRfc3339 (chrono.toRfc3339 t)).isSome = true

/-- An expiry is shown if its instant is one of those in question. -/
theorem showTimestamp_toRfc3339 {chrono : Chrono τ} {inYears : τ → Prop} (h : ReadByTime chrono inYears) {t : τ} :
    (∃ text, showTimestamp (chrono.toRfc3339 t) = .ok text) ↔ inYears t := by
  by_cases hyears : inYears t
  · obtain ⟨u, hparse, hyear⟩ := h.reads t hyears
    exact iff_of_true ((showTimestamp_of_parse hparse).mpr hyear) hyears
  · refine iff_of_false ?_ hyears
    rw [showTimestamp, h.refuses t hyears]
    rintro ⟨_, htext⟩
    cases htext

/-! ### The calls -/

/-- A call that writes to the tables. -/
inductive WriterCall (τ κ : Type) where
  | store (c : Command)
  | oauth (c : OAuthCall τ)
  | config (a : Action κ)

/-- The tables, with the updates of the configuration that are under way. -/
structure Writers (κ : Type) where
  clients : Clients κ
  oauthCredentials : List OAuthCredentialRow
  database : Database

/-- The tables that are read. -/
def Writers.tables (s : Writers κ) : AdminTables := ⟨s.clients.row, s.oauthCredentials, s.database⟩

/-- A freshly migrated store. -/
def Writers.migrated (now : SystemTime) : Writers κ :=
  ⟨⟨some (ConfigurationRow.seeded now), fun _ => none⟩, [], Database.empty⟩

/-- The tables after a call. -/
def stepWriters (env : AdminEnv τ υ) (c : WriterCall τ κ) (s : Writers κ) : Writers κ :=
  match c with
  | .store c => { s with database := Store.step env.store c s.database }
  | .oauth c => { s with oauthCredentials := stepOauth env.oauth c s.oauthCredentials }
  | .config a => { s with clients := step env.store.timezones env.chrono a s.clients }

/-! ### What the calls keep -/

/-- The row of the configuration is read, and it has no owner's email or phone. -/
def ConfigurationSound (timezones : Timezones) (chrono : SecondChrono υ) (row : Option ConfigurationRow) : Prop :=
  ∃ r config, row = some r ∧ r.ownerEmail = .null ∧ r.ownerPhone = .null ∧
    readConfig timezones chrono (some r) = .ok config

/-- Every expiry is the text of an instant. -/
def ExpiriesWritten (chrono : Chrono τ) (t : List OAuthCredentialRow) : Prop :=
  ∀ row ∈ t, ∀ value, row.expiresAt = some value → ∃ expiry, value = chrono.toRfc3339 expiry

/-- What every call keeps. -/
structure Sound (env : AdminEnv τ υ) (s : Writers κ) : Prop where
  configuration : ConfigurationSound env.store.timezones env.chrono s.clients.row
  expiries : ExpiriesWritten env.oauth.chrono s.oauthCredentials
  database : Reachable env.store s.database

theorem readConfig_some (timezones : Timezones) (chrono : SecondChrono υ) (row : ConfigurationRow) :
    readConfig timezones chrono (some row) = decodeConfig timezones chrono row.toRawConfig := rfl

/-- The configuration that the schema seeds. -/
def seededConfig (updatedAt : String) : AdminConfig where
  version := 1
  ownerTimezone := none
  workingDays := [.monday, .tuesday, .wednesday, .thursday, .friday]
  workingWindowStart := "08:00"
  workingWindowEnd := "18:00"
  minimumNoticeMinutes := 60
  bookingHorizonDays := 60
  meetingBufferMinutes := 0
  retentionDays := 90
  taskDurationMinutes := ⟨15, 15, 30, 30, 60⟩
  model := "gpt-5.6-luna"
  updatedAt := updatedAt

/-- **The row that the schema seeds is read.** -/
theorem configurationSound_seeded (timezones : Timezones) {chrono : SecondChrono υ} (h : ReadsClock chrono)
    (now : SystemTime) : ConfigurationSound timezones chrono (some (ConfigurationRow.seeded now)) := by
  obtain ⟨t, hread, hagain⟩ := h.reads now
  obtain ⟨t', ht'⟩ := Option.isSome_iff_exists.mp hagain
  have hupdated : canonicalTimestamp chrono (currentTimestamp now) = some (chrono.toRfc3339 t) := by
    rw [canonicalTimestamp, h.refuses, hread]
    rfl
  have hcanonical : canonicalTimestamp chrono (chrono.toRfc3339 t) = some (chrono.toRfc3339 t') := by
    rw [canonicalTimestamp, ht']
    rfl
  have hdays : parseWorkingDays "monday,tuesday,wednesday,thursday,friday" =
      some [.monday, .tuesday, .wednesday, .thursday, .friday] := by decide +kernel
  have hstart : canonicalTime "08:00" = some "08:00" := by decide +kernel
  have hstop : canonicalTime "18:00" = some "18:00" := by decide +kernel
  have hwindow : isWindow "08:00" "18:00" = true := by decide +kernel
  have hmodel : validateModel "gpt-5.6-luna" "model" = .ok () := by decide +kernel
  have hvalid : validateConfig timezones chrono (seededConfig (chrono.toRfc3339 t)) = .ok () := by
    simp [validateConfig, seededConfig, validatePositive, validateNonNegative, validateTaskDurationMinutes,
      validateWorkingDays, hasDuplicateDays, validateTime, hstart, hstop, hwindow, hmodel, hcanonical, require,
      maxTaskDurationMinutes]
  refine ⟨_, seededConfig (chrono.toRfc3339 t), rfl, rfl, rfl, ?_⟩
  have hread : ∀ {α : Type} {value : Value} {text : String} {f : String → Option α} {a : α}, value = .text text →
      f text = some a → okOr (value.textValue.bind f) configInvalid = .ok a := by
    rintro α _ text f a rfl h
    exact okOr_eq_ok_iff.mpr h
  rw [readConfig_some]
  refine bind_eq_ok_iff.mpr ⟨1, rfl, ?_⟩
  refine bind_eq_ok_iff.mpr ⟨none, rfl, bind_eq_ok_iff.mpr ⟨none, rfl, ?_⟩⟩
  refine bind_eq_ok_iff.mpr ⟨_, hread rfl hdays, ?_⟩
  refine bind_eq_ok_iff.mpr ⟨_, hread rfl hstart, bind_eq_ok_iff.mpr ⟨_, hread rfl hstop, ?_⟩⟩
  refine bind_eq_ok_iff.mpr ⟨(), require_of hwindow _, ?_⟩
  refine bind_eq_ok_iff.mpr ⟨60, rfl, bind_eq_ok_iff.mpr ⟨60, rfl, ?_⟩⟩
  refine bind_eq_ok_iff.mpr ⟨0, rfl, bind_eq_ok_iff.mpr ⟨90, rfl, ?_⟩⟩
  refine bind_eq_ok_iff.mpr ⟨15, rfl, bind_eq_ok_iff.mpr ⟨15, rfl, bind_eq_ok_iff.mpr ⟨30, rfl, ?_⟩⟩⟩
  refine bind_eq_ok_iff.mpr ⟨30, rfl, bind_eq_ok_iff.mpr ⟨60, rfl, bind_eq_ok_iff.mpr ⟨_, rfl, ?_⟩⟩⟩
  refine bind_eq_ok_iff.mpr ⟨_, hread rfl hupdated, ?_⟩
  exact bind_eq_ok_iff.mpr ⟨(), replaceError_eq_ok_iff.mpr hvalid, rfl⟩

/-- An update keeps the configuration sound. -/
theorem configurationSound_step {timezones : Timezones} {chrono : SecondChrono υ} {s : Clients κ} (a : Action κ)
    (h : ConfigurationSound timezones chrono s.row) : ConfigurationSound timezones chrono (step timezones chrono a s).row := by
  by_cases hanswer : ∀ config, (act timezones chrono a s).1 ≠ some (.ok config)
  · rwa [row_act timezones chrono hanswer]
  · push Not at hanswer
    obtain ⟨config, hanswer⟩ := hanswer
    obtain ⟨call, p, now, row, row', -, -, hrow, hstep, hupdated⟩ := act_eq_ok timezones chrono hanswer
    obtain ⟨r, -, hr, hemail, hphone, -⟩ := h
    obtain rfl : row = r := Option.some.inj (hrow.symm.trans hr)
    have hkept : row'.ownerEmail = row.ownerEmail ∧ row'.ownerPhone = row.ownerPhone :=
      ⟨hupdated.others .ownerEmail (by decide) (by decide) rfl, hupdated.others .ownerPhone (by decide) (by decide) rfl⟩
    rw [hstep]
    exact ⟨row', config, rfl, hkept.1.trans hemail, hkept.2.trans hphone, hupdated.reads⟩

/-- What an upsert leaves: rows that were there, rows that were there and are updated, and the new row. -/
theorem mem_upsert {κ ρ : Type} [DecidableEq κ] {key : ρ → κ} {r s : ρ} {update : ρ → ρ} {t : List ρ}
    (h : s ∈ Table.upsert key r update t) : s ∈ t ∨ (∃ old ∈ t, s = update old) ∨ s = r := by
  unfold Table.upsert at h
  split_ifs at h
  · obtain ⟨old, hold, -, rfl⟩ | ⟨hs, -⟩ := Table.mem_updateWhere.mp h
    · exact .inr (.inl ⟨old, hold, rfl⟩)
    · exact .inl hs
  · rcases List.mem_append.mp h with hs | hs
    · exact .inl hs
    · exact .inr (.inr (List.mem_singleton.mp hs))

/-- An upsert of an expiry that is an instant's text. -/
theorem expiriesWritten_upsert {chrono : Chrono τ} {t : List OAuthCredentialRow} (h : ExpiriesWritten chrono t)
    (expiry : Option τ) {r : OAuthCredentialRow} {update : OAuthCredentialRow → OAuthCredentialRow}
    (hr : r.expiresAt = expiry.map chrono.toRfc3339)
    (hupdate : ∀ old, (update old).expiresAt = expiry.map chrono.toRfc3339) :
    ExpiriesWritten chrono (Table.upsert OAuthCredentialRow.pair r update t) := by
  have hwritten : ∀ value, expiry.map chrono.toRfc3339 = some value → ∃ expiry, value = chrono.toRfc3339 expiry := by
    intro value hvalue
    obtain ⟨expiry, -, rfl⟩ := Option.map_eq_some_iff.mp hvalue
    exact ⟨expiry, rfl⟩
  intro row hrow value hvalue
  rcases mem_upsert hrow with hrow | ⟨old, -, rfl⟩ | rfl
  · exact h row hrow value hvalue
  · exact hwritten value ((hupdate old).symm.trans hvalue)
  · exact hwritten value (hr.symm.trans hvalue)

theorem expiriesWritten_step {env : OAuthEnv τ} {t : List OAuthCredentialRow} (c : OAuthCall τ)
    (h : ExpiriesWritten env.chrono t) : ExpiriesWritten env.chrono (stepOauth env c t) := by
  cases hrun : (c.transaction env).run t with
  | error e => rwa [stepOauth, Tx.commit_of_error hrun]
  | ok r =>
    obtain ⟨u, t'⟩ := r
    rw [stepOauth, Tx.commit_of_ok hrun]
    cases c with
    | save c accessRandom refreshRandom =>
      simp only [OAuthCall.transaction, saveOauthCredential, Tx.ofResult_bind_eq_ok_iff, Tx.run_write, Except.ok.injEq,
        Prod.mk.injEq, true_and] at hrun
      obtain ⟨c', -, access, -, refresh, -, rfl⟩ := hrun
      exact expiriesWritten_upsert h c'.expiresAt rfl fun _ => rfl
    | update provider accountId accessToken refreshToken expiresAt scopes accessRandom refreshRandom =>
      simp only [OAuthCall.transaction, updateOauthTokens, Tx.ofResult_bind_eq_ok_iff, Tx.ensure_bind_eq_ok_iff,
        Tx.read_bind, Tx.run_write, Except.ok.injEq, Prod.mk.injEq, true_and] at hrun
      obtain ⟨_, -, _, -, -, -, _, -, access, -, given, -, rfl⟩ := hrun
      exact expiriesWritten_upsert h (some expiresAt) rfl fun _ => rfl
    | delete provider accountId =>
      simp only [OAuthCall.transaction, deleteOauthCredential, Tx.ofResult_bind_eq_ok_iff, Tx.read_bind, Tx.write_bind,
        Tx.run_ensure_eq_ok_iff] at hrun
      obtain ⟨_, -, _, -, -, rfl⟩ := hrun
      exact fun row hrow => h row (Table.mem_deleteWhere.mp hrow).1

/-- **The tables are sound after every run.** -/
theorem sound_run (env : AdminEnv τ υ) (hclock : ReadsClock env.chrono) (migratedAt : SystemTime)
    (calls : List (WriterCall τ κ)) : Sound env (Machine.run (stepWriters env) calls (Writers.migrated migratedAt)) := by
  refine Machine.run_invariant (I := Sound env) ?_ ⟨configurationSound_seeded _ hclock migratedAt,
    fun row hrow => absurd hrow List.not_mem_nil, [], rfl⟩ calls
  intro c s hs
  cases c with
  | store c => exact ⟨hs.configuration, hs.expiries, hs.database.run [c]⟩
  | oauth c => exact ⟨hs.configuration, expiriesWritten_step c hs.expiries, hs.database⟩
  | config a => exact ⟨configurationSound_step a hs.configuration, hs.expiries, hs.database⟩

/-! ### What the readers read -/

/-- A list of rows is read if every row is. -/
theorem exists_mapM_iff {α β : Type} {f : α → StoreResult β} {xs : List α} :
    (∃ ys, xs.mapM f = .ok ys) ↔ ∀ x ∈ xs, ∃ y, f x = .ok y := by
  constructor
  · rintro ⟨ys, h⟩ x hx
    obtain ⟨y, -, hy⟩ := exists_mem_of_mapM h hx
    exact ⟨y, hy⟩
  · intro h
    obtain ⟨ys, hys, -⟩ := exists_mapM_eq_ok (R := fun _ _ => True) fun x hx => (h x hx).imp fun _ hy => ⟨hy, trivial⟩
    exact ⟨ys, hys⟩

/-- Which tables can be shown. -/
structure Showable (env : AdminEnv τ υ) (inYears : τ → Prop) (t : AdminTables) : Prop where
  /-- The first proposals come from appointment drafts, with times of the years 0 to 9999 in UTC. -/
  proposals : ∀ row ∈ firstProposals t.database, row.ownerTaskDraftId = none ∧
    ∀ d ∈ t.database.appointmentDrafts, row.appointmentDraftId = some d.id →
      ∀ s, decodeAppointmentRow d = .ok s → InUtcYears s.draft
  /-- There are credentials of the two providers only. -/
  providers : ∀ row ∈ t.oauthCredentials, row.provider = "google" ∨ row.provider = "outlook"
  /-- The first credentials of each provider expire at instants that can be read. -/
  expiries : ∀ provider, ∀ row ∈ credentialsOf provider t.oauthCredentials,
    ∀ expiry, row.expiresAt = some (env.oauth.chrono.toRfc3339 expiry) → inYears expiry

theorem readOwner_of_sound {timezones : Timezones} {chrono : SecondChrono υ} {row : Option ConfigurationRow}
    (h : ConfigurationSound timezones chrono row) (sha256 : List UInt8 → List UInt8) :
    ∃ owner, readOwner sha256 row = .ok owner := by
  obtain ⟨r, config, rfl, hemail, hphone, -⟩ := h
  exact ⟨⟨false, none⟩, by rw [readOwner, okOr_some, ok_bind, hemail, hphone]; rfl⟩

theorem mem_credentialsOf {provider : AdminProvider} {t : List OAuthCredentialRow} {row : OAuthCredentialRow}
    (h : row ∈ credentialsOf provider t) : row ∈ t ∧ row.provider = provider.name := by
  have hmem := (List.mem_insertionSort _).mp (List.mem_of_mem_take h)
  obtain ⟨hrow, hprovider⟩ := List.mem_filter.mp hmem
  exact ⟨hrow, beq_iff_eq.mp hprovider⟩

/-- The rows of a provider are read if those expiries are. -/
theorem mapM_credentialsOf_iff {env : AdminEnv τ υ} {inYears : τ → Prop} (hchrono : ReadByTime env.oauth.chrono inYears)
    {t : List OAuthCredentialRow} (hwritten : ExpiriesWritten env.oauth.chrono t) (sha256 : List UInt8 → List UInt8)
    (observedAt : OffsetDateTime) (provider : AdminProvider) :
    (∃ connections, (credentialsOf provider t).mapM (connectionFromRow sha256 observedAt) = .ok connections) ↔
      ∀ row ∈ credentialsOf provider t,
        ∀ expiry, row.expiresAt = some (env.oauth.chrono.toRfc3339 expiry) → inYears expiry := by
  rw [exists_mapM_iff]
  refine forall₂_congr fun row hrow => ?_
  obtain ⟨hmem, hprovider⟩ := mem_credentialsOf hrow
  rw [connectionFromRow_eq_ok_iff hprovider]
  constructor
  · intro h expiry hexpiry
    exact (showTimestamp_toRfc3339 hchrono).mp (h _ hexpiry)
  · intro h value hvalue
    obtain ⟨expiry, rfl⟩ := hwritten row hmem value hvalue
    exact (showTimestamp_toRfc3339 hchrono).mpr (h expiry hvalue)

theorem readConnections_iff {env : AdminEnv τ υ} {inYears : τ → Prop} (hchrono : ReadByTime env.oauth.chrono inYears)
    {t : List OAuthCredentialRow} (hwritten : ExpiriesWritten env.oauth.chrono t) (sha256 : List UInt8 → List UInt8)
    (observedAt : OffsetDateTime) :
    (∃ connections, readConnections sha256 observedAt t = .ok connections) ↔
      (∀ row ∈ t, row.provider = "google" ∨ row.provider = "outlook") ∧
        ∀ provider, ∀ row ∈ credentialsOf provider t,
          ∀ expiry, row.expiresAt = some (env.oauth.chrono.toRfc3339 expiry) → inYears expiry := by
  have hknown : (t.find? fun row => !(["google", "outlook"].contains row.provider)) = none ↔
      ∀ row ∈ t, row.provider = "google" ∨ row.provider = "outlook" := by
    simp [List.find?_eq_none, or_iff_not_imp_left]
  have hrows := mapM_credentialsOf_iff hchrono hwritten sha256 observedAt
  simp only [readConnections, bind_eq_ok_iff, require_eq_ok_iff, pure_eq_ok, hknown]
  constructor
  · rintro ⟨_, google, hgoogle, outlook, houtlook, -, hproviders, -⟩
    refine ⟨hproviders, fun provider => ?_⟩
    cases provider with
    | google => exact (hrows .google).mp ⟨google, hgoogle⟩
    | outlook => exact (hrows .outlook).mp ⟨outlook, houtlook⟩
  · rintro ⟨hproviders, hexpiries⟩
    obtain ⟨google, hgoogle⟩ := (hrows .google).mpr (hexpiries .google)
    obtain ⟨outlook, houtlook⟩ := (hrows .outlook).mpr (hexpiries .outlook)
    exact ⟨_, google, hgoogle, outlook, houtlook, (), hproviders, rfl⟩

/-- The first proposals are read if they come from appointment drafts with those times. -/
theorem readProposals_iff {env : Environment} {db : Database} (h : Reachable env db) :
    (∃ proposals, readProposals db = .ok proposals) ↔
      ∀ row ∈ firstProposals db, row.ownerTaskDraftId = none ∧
        ∀ d ∈ db.appointmentDrafts, row.appointmentDraftId = some d.id →
          ∀ s, decodeAppointmentRow d = .ok s → InUtcYears s.draft := by
  rw [readProposals, exists_mapM_iff]
  refine forall₂_congr fun row hrow => ?_
  have hmem := (List.mem_insertionSort _).mp (List.mem_of_mem_take hrow)
  have hbacked := h.backed row hmem
  obtain ⟨p, hp⟩ := h.consistent.proposals.readable row hmem
  obtain ⟨-, -, -, -, happointment, howner, -⟩ := decodeProposalRow_eq_ok hp
  cases hsource : p.source with
  | ownerTaskDraft id =>
    rw [hsource] at happointment howner
    refine iff_of_false ?_ ?_
    · rintro ⟨proposal, hproposal⟩
      exact proposalFromRow_ownerTask happointment _ proposal hproposal
    · rintro ⟨hnone, -⟩
      exact absurd (howner.symm.trans hnone) (Option.some_ne_none _)
  | appointmentDraft id =>
    rw [hsource] at happointment howner
    obtain ⟨d, hd, rfl⟩ := hbacked.draft id happointment
    obtain ⟨s, hs⟩ := h.consistent.appointmentDrafts.readable d hd
    change row.appointmentDraftId = some d.id at happointment
    have hfound : Table.byRowid d.id db.appointmentDrafts = some d := Table.byRowid_of_mem h.consistent.draft_id hd
    rw [happointment, Option.bind_some, hfound,
      proposalFromRow_eq_ok_iff hp hbacked.createdAt hbacked.updatedAt happointment hs]
    constructor
    · refine fun hyears => ⟨howner, fun d' hd' hid s' hs' => ?_⟩
      obtain rfl : d = d' := h.consistent.draft_id.eq hd hd' (Option.some.inj hid)
      obtain rfl : s = s' := Except.ok.inj (hs.symm.trans hs')
      exact hyears
    · rintro ⟨-, hyears⟩
      exact hyears d hd rfl s hs

/-- The failures are read in every reachable state. -/
theorem readFailures_of_reachable {env : Environment} {db : Database} (h : Reachable env db) :
    ∃ failures, readFailures db.auditEvents = .ok failures := by
  have hread : ∀ row ∈ db.auditEvents, ∃ event, auditEventFromRow row = .ok event := by
    intro row hrow
    obtain ⟨e, he⟩ := h.consistent.auditEvents.readable row hrow
    exact auditEventFromRow_of_decodes he
  obtain ⟨last, hlast⟩ := exists_mapM_iff.mpr fun row hrow => hread row
    ((List.mem_insertionSort _).mp (List.mem_of_mem_take (i := limit)
      (l := db.auditEvents.insertionSort fun row later => later.id ≤ row.id) hrow))
  obtain ⟨retried, hretried⟩ := exists_mapM_iff.mpr fun row hrow => hread row (List.mem_filter.mp
    ((List.mem_insertionSort _).mp (List.mem_of_mem_take (i := limit)
      (l := (db.auditEvents.filter fun row => row.eventType == "notification_retry_scheduled").insertionSort
        fun row later => row.id ≤ later.id) hrow))).1
  exact ⟨_, bind_eq_ok_iff.mpr ⟨last, hlast, bind_eq_ok_iff.mpr ⟨retried, hretried, rfl⟩⟩⟩

/-- **When the snapshot is read.** After every run of calls, `read_snapshot` succeeds exactly where the first proposals
come from appointment drafts with times of the years 0 to 9999 in UTC, all credentials are Google's or Outlook's, and the
first credentials of each expire at instants that can be read. -/
theorem readSnapshot_iff (env : AdminEnv τ υ) {inYears : τ → Prop} (hchrono : ReadByTime env.oauth.chrono inYears)
    (hclock : ReadsClock env.chrono) (migratedAt now : SystemTime) (calls : List (WriterCall τ κ)) :
    (∃ snapshot, readSnapshot env.store.timezones env.chrono env.sha256 now
        (Machine.run (stepWriters env) calls (Writers.migrated migratedAt)).tables = .ok snapshot) ↔
      Showable env inYears (Machine.run (stepWriters env) calls (Writers.migrated migratedAt)).tables := by
  have hsound := sound_run env hclock migratedAt calls
  set s := Machine.run (stepWriters env) calls (Writers.migrated migratedAt)
  obtain ⟨owner, howner⟩ := readOwner_of_sound hsound.configuration env.sha256
  obtain ⟨row, config, hrow, -, -, hconfig⟩ := hsound.configuration
  rw [← hrow] at hconfig
  obtain ⟨failures, hfailures⟩ := readFailures_of_reachable hsound.database
  have hconnections := readConnections_iff hchrono hsound.expiries env.sha256 now.instant
  have hproposals := readProposals_iff hsound.database
  simp only [readSnapshot, readSnapshotAt, bind_eq_ok_iff, pure_eq_ok]
  constructor
  · rintro ⟨_, -, -, -, -, connections, hread, proposals, hread', -⟩
    obtain ⟨hproviders, hexpiries⟩ := hconnections.mp ⟨connections, hread⟩
    exact ⟨hproposals.mp ⟨proposals, hread'⟩, hproviders, hexpiries⟩
  · intro hshowable
    obtain ⟨connections, hread⟩ := hconnections.mpr ⟨hshowable.providers, hshowable.expiries⟩
    obtain ⟨proposals, hread'⟩ := hproposals.mpr hshowable.proposals
    exact ⟨_, owner, howner, config, hconfig, connections, hread, proposals, hread', failures, hfailures, rfl⟩

/-! ### Libraries that can be run -/

theorem parseTimestamp_of_sign {value : String} {c : Char} {cs : List Char} (h : value.toList = c :: cs)
    (hdigit : c.isDigit = false) (hspace : c ≠ ' ') : parseTimestamp value = none := by
  simp [parseTimestamp, parse, readDate, readNumber, readDigit, h, hdigit, hspace]

theorem anyYear_readByTime : ReadByTime Chrono.anyYear Chrono.InFourDigitYears where
  reads := fun t ht => by
    obtain ⟨text, htext⟩ := timestamp_eq_some_iff.mpr (show (OffsetDateTime.toUtc ⟨t, 0⟩).YearWritable from ht)
    change OffsetDateTime.format ⟨t, 0⟩ = some text at htext
    refine ⟨⟨t, 0⟩, ?_, ht⟩
    show parse ((OffsetDateTime.format ⟨t, 0⟩).getD _) = _
    rw [htext, Option.getD_some, parse_format htext]
  refuses := fun t ht => by
    have hformat : OffsetDateTime.format ⟨t, 0⟩ = none := if_neg fun h => ht h.1
    show parseTimestamp ((OffsetDateTime.format ⟨t, 0⟩).getD _) = none
    rw [hformat, Option.getD_none]
    refine parseTimestamp_of_sign (String.toList_ofList) ?_ ?_ <;> split_ifs <;> decide

theorem readSpaced_currentTimestamp (now : SystemTime) :
    readSpaced (currentTimestamp now) = some now.instant.wholeSecond := by
  obtain ⟨hmonth, hday, hhour, hminute, hsec⟩ := fields_bounds now.instant
  have hsec' : now.instant.fields.sec < 10 ^ 2 := hsec.trans (by decide)
  have hdate := readDate_dateText (fields_year_lt now.writable) hmonth hday
  have htime := readTime_timeText hhour hminute hsec'
  have hspaced := htime []
  rw [List.append_nil] at hspaced
  -- the text is read as the one with the letters `T` and `Z` is
  have hparse := parse_format (strftimeNow_format now)
  have hfraction : readFraction ['Z'] = some (0, ['Z']) := rfl
  have hoffset : readOffset ['Z'] = some (0, []) := rfl
  simp only [parse, strftimeNow, wholeText, String.toList_ofList, List.append_assoc, List.cons_append, hdate,
    readSeparator_T, htime, hfraction, hoffset, Option.bind_eq_bind, Option.bind_some, List.isEmpty_nil, if_true] at hparse
  simp only [readSpaced, currentTimestamp, String.toList_ofList, hdate, readChar_cons, hspaced, Option.bind_eq_bind,
    Option.bind_some, List.isEmpty_nil, if_true, hparse]

theorem fourDigitYears_readsClock : ReadsClock SecondChrono.fourDigitYears where
  refuses := fun now => by
    show (parse (currentTimestamp now)).map _ = none
    rw [parse_currentTimestamp, Option.map_none]
  reads := fun now => by
    have hwritten : now.instant.wholeSecond.wholeSecond.format = some (strftimeNow now) := by
      have hself : now.instant.wholeSecond.wholeSecond = now.instant.wholeSecond := by
        have hseconds : now.instant.wholeSecond.unixTimestamp = now.instant.unixTimestamp :=
          Int.mul_ediv_cancel _ (by decide)
        rw [OffsetDateTime.wholeSecond, hseconds, OffsetDateTime.wholeSecond]
      rw [hself, strftimeNow_format]
    have hspaced := readSpaced_currentTimestamp now
    refine ⟨now.instant.wholeSecond, hspaced, ?_⟩
    show ((parse ((now.instant.wholeSecond.wholeSecond.format).getD "")).map OffsetDateTime.toUtc).isSome = true
    rw [hwritten, Option.getD_some, parse_format (strftimeNow_format now)]
    rfl

/-- SHA-256 of the account `owner` of Google. -/
def ownerDigest : List UInt8 :=
  [36, 126, 92, 138, 0, 220, 143, 73, 154, 203, 39, 74, 173, 6, 2, 225, 163, 215, 145, 46, 87, 86, 83, 74, 110, 88, 137,
    19, 239, 177, 31, 9]

/-- The libraries together, for that account. -/
def snapshotLibraries : AdminEnv ℤ OffsetDateTime :=
  ⟨utcOnly, OAuthEnv.labelled, SecondChrono.fourDigitYears, fun _ => ownerDigest⟩

/-- A draft is prepared and a proposal created for it, and a credential is saved. -/
def proposedQuote : List (WriterCall ℤ Unit) :=
  preparedQuote.map .store ++
    [.store (.createProposal "proposal-key" "proposal-source" (.appointmentDraft 1) newYear), .oauth (ownerSave 0)]

/-- The tables after those calls. -/
def proposedTables : AdminTables :=
  (Machine.run (stepWriters snapshotLibraries) proposedQuote (Writers.migrated newYear)).tables

theorem readSnapshot_iff_proposedQuote :
    ∃ snapshot, readSnapshot snapshotLibraries.store.timezones snapshotLibraries.chrono snapshotLibraries.sha256 newYear
      proposedTables = .ok snapshot := by
  refine (readSnapshot_iff snapshotLibraries anyYear_readByTime fourDigitYears_readsClock newYear newYear
    proposedQuote).mpr ?_
  have hproposals : ∀ row ∈ firstProposals proposedTables.database, row.ownerTaskDraftId = none ∧
      ∀ d ∈ proposedTables.database.appointmentDrafts,
        (decodeAppointmentRow d).toOption.all fun s => decide (InUtcYears s.draft) := by decide +kernel
  have hproviders : ∀ row ∈ proposedTables.oauthCredentials, row.provider = "google" ∧
      row.expiresAt.all fun value => (parseTimestamp value).isSome := by decide +kernel
  refine ⟨fun row hrow => ?_, fun row hrow => .inl (hproviders row hrow).1, fun provider row hrow expiry hexpiry => ?_⟩
  · obtain ⟨hnone, hyears⟩ := hproposals row hrow
    refine ⟨hnone, fun d hd _ s hs => ?_⟩
    have hall := hyears d hd
    rw [hs] at hall
    exact of_decide_eq_true hall
  · have hread := (hproviders row (mem_credentialsOf hrow).1).2
    rw [hexpiry] at hread
    by_contra hyears
    have hrefused : parseTimestamp (Chrono.anyYear.toRfc3339 expiry) = none := anyYear_readByTime.refuses expiry hyears
    rw [Option.all_some, show parseTimestamp (snapshotLibraries.oauth.chrono.toRfc3339 expiry) = none from hrefused] at hread
    cases hread

/-- A credential of a third provider. -/
def microsoftSave : OAuthCall ℤ :=
  .save ⟨"microsoft", "owner", "token-1", none, none, ["email"]⟩ (some sevens) none

/-- An owner's task is placed, and a proposal created for it. -/
def proposedTask : List (WriterCall ℤ Unit) :=
  placedTask.map .store ++
    [.store (.createProposal "proposal-key" "proposal-source" (.ownerTaskDraft 1) newYear)]

/-- **The snapshot is not always read.** A credential of a third provider is saved, and a proposal is created for an
owner's task; after each of them, no snapshot is read. -/
theorem readSnapshot_refused :
    (microsoftSave.succeeds OAuthEnv.labelled [] = true ∧
        readSnapshot snapshotLibraries.store.timezones snapshotLibraries.chrono snapshotLibraries.sha256 newYear
          (Machine.run (stepWriters snapshotLibraries) [(.oauth microsoftSave : WriterCall ℤ Unit)]
            (Writers.migrated newYear)).tables = .error projectionInvalid) ∧
      (Machine.run (stepWriters snapshotLibraries) proposedTask (Writers.migrated newYear)).database.proposals.length = 1 ∧
      readSnapshot snapshotLibraries.store.timezones snapshotLibraries.chrono snapshotLibraries.sha256 newYear
        (Machine.run (stepWriters snapshotLibraries) proposedTask (Writers.migrated newYear)).tables =
          .error projectionInvalid := by
  refine ⟨⟨?_, ?_⟩, ?_, ?_⟩
  · decide +kernel
  · decide +kernel
  · decide +kernel
  · decide +kernel

end AgentVoice.Admin
