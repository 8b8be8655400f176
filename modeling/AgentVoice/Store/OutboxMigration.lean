import AgentVoice.Store.PendingOrder
import AgentVoice.Store.SchemaMigrations

/-!
# The migrated outbox

Version 4 of the schema rebuilds the rows of the notification outbox. It normalises their timestamps and their status and
copies the other columns, which `decode_notification_row` checks when the store reads a row. A row that does not decode
stops every claim and every list that meets it. So the rebuilt outbox can be read exactly where the copied columns of every
old row could be.
-/

namespace AgentVoice.Store

open AgentVoice.Foundations AgentVoice.Domain

variable {parseFromStr : String → String → Option NaiveDateTime} {json : TemplateJson}

/-! ### What becomes of a row -/

theorem parseLegacyNotificationTimestamp_utc {value : String} {t : OffsetDateTime}
    (h : parseLegacyNotificationTimestamp parseFromStr value = some t) : t.offsetSeconds = 0 := by
  rw [parseLegacyNotificationTimestamp] at h
  cases hparse : parse value with
  | some parsed =>
    rw [hparse] at h
    obtain rfl := Option.some.inj h
    rfl
  | none =>
    rw [hparse] at h
    obtain ⟨parsed, -, h⟩ := Option.bind_eq_some_iff.mp h
    obtain ⟨seconds, hseconds, h⟩ := Option.bind_eq_some_iff.mp h
    obtain ⟨rfl, -⟩ := OffsetDateTime.fromUnixTimestamp_eq_some_iff.mp hseconds
    obtain ⟨rfl, -⟩ := OffsetDateTime.checkedAdd_eq_some_iff.mp h
    rfl

/-- A timestamp that is normalised is the canonical text of its instant. -/
theorem normalizeLegacyNotificationTimestamp_eq_ok {value text : String}
    (h : normalizeLegacyNotificationTimestamp parseFromStr value = .ok text) :
    ∃ t, parseLegacyNotificationTimestamp parseFromStr value = some t ∧ t.format = some text ∧
      parseStoredNotificationTimestamp text = .ok t := by
  obtain ⟨t, hparse, h⟩ := bind_eq_ok_iff.mp h
  rw [okOr_eq_ok_iff] at hparse
  have hutc := parseLegacyNotificationTimestamp_utc hparse
  rw [replaceError_eq_ok_iff, OffsetDateTime.toUtc_eq_self hutc, formatOffsetDatetime_eq_ok_iff] at h
  exact ⟨t, hparse, h, parseCanonical_eq_ok_iff.mpr ⟨hutc, h⟩⟩

/-- A text with an offset is not canonical. -/
example : parseStoredNotificationTimestamp "2026-01-01T13:00:00+01:00" = .error (storedRecordInvalid "notification") := by
  decide +kernel

/-- The row was sent, as far as its columns show. -/
def LegacyNotificationOutboxRow.WasSent (row : LegacyNotificationOutboxRow) : Prop :=
  row.status = "sent" ∧ 0 < row.attempts ∧ row.sentAt.isSome = true

/-- What a rebuilt row holds. -/
structure LegacyNotificationOutboxRow.Rebuilt (parseFromStr : String → String → Option NaiveDateTime)
    (row : LegacyNotificationOutboxRow) (stored : NotificationStoredRow) : Prop where
  id : stored.id = row.id
  idempotencyKey : stored.idempotencyKey = row.idempotencyKey
  proposalId : stored.proposalId = row.proposalId
  eventMappingId : stored.eventMappingId = row.eventMappingId
  notificationKind : stored.notificationKind = row.notificationKind
  recipient : stored.recipient = row.recipient
  payload : stored.payload = row.payload
  attempts : stored.attempts = row.attempts
  leaseUntil : stored.leaseUntil = none
  lastErrorCode : stored.lastErrorCode = none
  availableAt : ∃ t, parseStoredNotificationTimestamp stored.availableAt = .ok t
  createdAt : ∃ t, parseStoredNotificationTimestamp stored.createdAt = .ok t
  updatedAt : ∃ t, parseStoredNotificationTimestamp stored.updatedAt = .ok t
  sent : row.WasSent → stored.status = "sent" ∧ ∃ legacyText t text, row.sentAt = some legacyText ∧
    parseLegacyNotificationTimestamp parseFromStr legacyText = some t ∧ stored.sentAt = some text ∧
    t.format = some text ∧ parseStoredNotificationTimestamp text = .ok t
  notSent : ¬ row.WasSent → stored.status = "pending" ∧ stored.sentAt = none

theorem rebuildNotification_eq_ok {row : LegacyNotificationOutboxRow} {stored : NotificationStoredRow}
    (h : rebuildNotification parseFromStr row = .ok stored) : row.Rebuilt parseFromStr stored := by
  obtain ⟨availableAt, havailable, h⟩ := bind_eq_ok_iff.mp h
  obtain ⟨createdAt, hcreated, h⟩ := bind_eq_ok_iff.mp h
  obtain ⟨updatedAt, hupdated, h⟩ := bind_eq_ok_iff.mp h
  obtain ⟨normalizedSentAt, hsent, h⟩ := bind_eq_ok_iff.mp h
  obtain rfl := Except.ok.inj h
  obtain ⟨available, -, -, havailable⟩ := normalizeLegacyNotificationTimestamp_eq_ok havailable
  obtain ⟨created, -, -, hcreated⟩ := normalizeLegacyNotificationTimestamp_eq_ok hcreated
  obtain ⟨updated, -, -, hupdated⟩ := normalizeLegacyNotificationTimestamp_eq_ok hupdated
  refine
    { id := rfl
      idempotencyKey := rfl
      proposalId := rfl
      eventMappingId := rfl
      notificationKind := rfl
      recipient := rfl
      payload := rfl
      attempts := rfl
      leaseUntil := rfl
      lastErrorCode := rfl
      availableAt := ⟨available, havailable⟩
      createdAt := ⟨created, hcreated⟩
      updatedAt := ⟨updated, hupdated⟩
      sent := ?_
      notSent := ?_ }
  · rintro ⟨hstatus, hattempts, hsome⟩
    cases normalizedSentAt with
    | none =>
      rw [transpose_eq_ok_none_iff.mp hsent] at hsome
      cases hsome
    | some text =>
      obtain ⟨legacyText, hlegacy, htext⟩ := transpose_eq_ok_some_iff.mp hsent
      obtain ⟨t, hparse, hformat, hstored⟩ := normalizeLegacyNotificationTimestamp_eq_ok htext
      have hrecovered : recoveredStatus row.status row.attempts (some text) = (.sent, some text) :=
        if_pos ⟨hstatus, hattempts⟩
      exact ⟨congrArg (fun r => r.1.asStr) hrecovered, legacyText, t, text, hlegacy, hparse,
        congrArg Prod.snd hrecovered, hformat, hstored⟩
  · intro hnot
    have hrecovered : recoveredStatus row.status row.attempts normalizedSentAt = (.pending, none) := by
      cases normalizedSentAt with
      | none => rfl
      | some text =>
        obtain ⟨legacyText, hlegacy, -⟩ := transpose_eq_ok_some_iff.mp hsent
        refine if_neg fun hsent => hnot ⟨hsent.1, hsent.2, ?_⟩
        rw [hlegacy]
        rfl
    exact ⟨congrArg (fun r => r.1.asStr) hrecovered, congrArg Prod.snd hrecovered⟩

/-! ### Which rows decode -/

theorem TemplateFields.check_of_new {f : TemplateFields} {d : NotificationTemplateData}
    (h : NotificationTemplateData.new f = .ok d) : f.check = .ok () := by
  unfold NotificationTemplateData.new at h
  split at h
  · assumption
  · cases h

/-- The columns of a row that version 4 copies are ones that `decode_notification_row` accepts. -/
structure LegacyNotificationOutboxRow.Decodes (json : TemplateJson) (row : LegacyNotificationOutboxRow) : Prop where
  id : 0 < row.id
  idempotencyKey : ¬ IsBlank row.idempotencyKey
  proposalId : ∀ id ∈ row.proposalId, 0 < id
  eventMappingId : ∀ id ∈ row.eventMappingId, 0 < id
  kind : ∃ kind : NotificationKind, row.notificationKind = kind.storageName ∧
    kind.requiresProposal = row.proposalId.isSome ∧ (kind.requiresProposal = false → row.eventMappingId = none)
  recipient : ∃ recipient, NotificationRecipient.new row.recipient = .ok recipient
  payload : ∃ payload fields, row.payload = some payload ∧ json.decode payload = some fields ∧
    TemplateFields.check fields = .ok ()

theorem LegacyNotificationOutboxRow.Rebuilt.decodes_of_decode {row : LegacyNotificationOutboxRow}
    {stored : NotificationStoredRow} (h : row.Rebuilt parseFromStr stored) {n : StoredNotification}
    (hn : decodeNotificationRow json stored = .ok n) : row.Decodes json := by
  obtain ⟨_, hids, hn⟩ := bind_eq_ok_iff.mp hn
  obtain ⟨key, hkey, hn⟩ := bind_eq_ok_iff.mp hn
  obtain ⟨_, hproposal, hn⟩ := bind_eq_ok_iff.mp hn
  obtain ⟨_, hmapping, hn⟩ := bind_eq_ok_iff.mp hn
  obtain ⟨kind, hkind, hn⟩ := bind_eq_ok_iff.mp hn
  obtain ⟨_, hrefs, hn⟩ := bind_eq_ok_iff.mp hn
  obtain ⟨recipient, hrecipient, hn⟩ := bind_eq_ok_iff.mp hn
  obtain ⟨payload, hpayload, hn⟩ := bind_eq_ok_iff.mp hn
  obtain ⟨fields, hfields, hn⟩ := bind_eq_ok_iff.mp hn
  obtain ⟨templateData, htemplate, -⟩ := bind_eq_ok_iff.mp hn
  rw [require_eq_ok_iff] at hids hproposal hmapping hrefs
  rw [replaceError_eq_ok_iff] at hkey hrecipient htemplate
  rw [okOr_eq_ok_iff] at hpayload hfields
  rw [h.id] at hids
  rw [h.idempotencyKey, IdempotencyKey.new_eq_ok_iff] at hkey
  rw [h.proposalId] at hproposal hrefs
  rw [h.eventMappingId] at hmapping hrefs
  rw [h.notificationKind, parseNotificationKind_eq_ok_iff] at hkind
  rw [h.recipient] at hrecipient
  rw [h.payload] at hpayload
  exact
    { id := hids.1
      idempotencyKey := hkey.1
      proposalId := hproposal
      eventMappingId := hmapping
      kind := ⟨kind, hkind, hrefs⟩
      recipient := ⟨recipient, hrecipient⟩
      payload := ⟨payload, fields, hpayload, hfields, TemplateFields.check_of_new htemplate⟩ }

theorem metadataTimestamp_of_parse {value : String} {t : OffsetDateTime}
    (h : parseStoredNotificationTimestamp value = .ok t) :
    ∃ text, validateStoredNotificationMetadataTimestamp value = .ok text := by
  have hformat := formatOffsetDatetime_eq_ok_iff.mpr (parseCanonical_eq_ok_iff.mp h).2
  exact ⟨value, bind_eq_ok_iff.mpr ⟨t, h, replaceError_eq_ok_iff.mpr hformat⟩⟩

/-- The status of a rebuilt row agrees with its other columns. -/
theorem LegacyNotificationOutboxRow.Rebuilt.statusColumns {row : LegacyNotificationOutboxRow}
    {stored : NotificationStoredRow} (h : row.Rebuilt parseFromStr stored) :
    ∃ status sentAt, parseNotificationStatus stored.status = .ok status ∧
      transpose parseStoredNotificationTimestamp stored.sentAt = .ok sentAt ∧
      StatusColumnsAgree status stored.attempts none sentAt none := by
  by_cases hsent : row.WasSent
  · obtain ⟨hstatus, _, t, text, -, -, htext, -, hparse⟩ := h.sent hsent
    refine ⟨.sent, some t, ?_, ?_, ?_⟩
    · rw [hstatus]
      rfl
    · exact transpose_eq_ok_some_iff.mpr ⟨text, htext, hparse⟩
    · rw [h.attempts]
      exact ⟨hsent.2.1, rfl, rfl, rfl⟩
  · obtain ⟨hstatus, hnone⟩ := h.notSent hsent
    refine ⟨.pending, none, ?_, ?_, rfl, rfl⟩
    · rw [hstatus]
      rfl
    · rw [hnone, transpose_none]

/-- A rebuilt row decodes where its copied columns do. -/
theorem LegacyNotificationOutboxRow.Rebuilt.decode {row : LegacyNotificationOutboxRow}
    {stored : NotificationStoredRow} (h : row.Rebuilt parseFromStr stored) (hattempts : 0 ≤ row.attempts)
    (hrow : row.Decodes json) : ∃ n, decodeNotificationRow json stored = .ok n := by
  obtain ⟨kind, hkind, hrefs⟩ := hrow.kind
  obtain ⟨recipient, hrecipient⟩ := hrow.recipient
  obtain ⟨payload, fields, hpayload, hfields, hcheck⟩ := hrow.payload
  obtain ⟨available, havailable⟩ := h.availableAt
  obtain ⟨created, hcreated⟩ := h.createdAt
  obtain ⟨updated, hupdated⟩ := h.updatedAt
  obtain ⟨createdAt, hcreatedAt⟩ : ∃ text, validateStoredNotificationMetadataTimestamp stored.createdAt = .ok text :=
    metadataTimestamp_of_parse hcreated
  obtain ⟨updatedAt, hupdatedAt⟩ : ∃ text, validateStoredNotificationMetadataTimestamp stored.updatedAt = .ok text :=
    metadataTimestamp_of_parse hupdated
  obtain ⟨status, sentAt, hstatus, hsent, hagree⟩ := h.statusColumns
  have hids : 0 < stored.id ∧ 0 ≤ stored.attempts := by
    rw [h.id, h.attempts]
    exact ⟨hrow.id, hattempts⟩
  obtain ⟨key, hkey⟩ : ∃ key, IdempotencyKey.new row.idempotencyKey = .ok key :=
    ⟨⟨trim row.idempotencyKey, trim_trim _, fun hb => hrow.idempotencyKey ((isBlank_trim _).mp hb)⟩,
      IdempotencyKey.new_eq_ok_iff.mpr ⟨hrow.idempotencyKey, rfl⟩⟩
  have hlease : transpose parseStoredNotificationTimestamp stored.leaseUntil = .ok none := by
    rw [h.leaseUntil, transpose_none]
  have herror : replaceError (transpose validateNotificationErrorCode stored.lastErrorCode)
      (storedRecordInvalid "notification") = .ok none := by
    rw [h.lastErrorCode, transpose_none, replaceError_ok]
  rw [← h.idempotencyKey] at hkey
  rw [← h.notificationKind, ← parseNotificationKind_eq_ok_iff] at hkind
  rw [← h.proposalId, ← h.eventMappingId] at hrefs
  rw [← h.recipient] at hrecipient
  rw [← h.payload] at hpayload
  have hproposal := hrow.proposalId
  have hmapping := hrow.eventMappingId
  rw [← h.proposalId] at hproposal
  rw [← h.eventMappingId] at hmapping
  have hnew := NotificationTemplateData.new_of_check hcheck
  refine ⟨⟨stored.id, key.text, stored.proposalId, stored.eventMappingId, kind, recipient, .ofFields fields hcheck, status,
    available, none, sentAt, none, stored.attempts, createdAt, updatedAt⟩, ?_⟩
  refine bind_eq_ok_iff.mpr ⟨(), require_of hids _, ?_⟩
  refine bind_eq_ok_iff.mpr ⟨key, replaceError_eq_ok_iff.mpr hkey, ?_⟩
  refine bind_eq_ok_iff.mpr ⟨(), require_of hproposal _, bind_eq_ok_iff.mpr ⟨(), require_of hmapping _, ?_⟩⟩
  refine bind_eq_ok_iff.mpr ⟨kind, hkind, bind_eq_ok_iff.mpr ⟨(), require_of hrefs _, ?_⟩⟩
  refine bind_eq_ok_iff.mpr ⟨recipient, replaceError_eq_ok_iff.mpr hrecipient, ?_⟩
  refine bind_eq_ok_iff.mpr ⟨payload, okOr_eq_ok_iff.mpr hpayload, ?_⟩
  refine bind_eq_ok_iff.mpr ⟨fields, okOr_eq_ok_iff.mpr hfields, ?_⟩
  refine bind_eq_ok_iff.mpr ⟨_, replaceError_eq_ok_iff.mpr hnew, bind_eq_ok_iff.mpr ⟨status, hstatus, ?_⟩⟩
  refine bind_eq_ok_iff.mpr ⟨available, havailable, bind_eq_ok_iff.mpr ⟨none, hlease, ?_⟩⟩
  refine bind_eq_ok_iff.mpr ⟨sentAt, hsent, bind_eq_ok_iff.mpr ⟨none, herror, ?_⟩⟩
  refine bind_eq_ok_iff.mpr ⟨(), require_of hagree _, ?_⟩
  exact bind_eq_ok_iff.mpr ⟨createdAt, hcreatedAt, bind_eq_ok_iff.mpr ⟨updatedAt, hupdatedAt, rfl⟩⟩

/-! ### Runs from version 3 -/

/-- The tables as the schema of version 3 has them: the outbox has old rows, which meet the constraints of its columns. -/
structure SchemaTables.VersionThree (tables : SchemaTables) (rows : List LegacyNotificationOutboxRow) : Prop where
  notificationOutbox : tables.notificationOutbox = .legacy rows
  id : rows.Pairwise fun row later => row.id ≠ later.id
  idempotencyKey : rows.Pairwise fun row later => row.idempotencyKey ≠ later.idempotencyKey
  attempts : ∀ row ∈ rows, 0 ≤ row.attempts ∧ row.attempts < 2 ^ 63
  proposal : ∀ row ∈ rows, ∀ id ∈ row.proposalId, (Table.byRowid id tables.proposals).isSome = true
  eventMapping : ∀ row ∈ rows, ∀ id ∈ row.eventMappingId, (Table.byRowid id tables.eventMappings).isSome = true

/-- Two states of the tables with the same outbox, and the same proposals and event mappings. -/
def SchemaTables.SameOutbox (tables tables' : SchemaTables) : Prop :=
  tables'.proposals = tables.proposals ∧ tables'.eventMappings = tables.eventMappings ∧
    tables'.notificationOutbox = tables.notificationOutbox

theorem SchemaTables.SameOutbox.trans {tables tables' tables'' : SchemaTables} (h : tables.SameOutbox tables')
    (h' : tables'.SameOutbox tables'') : tables.SameOutbox tables'' :=
  ⟨h'.1.trans h.1, h'.2.1.trans h.2.1, h'.2.2.trans h.2.2⟩

/-- The migrations after version 4 leave the outbox. -/
theorem outbox_kept {migration : Migration SchemaTables SystemTime}
    (h : migration ∈ (migrations parseFromStr).migrations.drop 4) {clock : SystemTime} {tables tables' : SchemaTables}
    (happly : migration.apply clock tables = .ok tables') : tables.SameOutbox tables' := by
  simp only [migrations, List.drop_succ_cons, List.drop_zero, List.mem_cons, List.not_mem_nil, or_false] at h
  rcases h with rfl | rfl | rfl | hschema
  · obtain ⟨rows, -, htables⟩ := bind_eq_ok_iff.mp happly
    obtain rfl := Except.ok.inj htables
    exact ⟨rfl, rfl, rfl⟩
  · obtain ⟨_, -, htables⟩ := bind_eq_ok_iff.mp happly
    obtain rfl := Except.ok.inj htables
    exact ⟨rfl, rfl, rfl⟩
  · obtain ⟨_, -, htables⟩ := bind_eq_ok_iff.mp happly
    obtain rfl := Except.ok.inj htables
    exact ⟨rfl, rfl, rfl⟩
  · have honly : ∃ version, migration = schemaOnly version := by
      rcases hschema with rfl | rfl | rfl | rfl | rfl | rfl | rfl | rfl <;> exact ⟨_, rfl⟩
    obtain ⟨version, rfl⟩ := honly
    obtain rfl := Except.ok.inj happly
    exact ⟨rfl, rfl, rfl⟩

/-- What a run from version 3 does with the outbox. -/
theorem outbox_of_run {run : MigrationRun SystemTime} {db db' : VersionedStore SchemaTables SystemTime}
    {rows : List LegacyNotificationOutboxRow} (hversion : db.Records ((migrations parseFromStr).take 3).migrations)
    (hschema : db.tables.VersionThree rows)
    (hok : runMigrationsWith run (migrations parseFromStr).migrations db = (.ok (), db')) :
    ∃ stored, db'.tables.proposals = db.tables.proposals ∧ db'.tables.eventMappings = db.tables.eventMappings ∧
      db'.tables.notificationOutbox = .rebuilt stored ∧
      List.Forall₂ (fun row stored => row ∈ rows ∧ row.Rebuilt parseFromStr stored)
        (rows.insertionSort fun row later => row.id ≤ later.id) stored := by
  obtain ⟨-, happly⟩ := (runMigrationsWith_eq_ok_iff hversion).mp hok
  obtain ⟨tables, hfour, happly⟩ := bind_eq_ok_iff.mp happly
  obtain ⟨stored, hstored, htables⟩ := bind_eq_ok_iff.mp hfour
  obtain rfl := Except.ok.inj htables
  have hselect : db.ensureTable.tables.notificationOutbox.select = rows := by
    show db.tables.notificationOutbox.select = rows
    rw [hschema.notificationOutbox]
    rfl
  rw [hselect] at hstored
  have hrebuilt : List.Forall₂ (fun row stored => row ∈ rows ∧ row.Rebuilt parseFromStr stored)
      (rows.insertionSort fun row later => row.id ≤ later.id) stored := by
    obtain ⟨stored', hstored', hall⟩ := exists_mapM_eq_ok
      (R := fun row stored => row ∈ rows ∧ row.Rebuilt parseFromStr stored) fun row hrow =>
        (exists_mem_of_mapM hstored hrow).imp fun _ h =>
          ⟨h.2, (List.mem_insertionSort _).mp hrow, rebuildNotification_eq_ok h.2⟩
    rw [hstored] at hstored'
    obtain rfl := Except.ok.inj hstored'
    exact hall
  obtain ⟨hproposals, hmappings, houtbox⟩ := applyAll_invariant
    (I := SchemaTables.SameOutbox { db.tables with notificationOutbox := .rebuilt stored })
    (fun migration hmigration _ before after happly hbefore => hbefore.trans (outbox_kept hmigration happly)) happly
    ⟨rfl, rfl, rfl⟩
  exact ⟨stored, hproposals, hmappings, houtbox, hrebuilt⟩

/-! ### A sound migration -/

/-- What the migration is to keep of a row. -/
structure LegacyNotificationOutboxRow.Kept (parseFromStr : String → String → Option NaiveDateTime)
    (row : LegacyNotificationOutboxRow) (stored : NotificationStoredRow) : Prop where
  id : stored.id = row.id
  idempotencyKey : stored.idempotencyKey = row.idempotencyKey
  proposalId : stored.proposalId = row.proposalId
  eventMappingId : stored.eventMappingId = row.eventMappingId
  recipient : stored.recipient = row.recipient
  attempts : stored.attempts = row.attempts
  /-- What was sent stays sent, at the same instant. -/
  sent : row.status = "sent" → stored.status = "sent" ∧ ∃ legacyText text t u, row.sentAt = some legacyText ∧
    stored.sentAt = some text ∧ parseLegacyNotificationTimestamp parseFromStr legacyText = some t ∧
    parse text = some u ∧ u.Same t
  /-- Nothing else becomes sent. -/
  notSent : stored.status = "sent" → row.status = "sent"

/-- A store whose proposals, event mappings and outbox are the migrated ones. -/
structure SchemaTables.OpensAs (tables : SchemaTables) (db : Database) : Prop where
  proposals : db.proposals = tables.proposals
  eventMappings : db.eventMappings = tables.eventMappings
  notificationOutbox : tables.notificationOutbox = .rebuilt db.notificationOutbox

/-- The store reads every notification of its outbox, and none of them stops a list or a claim. -/
structure OutboxReadable (json : TemplateJson) (db : Database) : Prop where
  decodes : ∀ stored ∈ db.notificationOutbox, ∃ n, decodeNotificationRow json stored = .ok n
  readable : ∀ stored ∈ db.notificationOutbox, Readable json db stored
  listed : ∃ ns, (listPendingNotifications json).run db = .ok (ns, db)
  claimed : ∀ now limit leaseDuration clock, ClaimArguments now limit leaseDuration →
    (∀ n ∈ db.notifications json, n.EligibleAt now → n.attempts + 1 < 2 ^ 63) →
      ∃ ns db', (claimNotifications json now limit leaseDuration clock).run db = .ok (ns, db')

/-- The migration of an outbox is sound: it keeps the rows, and a store can read what they become. -/
structure OutboxSound (parseFromStr : String → String → Option NaiveDateTime) (json : TemplateJson)
    (rows : List LegacyNotificationOutboxRow) (tables : SchemaTables) : Prop where
  kept : ∃ sorted stored, tables.notificationOutbox = .rebuilt stored ∧ sorted.Perm rows ∧
    List.Forall₂ (fun row stored => row.Kept parseFromStr stored) sorted stored
  readable : ∀ db, tables.OpensAs db → OutboxReadable json db

/-- A row that the migration carries over: its copied columns decode, an event mapping that it names is one of its
proposal, and where its status says that it was sent, its attempts and its instant do. -/
structure LegacyNotificationOutboxRow.CarriesOver (json : TemplateJson) (tables : SchemaTables)
    (row : LegacyNotificationOutboxRow) : Prop where
  decodes : row.Decodes json
  eventMapping : ∀ id ∈ row.eventMappingId, ∀ mapping, Table.byRowid id tables.eventMappings = some mapping →
    some mapping.proposalId = row.proposalId
  sent : row.status = "sent" → 0 < row.attempts ∧ row.sentAt.isSome = true

theorem LegacyNotificationOutboxRow.Rebuilt.kept {row : LegacyNotificationOutboxRow} {stored : NotificationStoredRow}
    (h : row.Rebuilt parseFromStr stored) (hsent : row.status = "sent" → 0 < row.attempts ∧ row.sentAt.isSome = true) :
    row.Kept parseFromStr stored where
  id := h.id
  idempotencyKey := h.idempotencyKey
  proposalId := h.proposalId
  eventMappingId := h.eventMappingId
  recipient := h.recipient
  attempts := h.attempts
  sent := by
    intro hstatus
    obtain ⟨hstored, legacyText, t, text, hlegacy, hparse, htext, hformat, -⟩ := h.sent ⟨hstatus, hsent hstatus⟩
    exact ⟨hstored, legacyText, text, t, t, hlegacy, htext, hparse, parse_format hformat, rfl⟩
  notSent := by
    intro hstored
    by_contra hstatus
    obtain ⟨hpending, -⟩ := h.notSent fun hsent => hstatus hsent.1
    rw [hpending] at hstored
    exact absurd hstored (by decide)

/-- A rebuilt row is read, where the row carries over. -/
theorem LegacyNotificationOutboxRow.Rebuilt.readable {row : LegacyNotificationOutboxRow}
    {stored : NotificationStoredRow} (h : row.Rebuilt parseFromStr stored) {tables : SchemaTables}
    {rows : List LegacyNotificationOutboxRow} (hschema : tables.VersionThree rows) (hmem : row ∈ rows) {db : Database}
    (hproposals : db.proposals = tables.proposals) (hmappings : db.eventMappings = tables.eventMappings)
    (hrow : row.CarriesOver json tables) : Readable json db stored := by
  obtain ⟨hnonneg, hfits⟩ := hschema.attempts row hmem
  obtain ⟨n, hn⟩ := h.decode hnonneg hrow.decodes
  have hholds := decodeNotificationRow_eq_ok hn
  refine ⟨h.attempts ▸ hfits, n, hn, validateStoredNotificationReferences_eq_ok_iff.mpr ⟨?_, ?_⟩⟩
  · rw [hholds.proposalId, h.proposalId, hproposals]
    exact hschema.proposal row hmem
  · rw [hholds.proposalId, hholds.eventMappingId, h.proposalId, h.eventMappingId, hmappings]
    intro id hid
    obtain ⟨mapping, hmapping⟩ := Option.isSome_iff_exists.mp (hschema.eventMapping row hmem id hid)
    exact ⟨mapping, hmapping, hrow.eventMapping id hid mapping hmapping⟩

/-- A row that was kept and whose rebuilt row is read carries over. -/
theorem LegacyNotificationOutboxRow.Rebuilt.carriesOver {row : LegacyNotificationOutboxRow}
    {stored : NotificationStoredRow} (h : row.Rebuilt parseFromStr stored) {tables : SchemaTables} {db : Database}
    (hmappings : db.eventMappings = tables.eventMappings) (hkept : row.status = "sent" → stored.status = "sent")
    (hreadable : Readable json db stored) : row.CarriesOver json tables := by
  obtain ⟨-, n, hn, hrefs⟩ := hreadable
  have hholds := decodeNotificationRow_eq_ok hn
  refine ⟨h.decodes_of_decode hn, ?_, ?_⟩
  · intro id hid mapping hmapping
    have hnid : id ∈ n.eventMappingId := by
      rw [hholds.eventMappingId, h.eventMappingId]
      exact hid
    obtain ⟨mapping', hmapping', hproposal⟩ := (validateStoredNotificationReferences_eq_ok_iff.mp hrefs).2 id hnid
    rw [hmappings, hmapping] at hmapping'
    obtain rfl := Option.some.inj hmapping'
    rw [hproposal, hholds.proposalId, h.proposalId]
  · intro hstatus
    have hsent : row.WasSent := by
      by_contra hnot
      have hpending := (h.notSent hnot).1
      rw [hkept hstatus] at hpending
      exact absurd hpending (by decide)
    exact hsent.2

/-- Where the rebuilt rows have the ids of the old ones, no two of them have the same. -/
theorem rebuilt_unique {tables : SchemaTables} {rows : List LegacyNotificationOutboxRow}
    {stored : List NotificationStoredRow} (hschema : tables.VersionThree rows)
    (hall : List.Forall₂ (fun row stored => row ∈ rows ∧ row.Rebuilt parseFromStr stored)
      (rows.insertionSort fun row later => row.id ≤ later.id) stored) : Table.Unique Row.rowid stored := by
  have hids : (rows.insertionSort fun row later => row.id ≤ later.id).Pairwise fun row later => row.id ≠ later.id :=
    ((List.perm_insertionSort _ rows).pairwise_iff fun h => Ne.symm h).mpr hschema.id
  refine pairwise_of_forall₂ hall hids fun row _ later _ s s' hs hs' hne => ?_
  show s.id ≠ s'.id
  rw [hs.2.id, hs'.2.id]
  exact hne

/-- A store reads an outbox whose rows are all readable. -/
theorem OutboxReadable.of_readable {db : Database} (hunique : Table.Unique Row.rowid db.notificationOutbox)
    (hreadable : ∀ stored ∈ db.notificationOutbox, Readable json db stored) : OutboxReadable json db where
  decodes := fun stored hstored => (hreadable stored hstored).2.imp fun _ hn => hn.1
  readable := hreadable
  listed := ⟨_, listPendingNotifications_run hreadable⟩
  claimed := fun _ _ _ clock harguments hattempts => claimNotifications_succeeds hunique hreadable harguments hattempts clock

section Run

variable {run : MigrationRun SystemTime} {db db' : VersionedStore SchemaTables SystemTime}
  {rows : List LegacyNotificationOutboxRow} (hversion : db.Records ((migrations parseFromStr).take 3).migrations)
  (hschema : db.tables.VersionThree rows)
  (hok : runMigrationsWith run (migrations parseFromStr).migrations db = (.ok (), db'))

include hversion hschema hok

/-- Every row of an outbox that is migrated soundly carries over. -/
theorem OutboxSound.carriesOver (hsound : OutboxSound parseFromStr json rows db'.tables)
    {row : LegacyNotificationOutboxRow} (hrow : row ∈ rows) : row.CarriesOver json db.tables := by
  obtain ⟨stored, hproposals, hmappings, houtbox, hall⟩ := outbox_of_run hversion hschema hok
  obtain ⟨sorted, stored', hstored', hperm, hkept⟩ := hsound.kept
  obtain rfl : stored = stored' := NotificationOutbox.rebuilt.inj (houtbox.symm.trans hstored')
  obtain ⟨s, hs, -, hrebuilt⟩ := exists_of_mem_forall₂ hall ((List.mem_insertionSort _).mpr hrow)
  -- The row that became `s` is this one, since the ids are distinct.
  obtain ⟨row', hrow', hkeeps⟩ := exists_of_mem_forall₂ hkept.flip hs
  have hids : Table.Unique LegacyNotificationOutboxRow.id rows := hschema.id
  obtain rfl : row' = row := hids.eq (hperm.mem_iff.mp hrow') hrow (hkeeps.id.symm.trans hrebuilt.id)
  let opened : Database := { Database.empty with
    proposals := db'.tables.proposals, eventMappings := db'.tables.eventMappings, notificationOutbox := stored }
  have hreads : OutboxReadable json opened := hsound.readable opened ⟨rfl, rfl, houtbox⟩
  exact hrebuilt.carriesOver hmappings (fun hstatus => (hkeeps.sent hstatus).1) (hreads.readable s hs)

/-- **Which outboxes are migrated soundly.** -/
theorem outboxSound_iff :
    OutboxSound parseFromStr json rows db'.tables ↔ ∀ row ∈ rows, row.CarriesOver json db.tables := by
  constructor
  · intro hsound row hrow
    exact hsound.carriesOver hversion hschema hok hrow
  · intro hcarries
    obtain ⟨stored, hproposals, hmappings, houtbox, hall⟩ := outbox_of_run hversion hschema hok
    refine ⟨⟨rows.insertionSort fun row later => row.id ≤ later.id, stored, houtbox, List.perm_insertionSort _ rows, ?_⟩, ?_⟩
    · exact hall.imp fun row s h => h.2.kept (hcarries row h.1).sent
    · intro opened hopened
      obtain rfl : stored = opened.notificationOutbox :=
        NotificationOutbox.rebuilt.inj (houtbox.symm.trans hopened.notificationOutbox)
      refine .of_readable (rebuilt_unique hschema hall) fun s hs => ?_
      obtain ⟨row, -, hrow, hrebuilt⟩ := exists_of_mem_forall₂ hall.flip hs
      exact hrebuilt.readable hschema hrow (hopened.proposals.trans hproposals) (hopened.eventMappings.trans hmappings)
        (hcarries row hrow)

end Run

/-- A summary in the outbox of version 3. -/
def legacySummary (payload : Option String) (status : String) (sentAt : Option String) (attempts : ℤ) :
    LegacyNotificationOutboxRow :=
  ⟨1, "key-1", none, none, "call_summary", "owner@example.com", payload, status, "2025-01-02 03:04:05", sentAt, attempts,
    "2025-01-02 03:04:05", "2025-01-02 03:04:05"⟩

/-- A database of version 3 with one row in its outbox. -/
def versionThree (row : LegacyNotificationOutboxRow) : VersionedStore SchemaTables SystemTime where
  schemaMigrations := some [(1, newYear), (2, newYear), (3, newYear)]
  tables := ⟨[], [], .legacy [row], .legacy [], 0, 0⟩

/-- The date library, on one text in the form that SQLite writes. -/
def readsSqlite (value _ : String) : Option NaiveDateTime :=
  if value = "2025-01-02 03:04:05" then some ⟨1735787045, 0⟩ else none

/-- A run in which no call of the database fails. -/
def calmRun : MigrationRun SystemTime := ⟨fun _ => newYear, true, true, true, fun _ => true, fun _ => true, true⟩

theorem versionThree_schema (row : LegacyNotificationOutboxRow) (hproposal : row.proposalId = none)
    (hmapping : row.eventMappingId = none) (hattempts : 0 ≤ row.attempts ∧ row.attempts < 2 ^ 63) :
    (versionThree row).tables.VersionThree [row] where
  notificationOutbox := rfl
  id := List.pairwise_singleton _ _
  idempotencyKey := List.pairwise_singleton _ _
  attempts := by
    intro r hr
    obtain rfl := List.mem_singleton.mp hr
    exact hattempts
  proposal := by
    intro r hr id hid
    obtain rfl := List.mem_singleton.mp hr
    rw [hproposal] at hid
    cases hid
  eventMapping := by
    intro r hr id hid
    obtain rfl := List.mem_singleton.mp hr
    rw [hmapping] at hid
    cases hid

theorem exists_of_isOk (row : LegacyNotificationOutboxRow)
    (h : (runMigrationsWith calmRun (migrations readsSqlite).migrations (versionThree row)).1.isOk = true) :
    ∃ db', runMigrationsWith calmRun (migrations readsSqlite).migrations (versionThree row) = (.ok (), db') := by
  obtain ⟨db', -, hresult⟩ | ⟨e, he⟩ := runMigrationsWith_cases calmRun (migrations readsSqlite).migrations (versionThree row)
  · exact ⟨db', hresult⟩
  · rw [he] at h
    cases h

/-- A summary that was sent. -/
def sentSummary : LegacyNotificationOutboxRow :=
  legacySummary (some (callBackLibraries.json.encode summaryRequest.templateData.fields)) "sent"
    (some "2025-01-02 03:04:05") 2

theorem sentSummary_carriesOver (tables : SchemaTables) : sentSummary.CarriesOver callBackLibraries.json tables where
  decodes :=
    { id := by decide
      idempotencyKey := by decide
      proposalId := by
        intro id hid
        cases hid
      eventMappingId := by
        intro id hid
        cases hid
      kind := ⟨.callSummary, rfl, rfl, fun _ => rfl⟩
      recipient := ⟨summaryRequest.recipient, by decide⟩
      payload := ⟨_, summaryRequest.templateData.fields, rfl, by decide +kernel, summaryRequest.templateData.checked⟩ }
  eventMapping := by
    intro id hid
    cases hid
  sent := fun _ => ⟨by decide, rfl⟩

theorem outboxSound_sentSummary :
    ∃ db', runMigrationsWith calmRun (migrations readsSqlite).migrations (versionThree sentSummary) = (.ok (), db') ∧
      OutboxSound readsSqlite callBackLibraries.json [sentSummary] db'.tables := by
  obtain ⟨db', hok⟩ := exists_of_isOk sentSummary (by decide +kernel)
  have hversion : (versionThree sentSummary).Records ((migrations readsSqlite).take 3).migrations := rfl
  have hschema := versionThree_schema sentSummary rfl rfl (by decide)
  refine ⟨db', hok, (outboxSound_iff hversion hschema hok).mpr fun row hrow => ?_⟩
  obtain rfl := List.mem_singleton.mp hrow
  exact sentSummary_carriesOver _

/-- A summary without a payload. -/
def emptySummary : LegacyNotificationOutboxRow := legacySummary none "pending" none 0

/-- A row without a payload is migrated and then cannot be read. -/
theorem emptySummary_not_sound :
    (versionThree emptySummary).Records ((migrations readsSqlite).take 3).migrations ∧
      (versionThree emptySummary).tables.VersionThree [emptySummary] ∧
      ∃ db', runMigrationsWith calmRun (migrations readsSqlite).migrations (versionThree emptySummary) = (.ok (), db') ∧
        ¬ OutboxSound readsSqlite callBackLibraries.json [emptySummary] db'.tables := by
  obtain ⟨db', hok⟩ := exists_of_isOk emptySummary (by decide +kernel)
  have hversion : (versionThree emptySummary).Records ((migrations readsSqlite).take 3).migrations := rfl
  have hschema := versionThree_schema emptySummary rfl rfl (by decide)
  refine ⟨hversion, hschema, db', hok, fun hsound => ?_⟩
  have hcarries := hsound.carriesOver hversion hschema hok List.mem_cons_self
  obtain ⟨payload, -, hpayload, -⟩ := hcarries.decodes.payload
  cases hpayload

end AgentVoice.Store
