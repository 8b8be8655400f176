import AgentVoice.Admin.ConfigStore
import AgentVoice.Foundations.Bytes
import AgentVoice.Store.OAuthHistory
import AgentVoice.Store.ProposalRows

/-!
# The admin snapshot

`PaAdminStore::read_snapshot_at`: what the administration shows of the owner, the configuration, the connections, the
proposals and the failures. The readers have decoders of their own, which are narrower than the store's: a connection is
Google's or Outlook's, a proposal comes from an appointment draft, and every instant is shown in UTC. What each decoder
accepts is stated beside it (`connectionFromRow_eq_ok_iff`, `proposalFromRow_eq_ok_iff`). Every failure of a reader is
the same error, which names no row. SHA-256 is a parameter.
-/

namespace AgentVoice.Admin

open AgentVoice.Foundations AgentVoice.Domain AgentVoice.Store

/-- `LIMIT`. -/
def limit : ℕ := 100

/-- `invalid`, of `admin_store.rs`. -/
def projectionInvalid : StoreError := storedRecordInvalid "admin projection"

/-! ### The projections -/

/-- `AdminOwner`. -/
structure AdminOwner where
  configured : Bool
  identityFingerprint : Option String
  deriving DecidableEq, Repr

/-- `AdminProvider`. -/
inductive AdminProvider where
  | google | outlook
  deriving DecidableEq, Repr

/-- `AdminConnectionStatus`. -/
inductive AdminConnectionStatus where
  | connected | missing | expired | error
  deriving DecidableEq, Repr

/-- `AdminConnection`. -/
structure AdminConnection where
  provider : AdminProvider
  configured : Bool
  accountFingerprint : Option String
  expiresAt : Option String
  status : AdminConnectionStatus
  deriving DecidableEq, Repr

/-- `AdminProposalState`. -/
inductive AdminProposalState where
  | pending | accepted | declined | expired
  deriving DecidableEq, Repr

/-- `AdminAppointmentKind`. -/
inductive AdminAppointmentKind where
  | callback | meeting
  deriving DecidableEq, Repr

/-- `AdminProposal`. -/
structure AdminProposal where
  id : ℤ
  state : AdminProposalState
  appointmentKind : AdminAppointmentKind
  startsAt : String
  endsAt : String
  createdAt : String
  updatedAt : String
  deriving DecidableEq, Repr

/-- `AdminFailureCategory`. -/
inductive AdminFailureCategory where
  | validation | auth | dependency | provider | store | unexpected
  deriving DecidableEq, Repr

/-- `AdminFailure`. -/
structure AdminFailure where
  id : ℤ
  category : AdminFailureCategory
  occurredAt : String
  retryable : Bool
  deriving DecidableEq, Repr

/-- `AdminSnapshot`. -/
structure AdminSnapshot where
  owner : AdminOwner
  config : AdminConfig
  connections : List AdminConnection
  proposals : List AdminProposal
  failures : List AdminFailure
  deriving DecidableEq, Repr

/-- `provider_name`. -/
def AdminProvider.name : AdminProvider → String
  | .google => "google"
  | .outlook => "outlook"

/-- The names that `proposal_from_row` knows of states. -/
def AdminProposalState.name : AdminProposalState → String
  | .pending => "pending"
  | .accepted => "accepted"
  | .declined => "declined"
  | .expired => "expired"

/-- The names that `proposal_from_row` knows of kinds. -/
def AdminAppointmentKind.name : AdminAppointmentKind → String
  | .callback => "callback"
  | .meeting => "meeting"

/-! ### Instants -/

/-- `parse_timestamp`. -/
def parseTimestamp (value : String) : Option OffsetDateTime :=
  (parse value).or (parse (String.ofList ((value.toList.map fun c => if c = ' ' then 'T' else c) ++ ['Z'])))

/-- `timestamp`; there is no text also where `to_offset` panics. -/
def timestamp (value : OffsetDateTime) : Option String := value.toUtc.format

/-- Reads an instant and writes it in UTC. -/
def showTimestamp (value : String) : StoreResult String :=
  okOr ((parseTimestamp value).bind timestamp) projectionInvalid

theorem parseTimestamp_of_parse {value : String} {t : OffsetDateTime} (h : parse value = some t) :
    parseTimestamp value = some t := by
  rw [parseTimestamp, h, Option.some_or]

/-- An instant is written in UTC if its UTC year has four digits. -/
theorem timestamp_eq_some_iff {t : OffsetDateTime} : (∃ text, timestamp t = some text) ↔ t.toUtc.YearWritable := by
  constructor
  · rintro ⟨text, h⟩
    exact (OffsetDateTime.format_eq_some_iff.mp h).1
  · intro h
    have hoffset : OffsetWritable t.toUtc.offsetSeconds := (by decide : OffsetWritable 0)
    exact ⟨_, if_pos ⟨h, hoffset⟩⟩

theorem showTimestamp_of_parse {value : String} {t : OffsetDateTime} (h : parse value = some t) :
    (∃ text, showTimestamp value = .ok text) ↔ t.toUtc.YearWritable := by
  simp only [showTimestamp, okOr_eq_ok_iff, parseTimestamp_of_parse h, Option.bind_some]
  exact timestamp_eq_some_iff

/-- The text of an instant in UTC is shown. -/
theorem showTimestamp_of_format {value : String} {t : OffsetDateTime} (hutc : t.offsetSeconds = 0)
    (h : t.format = some value) : ∃ text, showTimestamp value = .ok text := by
  refine (showTimestamp_of_parse (parse_format h)).mpr ?_
  rw [OffsetDateTime.toUtc_eq_self hutc]
  exact (OffsetDateTime.format_eq_some_iff.mp h).1

/-- No character of a date or of a time is a space. -/
theorem map_spaces (now : SystemTime) :
    ((dateText now.instant.fields.date ++ ' ' :: timeText now.instant.fields).map fun c => if c = ' ' then 'T' else c) =
      wholeText now.instant.fields := by
  obtain ⟨hmonth, hday, hhour, hminute, hsec⟩ := fields_bounds now.instant
  have hsec' : now.instant.fields.sec < 10 ^ 2 := hsec.trans (by decide)
  have hdigits : ∀ {w n : ℕ}, n < 10 ^ w → (decimal w n).map (fun c => if c = ' ' then 'T' else c) = decimal w n := by
    intro w n h
    refine (List.map_congr_left fun c hc => ?_).trans (List.map_id _)
    have hdigit := isDigit_of_mem_decimal h hc
    by_cases hspace : c = ' '
    · subst hspace
      cases hdigit
    · rw [if_neg hspace, id]
  simp [wholeText, dateText, timeText, hdigits (fields_year_lt now.writable), hdigits hmonth, hdigits hday,
    hdigits hhour, hdigits hminute, hdigits hsec']

/-- The texts of `CURRENT_TIMESTAMP` have no offset, and are no RFC 3339 texts. -/
theorem parse_currentTimestamp (now : SystemTime) : parse (currentTimestamp now) = none := by
  obtain ⟨hmonth, hday, hhour, hminute, hsec⟩ := fields_bounds now.instant
  have hsec' : now.instant.fields.sec < 10 ^ 2 := hsec.trans (by decide)
  have htime := readTime_timeText hhour hminute hsec' []
  rw [List.append_nil] at htime
  have hspace : ∀ cs, readSeparator (' ' :: cs) = some cs := fun _ => rfl
  simp only [parse, currentTimestamp, String.toList_ofList, readDate_dateText (fields_year_lt now.writable) hmonth hday,
    hspace, htime, readFraction, readOffset, Option.bind_eq_bind, Option.bind_some, Option.bind_none]

/-- **The texts of `CURRENT_TIMESTAMP` are shown**, as they are read on the second try. -/
theorem showTimestamp_currentTimestamp (now : SystemTime) :
    ∃ text, showTimestamp (currentTimestamp now) = .ok text := by
  have hsecond : parseTimestamp (currentTimestamp now) = some now.instant.wholeSecond := by
    rw [parseTimestamp, parse_currentTimestamp, Option.none_or, currentTimestamp, String.toList_ofList, map_spaces]
    exact parse_format (strftimeNow_format now)
  have hyear := (OffsetDateTime.format_eq_some_iff.mp (strftimeNow_format now)).1
  obtain ⟨text, htext⟩ : ∃ text, timestamp now.instant.wholeSecond = some text := timestamp_eq_some_iff.mpr hyear
  exact ⟨text, by rw [showTimestamp, hsecond, Option.bind_some, htext, okOr_some]⟩

/-! ### The readers -/

/-- `fingerprint`. -/
def fingerprint (sha256 : List UInt8 → List UInt8) (value : String) : String := lowercaseHex (sha256 (utf8 value))

/-- `read_owner`, on the table of one row. -/
def readOwner (sha256 : List UInt8 → List UInt8) (row : Option ConfigurationRow) : StoreResult AdminOwner := do
  let row ← okOr row projectionInvalid
  let email ← okOr row.ownerEmail.optionalText projectionInvalid
  let phone ← okOr row.ownerPhone.optionalText projectionInvalid
  let configured := email.any (fun value => !value.isEmpty) || phone.any (fun value => !value.isEmpty)
  let identityFingerprint :=
    if configured then some (fingerprint sha256 ("owner:v1\n" ++ email.getD "" ++ "\n" ++ phone.getD "")) else none
  return ⟨configured, identityFingerprint⟩

/-- `missing`. -/
def missing (provider : AdminProvider) : AdminConnection := ⟨provider, false, none, none, .missing⟩

/-- `connection_from_row`. -/
def connectionFromRow (sha256 : List UInt8 → List UInt8) (observedAt : OffsetDateTime) (row : OAuthCredentialRow) :
    StoreResult AdminConnection := do
  let provider ← parseName [.google, .outlook] AdminProvider.name projectionInvalid row.provider
  let parsed ← transpose (fun value => okOr (parseTimestamp value) projectionInvalid) row.expiresAt
  let status := if parsed.any (fun value => decide (value.unixNanos ≤ observedAt.unixNanos)) then
    AdminConnectionStatus.expired else .connected
  let expiresAt ← transpose (fun value => okOr (timestamp value) projectionInvalid) parsed
  return ⟨provider, true, some (fingerprint sha256 ("account:v1\n" ++ provider.name ++ "\n" ++ row.accountId)),
    expiresAt, status⟩

/-- Puts a connection in the place of its provider's missing one, or at the end. -/
def placeConnection (connections : List AdminConnection) (row : AdminConnection) : List AdminConnection :=
  match connections.findIdx? fun value => decide (value.provider = row.provider) && !value.configured with
  | some position => connections.set position row
  | none => connections ++ [row]

/-- `SELECT … WHERE provider = ?1 ORDER BY account_id ASC, id ASC LIMIT ?2`; the table is in the order of its ids. -/
def credentialsOf (provider : AdminProvider) (t : List OAuthCredentialRow) : List OAuthCredentialRow :=
  ((t.filter fun row => row.provider == provider.name).insertionSort fun row later =>
    row.accountId ≤ later.accountId).take (limit / 2)

/-- The order of the connections: by provider, then by the fingerprint of the account, a missing one first. -/
def connectionOrder (left right : AdminConnection) : Bool :=
  match left.provider, right.provider with
  | .google, .outlook => true
  | .outlook, .google => false
  | _, _ =>
    match left.accountFingerprint, right.accountFingerprint with
    | none, _ => true
    | some _, none => false
    | some left, some right => decide (left ≤ right)

/-- `read_connections`. -/
def readConnections (sha256 : List UInt8 → List UInt8) (observedAt : OffsetDateTime) (t : List OAuthCredentialRow) :
    StoreResult (List AdminConnection) := do
  let google ← (credentialsOf .google t).mapM (connectionFromRow sha256 observedAt)
  let outlook ← (credentialsOf .outlook t).mapM (connectionFromRow sha256 observedAt)
  let connections := (google ++ outlook).foldl placeConnection [missing .google, missing .outlook]
  let unknown := t.find? fun row => !(["google", "outlook"].contains row.provider)
  require (unknown = none) projectionInvalid
  return connections.insertionSort fun left right => connectionOrder left right = true

/-- Whether the drafts of a proposal are one appointment draft. -/
def isAppointment (appointmentDraftId ownerTaskDraftId : Option ℤ) : Bool :=
  match appointmentDraftId, ownerTaskDraftId with
  | some id, none => decide (0 < id)
  | _, _ => false

/-- `proposal_from_row`, of a proposal and the appointment draft that is joined to it. -/
def proposalFromRow (row : ProposalStoredRow) (draft : Option AppointmentStoredRow) : StoreResult AdminProposal := do
  require (1 ≤ row.id ∧ isAppointment row.appointmentDraftId row.ownerTaskDraftId = true) projectionInvalid
  let state ← parseName [.pending, .accepted, .declined, .expired] AdminProposalState.name projectionInvalid row.state
  let draft ← okOr draft projectionInvalid
  let kind ← parseName [.callback, .meeting] AdminAppointmentKind.name projectionInvalid draft.kind
  let startsAt ← showTimestamp draft.startsAt
  let endsAt ← showTimestamp draft.endsAt
  let createdAt ← showTimestamp row.createdAt
  let updatedAt ← showTimestamp row.updatedAt
  return ⟨row.id, state, kind, startsAt, endsAt, createdAt, updatedAt⟩

/-- `… ORDER BY p.id ASC LIMIT ?1`. -/
def firstProposals (db : Database) : List ProposalStoredRow :=
  (db.proposals.insertionSort fun row later => row.id ≤ later.id).take limit

/-- `read_proposals`. -/
def readProposals (db : Database) : StoreResult (List AdminProposal) :=
  (firstProposals db).mapM fun row =>
    proposalFromRow row (row.appointmentDraftId.bind fun id => Table.byRowid id db.appointmentDrafts)

/-- The event types that `audit_event_from_row` knows. -/
def knownEvents : List String :=
  ["message_recorded", "request_submitted", "owner_task_submitted", "proposal_created", "proposal_accepted",
    "proposal_declined", "proposal_expired", "proposal_promoted", "notification_enqueued", "notification_sent",
    "notification_retry_scheduled", "provider_cursor_advanced"]

/-- `audit_event_from_row`. -/
def auditEventFromRow (row : AuditEventStoredRow) : StoreResult (ℤ × String × String) := do
  require (1 ≤ row.id) projectionInvalid
  require (row.eventType ∈ knownEvents) projectionInvalid
  let occurredAt ← showTimestamp row.occurredAt
  return (row.id, row.eventType, occurredAt)

/-- `read_failures`. -/
def readFailures (t : List AuditEventStoredRow) : StoreResult (List AdminFailure) := do
  let _ ← ((t.insertionSort fun row later => later.id ≤ row.id).take limit).mapM auditEventFromRow
  let retried := t.filter fun row => row.eventType == "notification_retry_scheduled"
  let rows ← ((retried.insertionSort fun row later => row.id ≤ later.id).take limit).mapM auditEventFromRow
  return (rows.filter fun row => row.2.1 == "notification_retry_scheduled").map fun row =>
    ⟨row.1, .dependency, row.2.2, true⟩

/-- The tables that the readers read. -/
structure AdminTables where
  configuration : Option ConfigurationRow
  oauthCredentials : List OAuthCredentialRow
  database : Database

/-- `PaAdminStore::read_snapshot_at`. -/
def readSnapshotAt {υ : Type} (timezones : Timezones) (chrono : SecondChrono υ) (sha256 : List UInt8 → List UInt8)
    (observedAt : OffsetDateTime) (t : AdminTables) : StoreResult AdminSnapshot := do
  let owner ← readOwner sha256 t.configuration
  let config ← readConfig timezones chrono t.configuration
  let connections ← readConnections sha256 observedAt t.oauthCredentials
  let proposals ← readProposals t.database
  let failures ← readFailures t.database.auditEvents
  return ⟨owner, config, connections, proposals, failures⟩

/-- `PaAdminStore::read_snapshot`. -/
def readSnapshot {υ : Type} (timezones : Timezones) (chrono : SecondChrono υ) (sha256 : List UInt8 → List UInt8)
    (now : SystemTime) (t : AdminTables) : StoreResult AdminSnapshot :=
  readSnapshotAt timezones chrono sha256 now.instant t

/-! ### What the decoders accept -/

theorem AdminProvider.parse_eq_ok_iff {value : String} {p : AdminProvider} :
    parseName [.google, .outlook] AdminProvider.name projectionInvalid value = .ok p ↔ value = p.name :=
  parseName_eq_ok_iff (by intro b; cases b <;> decide) (by decide)

theorem AdminProposalState.parse_eq_ok_iff {value : String} {s : AdminProposalState} :
    parseName [.pending, .accepted, .declined, .expired] AdminProposalState.name projectionInvalid value = .ok s ↔
      value = s.name :=
  parseName_eq_ok_iff (by intro b; cases b <;> decide) (by decide)

theorem AdminAppointmentKind.parse_eq_ok_iff {value : String} {k : AdminAppointmentKind} :
    parseName [.callback, .meeting] AdminAppointmentKind.name projectionInvalid value = .ok k ↔ value = k.name :=
  parseName_eq_ok_iff (by intro b; cases b <;> decide) (by decide)

/-- A row of a provider is accepted if its expiry is shown. -/
theorem connectionFromRow_eq_ok_iff {sha256 : List UInt8 → List UInt8} {observedAt : OffsetDateTime}
    {row : OAuthCredentialRow} {provider : AdminProvider} (hprovider : row.provider = provider.name) :
    (∃ connection, connectionFromRow sha256 observedAt row = .ok connection) ↔
      ∀ value, row.expiresAt = some value → ∃ text, showTimestamp value = .ok text := by
  have hread := AdminProvider.parse_eq_ok_iff.mpr hprovider
  rw [connectionFromRow, hread, ok_bind]
  cases hexpires : row.expiresAt with
  | none => simp
  | some value =>
    simp only [showTimestamp, okOr_eq_ok_iff, Option.some.injEq, forall_eq']
    cases hparse : parseTimestamp value with
    | none => simp [transpose, Except.map, hparse]
    | some t => cases htext : timestamp t <;> simp [transpose, Except.map, hparse, htext]

/-- What a draft that is read holds of its kind and of its times. -/
theorem decodeAppointmentRow_times {d : AppointmentStoredRow} {s : StoredAppointmentDraft}
    (h : decodeAppointmentRow d = .ok s) :
    d.kind = appointmentKindStorageName s.draft.kind ∧ parse d.startsAt = some s.draft.startsAt ∧
      ∃ t, parse d.endsAt = some t ∧ t.toUtc = s.draft.endsAt.toUtc := by
  simp only [decodeAppointmentRow, bind_eq_ok_iff, replaceError_eq_ok_iff, require_eq_ok_iff, parseOffsetDatetime,
    okOr_eq_ok_iff, parseAppointmentKind_eq_ok_iff, pure_eq_ok, Except.ok.injEq] at h
  obtain ⟨-, -, sourceId, -, key, -, quoteId, -, kind, hkind, startsAt, hstarts, endsAt, hends, included, -, email, -,
    caller, -, -, hsame, rfl⟩ := h
  exact ⟨hkind, hstarts, endsAt, hends, congrArg (fun n => (⟨n, 0⟩ : OffsetDateTime)) hsame.symm⟩

/-- Whether a draft's times are in the years 0 to 9999 of UTC. -/
def InUtcYears (draft : AppointmentDraft) : Prop :=
  draft.startsAt.toUtc.YearWritable ∧ draft.endsAt.toUtc.YearWritable

instance (draft : AppointmentDraft) : Decidable (InUtcYears draft) := inferInstanceAs (Decidable (_ ∧ _))

/-- **Which proposals are accepted**: those from an appointment draft whose times can be shown. -/
theorem proposalFromRow_eq_ok_iff {row : ProposalStoredRow} {p : StoredProposal} {d : AppointmentStoredRow}
    {s : StoredAppointmentDraft} (hrow : decodeProposalRow row = .ok p)
    (hcreated : ∃ clock, row.createdAt = currentTimestamp clock)
    (hupdated : ∃ clock, row.updatedAt = currentTimestamp clock) (hdraft : row.appointmentDraftId = some d.id)
    (hd : decodeAppointmentRow d = .ok s) :
    (∃ proposal, proposalFromRow row (some d) = .ok proposal) ↔ InUtcYears s.draft := by
  obtain ⟨hid, -, -, -, happointment, howner, hstate⟩ := decodeProposalRow_eq_ok hrow
  obtain ⟨hdid, -⟩ := decodeAppointmentRow_eq_ok hd
  obtain ⟨hkind, hstarts, t, hends, hutc⟩ := decodeAppointmentRow_times hd
  obtain ⟨state, hstate⟩ : ∃ state : AdminProposalState, row.state = state.name := by
    rw [hstate]
    cases p.state with
    | pending => exact ⟨.pending, rfl⟩
    | accepted => exact ⟨.accepted, rfl⟩
    | declined => exact ⟨.declined, rfl⟩
    | expired => exact ⟨.expired, rfl⟩
  obtain ⟨kind, hkind⟩ : ∃ kind : AdminAppointmentKind, d.kind = kind.name := by
    rw [hkind]
    cases s.draft.kind with
    | callback => exact ⟨.callback, rfl⟩
    | meeting => exact ⟨.meeting, rfl⟩
  have hsource : isAppointment row.appointmentDraftId row.ownerTaskDraftId = true := by
    rw [howner, hdraft]
    cases hs : p.source with
    | appointmentDraft id => exact decide_eq_true hdid
    | ownerTaskDraft id =>
      rw [happointment, hs] at hdraft
      cases hdraft
  obtain ⟨clock, hcreated⟩ := hcreated
  obtain ⟨clock', hupdated⟩ := hupdated
  obtain ⟨createdAt, hcreatedAt⟩ := showTimestamp_currentTimestamp clock
  obtain ⟨updatedAt, hupdatedAt⟩ := showTimestamp_currentTimestamp clock'
  rw [← hcreated] at hcreatedAt
  rw [← hupdated] at hupdatedAt
  rw [InUtcYears, ← hutc, ← showTimestamp_of_parse hstarts, ← showTimestamp_of_parse hends, proposalFromRow,
    require_of (show 1 ≤ row.id ∧ _ from ⟨hid, hsource⟩), AdminProposalState.parse_eq_ok_iff.mpr hstate, ok_bind, ok_bind,
    okOr_some, ok_bind, AdminAppointmentKind.parse_eq_ok_iff.mpr hkind, ok_bind, hcreatedAt, hupdatedAt]
  simp only [bind_eq_ok_iff, ok_bind, pure_eq_ok, Except.ok.injEq]
  constructor
  · rintro ⟨_, startsAt, hstartsAt, endsAt, hendsAt, -⟩
    exact ⟨⟨startsAt, hstartsAt⟩, ⟨endsAt, hendsAt⟩⟩
  · rintro ⟨⟨startsAt, hstartsAt⟩, ⟨endsAt, hendsAt⟩⟩
    exact ⟨_, startsAt, hstartsAt, endsAt, hendsAt, rfl⟩

/-- A proposal from an owner task is not accepted. -/
theorem proposalFromRow_ownerTask {row : ProposalStoredRow} (h : row.appointmentDraftId = none)
    (draft : Option AppointmentStoredRow) : ∀ proposal, proposalFromRow row draft ≠ .ok proposal := by
  intro proposal hproposal
  obtain ⟨_, hrequired, -⟩ := bind_eq_ok_iff.mp hproposal
  have hsource := (require_eq_ok_iff.mp hrequired).2
  rw [h] at hsource
  cases hsource

/-- **An audit event that the store reads is accepted.** -/
theorem auditEventFromRow_of_decodes {row : AuditEventStoredRow} {e : StoredAuditEvent}
    (h : decodeAuditEventRow row = .ok e) : ∃ event, auditEventFromRow row = .ok event := by
  simp only [decodeAuditEventRow, bind_eq_ok_iff, replaceError_eq_ok_iff, require_eq_ok_iff,
    AuditEventType.fromStorage_eq_ok_iff] at h
  obtain ⟨-, ⟨hid, -⟩, key, -, eventType, htype, entityType, -, entityId, -, occurredAt, hoccurred, -⟩ := h
  obtain ⟨hutc, hformat⟩ := parseAuditTimestamp_eq_ok hoccurred
  obtain ⟨text, htext⟩ := showTimestamp_of_format hutc hformat
  have hknown : row.eventType ∈ knownEvents := by
    rw [htype]
    cases eventType <;> decide
  exact ⟨_, bind_eq_ok_iff.mpr ⟨(), require_of hid _, bind_eq_ok_iff.mpr ⟨(), require_of hknown _,
    bind_eq_ok_iff.mpr ⟨text, htext, rfl⟩⟩⟩⟩

end AgentVoice.Admin
