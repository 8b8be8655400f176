import AgentVoice.PaService.RecordMessage

/-!
# Recording a message resumes

The four writes of `record_message` leave a prefix of its rows behind when a call is interrupted. A later call with
the same arguments goes on from every such prefix (`Prefix`), and returns the rows that stand.
-/

namespace AgentVoice.PaService

open AgentVoice.Foundations AgentVoice.Domain AgentVoice.Providers AgentVoice.Store

/-! ### What a call writes -/

/-- The owner as a recipient. -/
def ownerRecipient (owner : MailAddress) : NotificationRecipient := ⟨owner.value, owner.valid⟩

theorem new_ownerRecipient (owner : MailAddress) : NotificationRecipient.new owner.value = .ok (ownerRecipient owner) :=
  replaceError_eq_ok_iff.mpr (ConfirmedEmail.confirm_eq_ok_iff.mpr rfl)

/-- A summary is a title. -/
theorem summary_check (summary : MessageSummary) :
    TemplateFields.check ⟨some summary.text, none, none, none, none, none⟩ = .ok () := by
  have htitle : ∀ v ∈ some summary.text, ¬ IsBlank v := by
    rintro v ⟨⟩
    exact summary.valid.1
  refine bind_eq_ok_iff.mpr ⟨(), require_of htitle _, ?_⟩
  simp [require]

namespace MessageArguments

variable (a : MessageArguments)

/-- The notification of a call, to the owner and with the summary as its title. -/
def enqueue (owner : MailAddress) : EnqueueRequest :=
  a.notification (ownerRecipient owner) (.ofFields _ (summary_check a.summary))

/-- The arguments that a call accepts before its first write. -/
structure Valid : Prop where
  identities : validateIdentities a.sourceId = .ok ()
  receivedAt : ∃ t, formatMessageTimestamp (canonicalizeUtcSecond a.receivedAt) = .ok t

variable {a}

theorem validateIdentities_eq_ok_iff {sourceId : String} {u : Unit} :
    validateIdentities sourceId = .ok u ↔ isMachineIdentifier sourceId = true ∧
      isMachineIdentifier (storedSourceId sourceId) = true ∧ isMachineIdentifier (messageKey sourceId) = true ∧
      isMachineIdentifier (providerMessageId sourceId) = true ∧ isMachineIdentifier (notificationKey sourceId) = true ∧
      isMachineIdentifier (messageAuditKey sourceId) = true ∧ isMachineIdentifier (notificationAuditKey sourceId) = true := by
  simp only [validateIdentities, bind_eq_ok_iff, validateMachineIdentifier_eq_ok_iff]
  constructor
  · rintro ⟨_, ⟨h₁, -⟩, _, ⟨h₂, -⟩, _, ⟨h₃, -⟩, _, ⟨h₄, -⟩, _, ⟨h₅, -⟩, _, ⟨h₆, -⟩, _, ⟨h₇, -⟩, -⟩
    exact ⟨h₁, h₂, h₃, h₄, h₅, h₆, h₇⟩
  · rintro ⟨h₁, h₂, h₃, h₄, h₅, h₆, h₇⟩
    exact ⟨_, ⟨h₁, rfl⟩, _, ⟨h₂, rfl⟩, _, ⟨h₃, rfl⟩, _, ⟨h₄, rfl⟩, _, ⟨h₅, rfl⟩, _, ⟨h₆, rfl⟩, _, ⟨h₇, rfl⟩, rfl⟩

theorem Valid.message (h : a.Valid) : a.message.Accepted := by
  obtain ⟨-, hsource, hmessage, hprovider, -⟩ := validateIdentities_eq_ok_iff.mp h.identities
  exact ⟨hmessage, hsource, hprovider, ⟨none, rfl⟩, ⟨none, rfl⟩, h.receivedAt⟩

/-- The instant of the call has a text. -/
theorem Valid.wholeSecondText (h : a.Valid) (field : String) :
    ∃ text, Store.wholeSecondText (canonicalizeUtcSecond a.receivedAt) field = .ok (canonicalizeUtcSecond a.receivedAt, text) := by
  obtain ⟨⟨t, text⟩, ht⟩ := h.receivedAt
  obtain ⟨_, -, htext⟩ := bind_eq_ok_iff.mp ht
  obtain ⟨-, hnanos, hformat⟩ := wholeSecondText_eq_ok_iff.mp htext
  exact ⟨text, wholeSecondText_eq_ok_iff.mpr ⟨rfl, hnanos, hformat⟩⟩

theorem not_isBlank_notificationKey (sourceId : String) : ¬ IsBlank (notificationKey sourceId) :=
  not_isBlank_append (by decide) sourceId

theorem Valid.enqueue (h : a.Valid) (owner : MailAddress) (db : Database) :
    ∃ key availableAt, (a.enqueue owner).Ready db key availableAt := by
  obtain ⟨text, htext⟩ := h.wholeSecondText "available_at"
  obtain ⟨-, -, hformat⟩ := wholeSecondText_eq_ok_iff.mp htext
  obtain ⟨key, hkey⟩ : ∃ key, storeKey (notificationKey a.sourceId) = .ok key :=
    ⟨⟨trim (notificationKey a.sourceId), trim_trim _, fun hb => not_isBlank_notificationKey _ ((isBlank_trim _).mp hb)⟩,
      storeKey_eq_ok_iff.mpr ⟨not_isBlank_notificationKey _, rfl⟩⟩
  refine ⟨key, text, hkey, formatOffsetDatetime_eq_ok_iff.mpr hformat, nofun, nofun, nofun, fun _ => ⟨rfl, rfl⟩, nofun, nofun⟩

theorem Valid.messageAudit (h : a.Valid) {m : ℤ} (hpos : 0 < m) (hfits : m < 2 ^ 63) :
    AuditAccepted (a.messageAudit m) (canonicalizeUtcSecond a.receivedAt) := by
  obtain ⟨-, -, -, -, -, hkey, -⟩ := validateIdentities_eq_ok_iff.mp h.identities
  obtain ⟨text, htext⟩ := h.wholeSecondText "occurred_at"
  exact ⟨hkey, isMachineIdentifier_toString hpos hfits, _, htext⟩

theorem Valid.notificationAudit (h : a.Valid) {n : ℤ} (hpos : 0 < n) (hfits : n < 2 ^ 63) :
    AuditAccepted (a.notificationAudit n) (canonicalizeUtcSecond a.receivedAt) := by
  obtain ⟨-, -, -, -, -, -, hkey⟩ := validateIdentities_eq_ok_iff.mp h.identities
  obtain ⟨text, htext⟩ := h.wholeSecondText "occurred_at"
  exact ⟨hkey, isMachineIdentifier_toString hpos hfits, _, htext⟩

end MessageArguments

/-! ### Durable prefixes -/

/-- The rows of a call that returned `r`. -/
structure Recorded (json : TemplateJson) (owner : MailAddress) (a : MessageArguments) (r : RecordedMessage)
    (db : Database) : Prop where
  message : MessageStands a.message r.messageId db
  notification : NotificationStands json (a.enqueue owner) r.notificationId db
  messageAudit : AuditStands (a.messageAudit r.messageId) (canonicalizeUtcSecond a.receivedAt) db
  notificationAudit : AuditStands (a.notificationAudit r.notificationId) (canonicalizeUtcSecond a.receivedAt) db

/-- The tables hold the rows of the first writes of a call, and none of the others. -/
inductive Prefix (json : TemplateJson) (owner : MailAddress) (a : MessageArguments) (db : Database) : Prop
  | nothing (message : NoMessage a.message db) (notification : NoNotification (a.enqueue owner) db)
      (messageAudit : NoAudit (messageAuditKey a.sourceId) db)
      (notificationAudit : NoAudit (notificationAuditKey a.sourceId) db)
  | message (m : ℤ) (message : MessageStands a.message m db) (notification : NoNotification (a.enqueue owner) db)
      (messageAudit : NoAudit (messageAuditKey a.sourceId) db)
      (notificationAudit : NoAudit (notificationAuditKey a.sourceId) db)
  | notification (m n : ℤ) (message : MessageStands a.message m db)
      (notification : NotificationStands json (a.enqueue owner) n db)
      (messageAudit : NoAudit (messageAuditKey a.sourceId) db)
      (notificationAudit : NoAudit (notificationAuditKey a.sourceId) db)
  | messageAudit (m n : ℤ) (message : MessageStands a.message m db)
      (notification : NotificationStands json (a.enqueue owner) n db)
      (messageAudit : AuditStands (a.messageAudit m) (canonicalizeUtcSecond a.receivedAt) db)
      (notificationAudit : NoAudit (notificationAuditKey a.sourceId) db)
  | complete (r : RecordedMessage) (recorded : Recorded json owner a r db)

section Prefix

variable {env : Environment} {owner : MailAddress} {a : MessageArguments} {db db' : Database}

theorem Recorded.grow {r : RecordedMessage} (hc : Consistent env db') (h : Recorded env.json owner a r db)
    (hgrows : Grows db db') : Recorded env.json owner a r db' :=
  ⟨h.message.grow hgrows, h.notification.grow hc hgrows, h.messageAudit.grow hgrows, h.notificationAudit.grow hgrows⟩

theorem Recorded.unique {r r' : RecordedMessage} (hc : Consistent env db) (h : Recorded env.json owner a r db)
    (h' : Recorded env.json owner a r' db) : r = r' := by
  obtain ⟨m, n⟩ := r
  obtain ⟨m', n'⟩ := r'
  obtain rfl : m = m' := h.message.unique hc h'.message
  obtain rfl : n = n' := h.notification.unique hc h'.notification
  rfl

/-- Deliveries let a prefix be. -/
theorem Prefix.delivered (hc : Consistent env db') (h : Prefix env.json owner a db) (hd : Delivered db db') :
    Prefix env.json owner a db' := by
  have hgrows := hd.grows
  cases h with
  | nothing h₁ h₂ h₃ h₄ => exact .nothing (h₁.delivered hd) (h₂.delivered hd) (h₃.delivered hd) (h₄.delivered hd)
  | message m h₁ h₂ h₃ h₄ => exact .message m (h₁.grow hgrows) (h₂.delivered hd) (h₃.delivered hd) (h₄.delivered hd)
  | notification m n h₁ h₂ h₃ h₄ =>
    exact .notification m n (h₁.grow hgrows) (h₂.grow hc hgrows) (h₃.delivered hd) (h₄.delivered hd)
  | messageAudit m n h₁ h₂ h₃ h₄ =>
    exact .messageAudit m n (h₁.grow hgrows) (h₂.grow hc hgrows) (h₃.grow hgrows) (h₄.delivered hd)
  | complete r hr => exact .complete r (hr.grow hc hgrows)

/-! Each write takes a prefix to a prefix: it finds its row, or it is the next write; the last one completes it. -/

theorem Prefix.recordMessage (h : Prefix env.json owner a db) {m : ℤ} (hm : MessageStands a.message m db')
    (hwrites : db' = db ∨ NoMessage a.message db ∧ ∃ row, db' = { db with messages := db.messages ++ [row] }) :
    Prefix env.json owner a db' := by
  rcases hwrites with rfl | ⟨hnone, row, rfl⟩
  · exact h
  · cases h with
    | nothing h₁ h₂ h₃ h₄ => exact .message m hm h₂ h₃ h₄
    | message _ h₁ => exact absurd hnone h₁.not_noMessage
    | notification _ _ h₁ => exact absurd hnone h₁.not_noMessage
    | messageAudit _ _ h₁ => exact absurd hnone h₁.not_noMessage
    | complete _ hr => exact absurd hnone hr.message.not_noMessage

theorem Prefix.enqueueNotification (h : Prefix env.json owner a db) {m n : ℤ} (hm : MessageStands a.message m db)
    (hn : NotificationStands env.json (a.enqueue owner) n db')
    (hwrites : db' = db ∨ NoNotification (a.enqueue owner) db ∧ ∃ row, db' = db.mapOutbox (· ++ [row])) :
    Prefix env.json owner a db' := by
  rcases hwrites with rfl | ⟨hnone, row, rfl⟩
  · exact h
  · cases h with
    | nothing h₁ => exact absurd h₁ hm.not_noMessage
    | message m' h₁ h₂ h₃ h₄ => exact .notification m' n (h₁.grow (.outbox_append db row)) hn h₃ h₄
    | notification _ _ _ h₂ => exact absurd hnone h₂.not_noNotification
    | messageAudit _ _ _ h₂ => exact absurd hnone h₂.not_noNotification
    | complete _ hr => exact absurd hnone hr.notification.not_noNotification

theorem messageAuditKey_ne_notificationAuditKey (s t : String) : messageAuditKey s ≠ notificationAuditKey t :=
  append_ne_append (p := "pa-voice-message-recorded-audit-") (q := "pa-voice-notification-enqueued-audit-")
    (by decide +kernel) (by decide +kernel) s t

theorem Prefix.appendMessageAudit (hc : Consistent env db) (hc' : Consistent env db') (h : Prefix env.json owner a db)
    {m n : ℤ} (hm : MessageStands a.message m db) (hn : NotificationStands env.json (a.enqueue owner) n db)
    (haudit : AuditStands (a.messageAudit m) (canonicalizeUtcSecond a.receivedAt) db')
    (hwrites : db' = db ∨ NoAudit (messageAuditKey a.sourceId) db ∧ ∃ row : AuditEventStoredRow,
      row.idempotencyKey = messageAuditKey a.sourceId ∧ db' = { db with auditEvents := db.auditEvents ++ [row] }) :
    Prefix env.json owner a db' := by
  rcases hwrites with rfl | ⟨hnone, row, hrow, rfl⟩
  · exact h
  · have hgrows := Grows.auditEvents_append db row
    cases h with
    | nothing h₁ => exact absurd h₁ hm.not_noMessage
    | message _ _ h₂ => exact absurd h₂ hn.not_noNotification
    | notification m' n' h₁ h₂ h₃ h₄ =>
      obtain rfl := hm.unique hc h₁
      refine .messageAudit m n' (h₁.grow hgrows) (h₂.grow hc' hgrows) haudit fun r hr => ?_
      rcases List.mem_append.mp hr with hr | hr
      · exact h₄ r hr
      · obtain rfl := List.mem_singleton.mp hr
        exact hrow ▸ messageAuditKey_ne_notificationAuditKey a.sourceId a.sourceId
    | messageAudit _ _ _ _ h₃ => exact absurd hnone h₃.not_noAudit
    | complete _ hr => exact absurd hnone hr.messageAudit.not_noAudit

/-! Before each write of a call, its row stands or no row has its identities. -/

theorem Prefix.message_cases (h : Prefix env.json owner a db) :
    NoMessage a.message db ∨ ∃ m, MessageStands a.message m db := by
  cases h with
  | nothing h₁ => exact Or.inl h₁
  | message m h₁ => exact Or.inr ⟨m, h₁⟩
  | notification m _ h₁ => exact Or.inr ⟨m, h₁⟩
  | messageAudit m _ h₁ => exact Or.inr ⟨m, h₁⟩
  | complete r hr => exact Or.inr ⟨_, hr.message⟩

theorem Prefix.notification_cases (h : Prefix env.json owner a db) :
    NoNotification (a.enqueue owner) db ∨ ∃ n, NotificationStands env.json (a.enqueue owner) n db := by
  cases h with
  | nothing _ h₂ => exact Or.inl h₂
  | message _ _ h₂ => exact Or.inl h₂
  | notification _ n _ h₂ => exact Or.inr ⟨n, h₂⟩
  | messageAudit _ n _ h₂ => exact Or.inr ⟨n, h₂⟩
  | complete r hr => exact Or.inr ⟨_, hr.notification⟩

theorem Prefix.messageAudit_cases (hc : Consistent env db) (h : Prefix env.json owner a db) {m : ℤ}
    (hm : MessageStands a.message m db) : NoAudit (messageAuditKey a.sourceId) db ∨
      AuditStands (a.messageAudit m) (canonicalizeUtcSecond a.receivedAt) db := by
  cases h with
  | nothing _ _ h₃ => exact Or.inl h₃
  | message _ _ _ h₃ => exact Or.inl h₃
  | notification _ _ _ _ h₃ => exact Or.inl h₃
  | messageAudit _ _ h₁ _ h₃ => exact Or.inr (hm.unique hc h₁ ▸ h₃)
  | complete _ hr => exact Or.inr (hm.unique hc hr.message ▸ hr.messageAudit)

theorem Prefix.notificationAudit_cases (hc : Consistent env db) (h : Prefix env.json owner a db) {n : ℤ}
    (hn : NotificationStands env.json (a.enqueue owner) n db) : NoAudit (notificationAuditKey a.sourceId) db ∨
      AuditStands (a.notificationAudit n) (canonicalizeUtcSecond a.receivedAt) db := by
  cases h with
  | nothing _ _ _ h₄ => exact Or.inl h₄
  | message _ _ _ _ h₄ => exact Or.inl h₄
  | notification _ _ _ _ _ h₄ => exact Or.inl h₄
  | messageAudit _ _ _ _ _ h₄ => exact Or.inl h₄
  | complete _ hr => exact Or.inr (hn.unique hc hr.notification ▸ hr.notificationAudit)

end Prefix

/-! ### Attempts -/

/-- What surrounds a call: other calls of the store. The call asks nothing. -/
def storeSurroundings (env : Environment) : Saga.Surroundings Command Empty Database Unit Empty Empty := ⟨step env, nofun⟩

/-- What may happen around a call: workers deliver notifications, and calls of the store fail where `faulty`. -/
def recording (env : Environment) (faulty : Prop) (stops : Database → Prop) :
    Saga.Setting SystemTime StoreError Database Empty Empty Command Empty Unit where
  surroundings := storeSurroundings env
  allowed
    | .interfere c => c.isDelivery = true
    | .fail _ => faulty
    | _ => True
  asks question := nomatch question
  stops db _ := stops db

/-- The ids of the next rows are 64-bit. -/
def HasRoom (db : Database) : Prop :=
  Table.nextRowid db.messages < 2 ^ 63 ∧ Table.nextRowid db.notificationOutbox < 2 ^ 63

/-- What holds from the start of a call to its end; the tables are a prefix where they were one before. -/
structure Underway (env : Environment) (owner : MailAddress) (a : MessageArguments) (resumed : Prop)
    (start db : Database) : Prop where
  reachable : Reachable env db
  grows : Grows start db
  isPrefix : resumed → Prefix env.json owner a db

section Attempts

variable {env : Environment} {owner : MailAddress} {a : MessageArguments} {resumed faulty : Prop} {start db db' : Database}

theorem Underway.call (h : Underway env owner a resumed start db) {c : Command} {α : Type}
    {t : Tx StoreError Database α} {r : α} (hc : c.transaction env = t.discard) (hrun : t.run db = .ok (r, db'))
    (hgrows : Grows db db') (hkeeps : Consistent env db → Consistent env db' → Prefix env.json owner a db →
      Prefix env.json owner a db') : Underway env owner a resumed start db' := by
  have hreachable := h.reachable.call hc hrun
  exact ⟨hreachable, h.grows.trans hgrows,
    fun hresumed => hkeeps h.reachable.consistent hreachable.consistent (h.isPrefix hresumed)⟩

theorem Underway.delivered (h : Underway env owner a resumed start db) {c : Command} (hc : c.isDelivery = true) :
    Underway env owner a resumed start (step env c db) := by
  have hreachable : Reachable env (step env c db) := h.reachable.run [c]
  have hdelivered := step_delivered h.reachable.consistent hc
  exact ⟨hreachable, h.grows.trans hdelivered.grows,
    fun hresumed => (h.isPrefix hresumed).delivered hreachable.consistent hdelivered⟩

theorem Underway.stable {Q : Database → Prop}
    (hQ : ∀ db db', Consistent env db' → Delivered db db' → Q db → Q db') :
    Saga.Stable (recording env faulty (Underway env owner a resumed start))
      fun db _ => Underway env owner a resumed start db ∧ Q db where
  interfere := by
    rintro c db - hc ⟨hunderway, hq⟩
    have hnext := hunderway.delivered hc
    exact ⟨hnext, hQ _ _ hnext.reachable.consistent (step_delivered hunderway.reachable.consistent hc) hq⟩
  stops := fun db _ h => h.1

/-- What an attempt promises of its result. -/
def Returns (env : Environment) (owner : MailAddress) (a : MessageArguments) (resumed faulty : Prop) (start : Database) :
    ServiceResult RecordedMessage → Database → Prop
  | .ok r, db => Underway env owner a resumed start db ∧ Recorded env.json owner a r db
  | .error _, db => Underway env owner a resumed start db ∧ (resumed → faulty)

/-- A call of the store that failed although what it writes stands or is free: the store is faulty. -/
theorem Underway.faulty_of_error (h : Underway env owner a resumed start db) {room : Prop}
    (hroom : resumed → faulty ∨ room) {α : Type} {t : Tx StoreError Database α} {e : StoreError}
    (herror : t.run db = .error e)
    (hsucceeds : Prefix env.json owner a db → room → ∃ r db', t.run db = .ok (r, db')) :
    Underway env owner a resumed start db ∧ (resumed → faulty) := by
  refine ⟨h, fun hresumed => ?_⟩
  rcases hroom hresumed with hfaulty | hroom
  · exact hfaulty
  · obtain ⟨r, db', hrun⟩ := hsucceeds (h.isPrefix hresumed) hroom
    cases herror.symm.trans hrun

/-- **The contract of `record_message`**: the rows that a call returns stand; the tables stay a prefix; and a call
that resumes a prefix fails only where the store does. -/
theorem recordMessage_triple (hjson : env.json.RoundTrips) (hvalid : a.Valid) :
    Saga.Triple (recording env faulty (Underway env owner a resumed start))
      (fun db _ => Underway env owner a resumed start db ∧ (resumed → faulty ∨ HasRoom db))
      (recordMessage env.json (some owner) a)
      fun r db _ => Returns env owner a resumed faulty start r db := by
  refine Saga.Triple.ofResult_bind (fun o ho => ?_) nofun
  obtain rfl := Option.some.inj (okOr_eq_ok_iff.mp ho)
  refine Saga.Triple.ofResult_bind (fun _ _ => ?_) fun e he => ?_
  swap
  · rw [hvalid.identities] at he
    cases he
  -- the message
  refine Saga.Triple.store_bind
    (R := fun m db _ => Underway env owner a resumed start db ∧ MessageStands a.message m.id db ∧
      (resumed → faulty ∨ m.id < 2 ^ 63 ∧ Table.nextRowid db.notificationOutbox < 2 ^ 63))
    (Underway.stable fun db db' _ hd hroom hresumed => ?_) ?_ ?_ (fun e db _ hfaulty h => ⟨h.1, fun _ => hfaulty⟩)
    fun m => ?_
  · rw [HasRoom, hd.nextRowid.1, hd.nextRowid.2]
    exact hroom hresumed
  · rintro clock m db db' - - ⟨h, hroom⟩ hrun
    obtain ⟨hm, hle, hwrites⟩ := recordMessage_writes h.reachable.consistent hrun
    have hgrows : Grows db db' := by
      rcases hwrites with rfl | ⟨-, row, rfl⟩
      · exact .refl _
      · exact .messages_append db row
    have houtbox : db'.notificationOutbox = db.notificationOutbox := by
      rcases hwrites with rfl | ⟨-, row, rfl⟩ <;> rfl
    refine ⟨h.call (c := .recordMessage a.message clock) rfl hrun hgrows fun _ _ hprefix =>
      hprefix.recordMessage hm hwrites, hm, fun hresumed => (hroom hresumed).imp_right fun hroom => ?_⟩
    exact ⟨hle.trans_lt hroom.1, houtbox ▸ hroom.2⟩
  · rintro clock e db - - ⟨h, hroom⟩ herror
    refine h.faulty_of_error hroom herror fun hprefix _ => ?_
    rcases hprefix.message_cases with hnone | ⟨m, hm⟩
    · obtain ⟨row, hrun, -⟩ := recordMessage_run_fresh hvalid.message hnone clock
      exact ⟨_, _, hrun⟩
    · obtain ⟨m', hrun, -⟩ := recordMessage_run_stands h.reachable.consistent hvalid.message hm clock
      exact ⟨_, _, hrun⟩
  -- the notification
  rw [new_ownerRecipient, NotificationTemplateData.new_of_check (summary_check a.summary)]
  refine Saga.Triple.ofResult_bind (fun recipient hrecipient => ?_) nofun
  obtain rfl := Except.ok.inj hrecipient
  refine Saga.Triple.ofResult_bind (fun template htemplate => ?_) nofun
  obtain rfl := Except.ok.inj htemplate
  refine Saga.Triple.store_bind
    (R := fun n db _ => Underway env owner a resumed start db ∧ MessageStands a.message m.id db ∧
      NotificationStands env.json (a.enqueue owner) n.id db ∧ (resumed → faulty ∨ m.id < 2 ^ 63 ∧ n.id < 2 ^ 63))
    (Underway.stable fun db db' _ hd ⟨hm, hroom⟩ => ?_) ?_ ?_ (fun e db _ hfaulty h => ⟨h.1, fun _ => hfaulty⟩)
    fun n => ?_
  · rw [hd.nextRowid.2]
    exact ⟨hm.grow hd.grows, hroom⟩
  · rintro clock n db db' - - ⟨h, hm, hroom⟩ hrun
    obtain ⟨hn, hle, hwrites⟩ := enqueueNotification_writes hjson hrun
    have hgrows : Grows db db' := by
      rcases hwrites with rfl | ⟨-, row, rfl⟩
      · exact .refl _
      · exact .outbox_append db row
    refine ⟨h.call (c := .enqueueNotification (a.enqueue owner) clock) rfl hrun hgrows fun _ _ hprefix =>
      hprefix.enqueueNotification hm hn hwrites, hm.grow hgrows, hn, fun hresumed => (hroom hresumed).imp_right fun hroom => ?_⟩
    exact ⟨hroom.1, hle.trans_lt hroom.2⟩
  · rintro clock e db - - ⟨h, hm, hroom⟩ herror
    refine h.faulty_of_error hroom herror fun hprefix _ => ?_
    obtain ⟨key, availableAt, hready⟩ := hvalid.enqueue owner db
    rcases hprefix.notification_cases with hnone | ⟨n, hn⟩
    · obtain ⟨_, row, hrun, -⟩ := enqueueNotification_run_fresh hjson hready hnone clock
      exact ⟨_, _, hrun⟩
    · obtain ⟨n', hrun, -⟩ := enqueueNotification_run_stands h.reachable.consistent hready hn clock
      exact ⟨_, _, hrun⟩
  -- the audit event of the message
  refine Saga.Triple.store_bind
    (R := fun _ db _ => Underway env owner a resumed start db ∧ MessageStands a.message m.id db ∧
      NotificationStands env.json (a.enqueue owner) n.id db ∧
      AuditStands (a.messageAudit m.id) (canonicalizeUtcSecond a.receivedAt) db ∧
      (resumed → faulty ∨ m.id < 2 ^ 63 ∧ n.id < 2 ^ 63))
    (Underway.stable fun db db' hc hd ⟨hm, hn, hroom⟩ => ⟨hm.grow hd.grows, hn.grow hc hd.grows, hroom⟩) ?_ ?_
    (fun e db _ hfaulty h => ⟨h.1, fun _ => hfaulty⟩) fun _ => ?_
  · rintro clock e db db' - - ⟨h, hm, hn, hroom⟩ hrun
    obtain ⟨haudit, hwrites⟩ := appendAuditEvent_writes hrun
    have hgrows : Grows db db' := by
      rcases hwrites with rfl | ⟨-, row, -, rfl⟩
      · exact .refl _
      · exact .auditEvents_append db row
    have hnext := h.call (c := .appendAuditEvent _ _ clock) rfl hrun hgrows fun hc hc' hprefix =>
      hprefix.appendMessageAudit hc hc' hm hn haudit hwrites
    exact ⟨hnext, hm.grow hgrows, hn.grow hnext.reachable.consistent hgrows, haudit, hroom⟩
  · rintro clock e db - - ⟨h, hm, hn, hroom⟩ herror
    refine h.faulty_of_error hroom herror fun hprefix hroom => ?_
    have haccepted := hvalid.messageAudit hm.pos hroom.1
    rcases hprefix.messageAudit_cases h.reachable.consistent hm with hnone | haudit
    · obtain ⟨row, e', hrun, -⟩ := appendAuditEvent_run_fresh haccepted hnone clock
      exact ⟨_, _, hrun⟩
    · obtain ⟨e', hrun⟩ := appendAuditEvent_run_stands h.reachable.consistent haccepted haudit clock
      exact ⟨_, _, hrun⟩
  -- the audit event of the notification
  refine Saga.Triple.store_bind
    (R := fun _ db _ => Underway env owner a resumed start db ∧ Recorded env.json owner a ⟨m.id, n.id⟩ db)
    (Underway.stable fun db db' hc hd ⟨hm, hn, haudit, hroom⟩ =>
      ⟨hm.grow hd.grows, hn.grow hc hd.grows, haudit.grow hd.grows, hroom⟩) ?_ ?_
    (fun e db _ hfaulty h => ⟨h.1, fun _ => hfaulty⟩) fun _ => Saga.Triple.pure fun db _ h => h
  · rintro clock e db db' - - ⟨h, hm, hn, haudit, -⟩ hrun
    obtain ⟨haudit', hwrites⟩ := appendAuditEvent_writes hrun
    have hgrows : Grows db db' := by
      rcases hwrites with rfl | ⟨-, row, -, rfl⟩
      · exact .refl _
      · exact .auditEvents_append db row
    have hc' := (h.reachable.call (c := .appendAuditEvent _ _ clock) rfl hrun).consistent
    have hrecorded : Recorded env.json owner a ⟨m.id, n.id⟩ db' :=
      ⟨hm.grow hgrows, hn.grow hc' hgrows, haudit.grow hgrows, haudit'⟩
    exact ⟨h.call (c := .appendAuditEvent _ _ clock) rfl hrun hgrows fun _ _ _ => .complete _ hrecorded, hrecorded⟩
  · rintro clock e db - - ⟨h, hm, hn, haudit, hroom⟩ herror
    refine h.faulty_of_error hroom herror fun hprefix hroom => ?_
    have haccepted := hvalid.notificationAudit hn.pos hroom.2
    rcases hprefix.notificationAudit_cases h.reachable.consistent hn with hnone | haudit'
    · obtain ⟨row, e', hrun, -⟩ := appendAuditEvent_run_fresh haccepted hnone clock
      exact ⟨_, _, hrun⟩
    · obtain ⟨e', hrun⟩ := appendAuditEvent_run_stands h.reachable.consistent haccepted haudit' clock
      exact ⟨_, _, hrun⟩

/-- What deliveries alone lead to. -/
def Deliveries (env : Environment) : Database → Database → Prop :=
  Relation.ReflTransGen fun db db' => ∃ c : Command, c.isDelivery = true ∧ db' = step env c db

/-- **A call that fails its validation writes nothing.** -/
theorem recordMessage_rejected {owner : Option MailAddress} (hinvalid : ¬ (owner.isSome = true ∧ a.Valid)) :
    Saga.Triple (recording env faulty (Deliveries env start)) (fun db _ => Deliveries env start db)
      (recordMessage env.json owner a) fun r db _ => Deliveries env start db ∧ ∀ recorded, r ≠ .ok recorded := by
  have hstable : Saga.Stable (recording env faulty (Deliveries env start)) fun db (_ : Unit) => Deliveries env start db :=
    ⟨fun c db _ hc h => h.tail ⟨c, hc, rfl⟩, fun _ _ h => h⟩
  refine Saga.Triple.ofResult_bind (fun o ho => ?_) fun e _ db _ h => ⟨h, nofun⟩
  have howner : owner.isSome = true := by
    rw [okOr_eq_ok_iff.mp ho]
    rfl
  refine Saga.Triple.ofResult_bind (fun _ hidentities => ?_) fun e _ db _ h => ⟨h, nofun⟩
  refine Saga.Triple.store_bind (R := fun _ _ _ => False) hstable ?_ (fun _ e db _ _ h _ => ⟨h, nofun⟩)
    (fun e db _ _ h => ⟨h, nofun⟩) fun _ _ _ _ _ h => h.elim
  rintro clock m db db' - - h hrun
  refine hinvalid ⟨howner, ?_, (recordMessage_accepted hrun).receivedAt⟩
  cases hvalid : validateIdentities a.sourceId with
  | ok u => rfl
  | error e =>
    rw [hvalid] at hidentities
    cases hidentities

end Attempts

/-! ### Histories -/

section Histories

variable (env : Environment) (owner : Option MailAddress) (a : MessageArguments)

/-- A turn around a call: a call of the store is made or fails, or a worker delivers notifications. -/
def IsTurn : Saga.Turn SystemTime StoreError Command Empty → Prop
  | .interfere c => c.isDelivery = true
  | _ => True

/-- An attempt to record a message. -/
def attempt (turns : List (Saga.Turn SystemTime StoreError Command Empty)) (db : Database) :
    Saga.Ran Database Unit Empty ServiceError RecordedMessage :=
  Saga.run (storeSurroundings env) turns (recordMessage env.json owner a) db ()

/-- The tables after attempts to record a message, and deliveries between them. -/
def after (episodes : List (Saga.Episode Unit SystemTime StoreError Command Empty)) (db : Database) : Database :=
  (Machine.run (Saga.Episode.step (storeSurroundings env) fun _ => recordMessage env.json owner a) episodes (db, ())).1

/-- The turns of an episode. -/
def IsEpisode : Saga.Episode Unit SystemTime StoreError Command Empty → Prop
  | .attempt _ turns => ∀ t ∈ turns, IsTurn t
  | .interfere c => c.isDelivery = true

/-- One row for each write of a call. -/
structure OneOfEach (db : Database) : Prop where
  message : db.messages.countP (fun row => row.sourceId == storedSourceId a.sourceId) = 1
  notification : db.notificationOutbox.countP (fun row => row.idempotencyKey == notificationKey a.sourceId) = 1
  messageAudit : db.auditEvents.countP (fun row => row.idempotencyKey == messageAuditKey a.sourceId) = 1
  notificationAudit : db.auditEvents.countP (fun row => row.idempotencyKey == notificationAuditKey a.sourceId) = 1

variable {env owner a} {db : Database}

theorem Recorded.oneOfEach {owner : MailAddress} (hvalid : a.Valid) (hc : Consistent env db) {r : RecordedMessage}
    (h : Recorded env.json owner a r db) : OneOfEach a db := by
  obtain ⟨⟨row, hrow, m, hm, -, -, hsource, -⟩, ⟨row', hrow', hkey', -⟩, ⟨row₁, hrow₁, e₁, he₁, hkey₁, -⟩,
    ⟨row₂, hrow₂, e₂, he₂, hkey₂, -⟩⟩ := h
  obtain ⟨-, -, -, -, hkey, -, -⟩ := MessageArguments.validateIdentities_eq_ok_iff.mp hvalid.identities
  refine ⟨Table.countP_eq_one hc.message_source hrow ((decodeMessageRow_eq_ok hm).sourceId.symm.trans hsource),
    Table.countP_eq_one hc.notification_key hrow' (hkey'.trans (trim_of_isMachineIdentifier hkey)),
    Table.countP_eq_one hc.audit_key hrow₁ ?_, Table.countP_eq_one hc.audit_key hrow₂ ?_⟩
  · exact (decodeAuditEventRow_eq_ok he₁).2.1.symm.trans hkey₁
  · exact (decodeAuditEventRow_eq_ok he₂).2.1.symm.trans hkey₂

/-- An attempt keeps its contract; it is faulty where one of its calls fails. -/
theorem attempt_returns {owner : MailAddress} (hjson : env.json.RoundTrips) (hvalid : a.Valid) {resumed : Prop} (faulty : Prop)
    {start : Database} (h : Underway env owner a resumed start db) (hroom : resumed → faulty ∨ HasRoom db)
    {turns : List (Saga.Turn SystemTime StoreError Command Empty)} (hturns : ∀ t ∈ turns, IsTurn t)
    (hfaulty : ∀ e, .fail e ∈ turns → faulty) :
    Underway env owner a resumed start (attempt env (some owner) a turns db).store ∧
      ∀ r, (attempt env (some owner) a turns db).result = some r →
        Returns env owner a resumed faulty start r (attempt env (some owner) a turns db).store := by
  have hallowed : ∀ t ∈ turns, (recording env faulty (Underway env owner a resumed start)).allowed t := by
    intro t ht
    cases t with
    | interfere c => exact hturns _ ht
    | fail e => exact hfaulty e ht
    | call | answer => trivial
  obtain ⟨-, hstops, hreturns⟩ := recordMessage_triple hjson hvalid turns hallowed db () ⟨h, hroom⟩
  refine ⟨?_, hreturns⟩
  cases hresult : (attempt env (some owner) a turns db).result with
  | none => exact hstops hresult
  | some r =>
    have hreturned : Returns env owner a resumed faulty start r (attempt env (some owner) a turns db).store :=
      hreturns r hresult
    cases r with
    | ok r => exact hreturned.1
    | error e => exact hreturned.1

theorem after_underway {owner : MailAddress} (hjson : env.json.RoundTrips) (hvalid : a.Valid) {resumed : Prop}
    {start : Database} (h : Underway env owner a resumed start db)
    {episodes : List (Saga.Episode Unit SystemTime StoreError Command Empty)} (hepisodes : ∀ e ∈ episodes, IsEpisode e) :
    Underway env owner a resumed start (after env (some owner) a episodes db) := by
  refine Saga.Episode.run_invariant (x := recording env True fun _ => True)
    (I := fun db _ => Underway env owner a resumed start db) ?_ (fun c db _ hc h => h.delivered hc) ?_ h
  · intro _ turns hturns db _ h
    refine (attempt_returns hjson hvalid True h (fun _ => Or.inl trivial) (fun t ht => ?_) fun _ _ => trivial).1
    have hallowed := hturns t ht
    cases t with
    | interfere c => exact hallowed
    | call | fail | answer => trivial
  · intro e he
    have hepisode := hepisodes e he
    cases e with
    | interfere c => exact hepisode
    | attempt _ turns =>
      intro t ht
      have hturn := hepisode t ht
      cases t with
      | interfere c => exact hturn
      | call | fail | answer => trivial

/-- A call that returns was accepted. -/
theorem valid_of_returned {turns : List (Saga.Turn SystemTime StoreError Command Empty)} (hturns : ∀ t ∈ turns, IsTurn t)
    {r : RecordedMessage} (h : (attempt env owner a turns db).result = some (.ok r)) : owner.isSome = true ∧ a.Valid := by
  by_contra hinvalid
  have hallowed : ∀ t ∈ turns, (recording env True (Deliveries env db)).allowed t := by
    intro t ht
    have hturn := hturns t ht
    cases t with
    | interfere c => exact hturn
    | call | fail | answer => trivial
  obtain ⟨-, -, hreturns⟩ := recordMessage_rejected hinvalid turns hallowed db () .refl
  exact (hreturns _ h).2 r rfl

/-- From tables that a call may resume. -/
structure Resumes (env : Environment) (owner : MailAddress) (a : MessageArguments) (db : Database) : Prop where
  isPrefix : Prefix env.json owner a db
  keeps : ∀ turns, (∀ t ∈ turns, IsTurn t) → Prefix env.json owner a (attempt env (some owner) a turns db).store
  returns : ∀ turns, (∀ t ∈ turns, IsTurn t) → ∀ r, (attempt env (some owner) a turns db).result = some (.ok r) →
    Recorded env.json owner a r (attempt env (some owner) a turns db).store
  succeeds : HasRoom db → ∀ turns, (∀ t ∈ turns, IsTurn t ∧ ∀ e, t ≠ .fail e) →
    ∀ result, (attempt env (some owner) a turns db).result = some result → ∃ r, result = .ok r

/-- After a call that returned `r`. -/
structure Settled (env : Environment) (owner : Option MailAddress) (a : MessageArguments) (r : RecordedMessage)
    (db : Database) : Prop where
  oneOfEach : OneOfEach a db
  same : ∀ turns, (∀ t ∈ turns, IsTurn t) → ∀ r', (attempt env owner a turns db).result = some (.ok r') → r' = r
  succeeds : HasRoom db → ∀ turns, (∀ t ∈ turns, IsTurn t ∧ ∀ e, t ≠ .fail e) →
    ∀ result, (attempt env owner a turns db).result = some result → result = .ok r

/-- The keys that two sources lead to differ. -/
structure DerivedApart (s t : String) : Prop where
  storedSourceId : storedSourceId s ≠ storedSourceId t
  messageKey : messageKey s ≠ messageKey t
  providerMessageId : providerMessageId s ≠ providerMessageId t
  notificationKey : notificationKey s ≠ notificationKey t
  messageAuditKey : messageAuditKey s ≠ messageAuditKey t
  notificationAuditKey : notificationAuditKey s ≠ notificationAuditKey t

theorem derivedApart {s t : String} (h : s ≠ t) : DerivedApart s t :=
  ⟨fun he => h ((String.append_right_inj _).mp he), fun he => h ((String.append_right_inj _).mp he),
    fun he => h ((String.append_right_inj _).mp he), fun he => h ((String.append_right_inj _).mp he),
    fun he => h ((String.append_right_inj _).mp he), fun he => h ((String.append_right_inj _).mp he)⟩

/-- The keys of one list, of any sources, all differ. A key of a message and one of its audit event may be the same, which
are in different tables, so these two are in different lists. -/
theorem keysApart {key : String → String} (hkey : key ∈ [messageKey, messageAuditKey]) :
    [storedSourceId, key, providerMessageId, notificationKey, notificationAuditKey].Pairwise
      fun f g => ∀ s t, f s ≠ g t := by
  have hfronts : ∀ front ∈ ["pa-voice-message-recorded-", "pa-voice-message-recorded-audit-"],
      ["voice:", front, "pa-voice-provider-message-", "pa-voice-call-summary-notification-",
        "pa-voice-notification-enqueued-audit-"].Pairwise
          fun p q : String => ¬ p.toList <+: q.toList ∧ ¬ q.toList <+: p.toList := by decide +kernel
  have happend : ∀ {fronts : List String},
      (fronts.Pairwise fun p q : String => ¬ p.toList <+: q.toList ∧ ¬ q.toList <+: p.toList) →
        (fronts.map fun front s => front ++ s).Pairwise fun f g : String → String => ∀ s t, f s ≠ g t :=
    fun h => List.pairwise_map.mpr (h.imp fun h => append_ne_append h.1 h.2)
  rcases List.mem_cons.mp hkey with rfl | hkey
  · exact happend (hfronts _ List.mem_cons_self)
  · rw [List.mem_singleton.mp hkey]
    exact happend (hfronts _ (List.mem_cons_of_mem _ List.mem_cons_self))

theorem Underway.start {owner : MailAddress} (resumed : Prop) (hreachable : Reachable env db)
    (h : resumed → Prefix env.json owner a db) : Underway env owner a resumed db db :=
  ⟨hreachable, .refl db, h⟩

theorem Underway.resumes {owner : MailAddress} {start : Database} (hjson : env.json.RoundTrips) (hvalid : a.Valid)
    (h : Underway env owner a True start db) : Resumes env owner a db where
  isPrefix := h.isPrefix trivial
  keeps turns hturns :=
    (attempt_returns hjson hvalid True h (fun _ => Or.inl trivial) hturns fun _ _ => trivial).1.isPrefix trivial
  returns turns hturns r hr :=
    ((attempt_returns hjson hvalid True h (fun _ => Or.inl trivial) hturns fun _ _ => trivial).2 _ hr).2
  succeeds := by
    intro hroom turns hturns result hresult
    have hreturned := (attempt_returns hjson hvalid False h (fun _ => Or.inr hroom)
      (fun t ht => (hturns t ht).1) fun e he => (hturns _ he).2 e rfl).2 _ hresult
    cases result with
    | ok r => exact ⟨r, rfl⟩
    | error e => exact (hreturned.2 trivial).elim

theorem Underway.settled {owner : MailAddress} {start : Database} (hjson : env.json.RoundTrips) (hvalid : a.Valid)
    {r : RecordedMessage} (hr : Recorded env.json owner a r start) (h : Underway env owner a True start db) :
    Settled env (some owner) a r db := by
  have hsame : ∀ turns, (∀ t ∈ turns, IsTurn t) → ∀ r',
      (attempt env (some owner) a turns db).result = some (.ok r') → r' = r := by
    intro turns hturns r' hr'
    obtain ⟨hafter, hrecorded⟩ :=
      (attempt_returns hjson hvalid True h (fun _ => Or.inl trivial) hturns fun _ _ => trivial).2 _ hr'
    have hc := hafter.reachable.consistent
    exact hrecorded.unique hc (hr.grow hc hafter.grows)
  refine ⟨(hr.grow h.reachable.consistent h.grows).oneOfEach hvalid h.reachable.consistent, hsame, ?_⟩
  intro hroom turns hturns result hresult
  obtain ⟨r', rfl⟩ := (h.resumes hjson hvalid).succeeds hroom turns hturns result hresult
  rw [hsame turns (fun t ht => (hturns t ht).1) r' hresult]

/-- **Recording a message resumes.** A call that its validation rejects writes nothing. From any prefix of the rows
of a call, any number of attempts that are interrupted, and deliveries around them, lead to a prefix again, from which
an attempt records the rest unless the store fails. Once an attempt returned, one row of each write stands, and all
later attempts return the same. No two sources share a key in one table, and of the keys of different tables only one of a
message and one of its audit event can be the same. -/
theorem recordMessage_resumes {env : Environment} (hjson : env.json.RoundTrips) {db : Database}
    (hreachable : Reachable env db) :
    (∀ owner a, ¬ (owner.isSome = true ∧ a.Valid) → ∀ turns, (∀ t ∈ turns, IsTurn t) →
      Deliveries env db (attempt env owner a turns db).store ∧
        ∀ r, (attempt env owner a turns db).result ≠ some (.ok r)) ∧
    (∀ (owner : MailAddress) (a : MessageArguments), a.Valid → Prefix env.json owner a db →
      ∀ episodes, (∀ e ∈ episodes, IsEpisode e) → Resumes env owner a (after env (some owner) a episodes db)) ∧
    (∀ owner a turns, (∀ t ∈ turns, IsTurn t) → ∀ r, (attempt env owner a turns db).result = some (.ok r) →
      ∀ episodes, (∀ e ∈ episodes, IsEpisode e) →
        Settled env owner a r (after env owner a episodes (attempt env owner a turns db).store)) ∧
    (∀ s t : String, (s ≠ t → DerivedApart s t) ∧ messageAuditKey s ≠ notificationAuditKey t) ∧
    ∀ key ∈ [messageKey, messageAuditKey],
      [storedSourceId, key, providerMessageId, notificationKey, notificationAuditKey].Pairwise
        fun f g => ∀ s t, f s ≠ g t := by
  refine ⟨?_, ?_, ?_, fun s t => ⟨derivedApart, messageAuditKey_ne_notificationAuditKey s t⟩, fun _ => keysApart⟩
  · intro owner a hinvalid turns hturns
    have hallowed : ∀ t ∈ turns, (recording env True (Deliveries env db)).allowed t := by
      intro t ht
      have hturn := hturns t ht
      cases t with
      | interfere c => exact hturn
      | call | fail | answer => trivial
    obtain ⟨-, hstops, hreturns⟩ := recordMessage_rejected hinvalid turns hallowed db () .refl
    refine ⟨?_, fun r hr => (hreturns _ hr).2 r rfl⟩
    cases hresult : (attempt env owner a turns db).result with
    | none => exact hstops hresult
    | some r => exact (hreturns r hresult).1
  · intro owner a hvalid hprefix episodes hepisodes
    exact (after_underway hjson hvalid (.start _ hreachable fun _ => hprefix) hepisodes).resumes hjson hvalid
  · intro owner? a turns hturns r hr episodes hepisodes
    obtain ⟨howner, hvalid⟩ := valid_of_returned hturns hr
    obtain ⟨owner, rfl⟩ := Option.isSome_iff_exists.mp howner
    obtain ⟨hunderway, hrecorded⟩ := (attempt_returns hjson hvalid True (.start _ hreachable (False.elim ·))
      (fun _ => Or.inl trivial) hturns fun _ _ => trivial).2 _ hr
    have hstart := Underway.start True hunderway.reachable fun _ => .complete r hrecorded
    exact (after_underway hjson hvalid hstart hepisodes).settled hjson hvalid hrecorded

end Histories

/-- A message of a call. -/
def callBack : MessageArguments := ⟨⟨"Call back", by decide⟩, "call-1", newYear.instant⟩

/-- The owner. -/
def theOwner : MailAddress := ⟨"owner@office.example", by decide, by decide⟩

/-- An attempt that stops after its first write, and one whose third write fails. -/
def interruptions : List (Saga.Episode Unit SystemTime StoreError Command Empty) :=
  [.attempt () [.call newYear], .attempt () [.call newYear, .call newYear, .fail .sqlite]]

theorem callBack_valid : callBack.Valid := ⟨by decide +kernel, _, rfl⟩

theorem recordMessage_resumes_callBack :
    Resumes callBackLibraries theOwner callBack (after callBackLibraries (some theOwner) callBack interruptions .empty) ∧
      Settled callBackLibraries (some theOwner) callBack ⟨1, 1⟩ (after callBackLibraries (some theOwner) callBack
        interruptions (attempt callBackLibraries (some theOwner) callBack (List.replicate 4 (.call newYear))
          (after callBackLibraries (some theOwner) callBack interruptions .empty)).store) := by
  have hjson : callBackLibraries.json.RoundTrips := TemplateJson.writing_roundTrips _ _
  have hempty : Reachable callBackLibraries .empty := ⟨[], rfl⟩
  have hinterruptions : ∀ e ∈ interruptions, IsEpisode e := by simp [interruptions, IsEpisode, IsTurn]
  have hreachable : Reachable callBackLibraries (after callBackLibraries (some theOwner) callBack interruptions .empty) :=
    (after_underway hjson callBack_valid (.start _ hempty (False.elim ·)) hinterruptions).reachable
  have hprefix : Prefix callBackLibraries.json theOwner callBack .empty :=
    .nothing (List.forall_mem_nil _) (List.forall_mem_nil _) (List.forall_mem_nil _) (List.forall_mem_nil _)
  have hresult : (attempt callBackLibraries (some theOwner) callBack (List.replicate 4 (.call newYear))
      (after callBackLibraries (some theOwner) callBack interruptions .empty)).result = some (.ok ⟨1, 1⟩) := by
    decide +kernel
  have hresumes := (recordMessage_resumes hjson hempty).2.1 theOwner callBack callBack_valid hprefix interruptions
    hinterruptions
  have hsettled := (recordMessage_resumes hjson hreachable).2.2.1 (some theOwner) callBack _ (by simp [IsTurn]) _ hresult
    interruptions hinterruptions
  exact ⟨hresumes, hsettled⟩

/-- The message of one source may have the key of the audit event of another. -/
theorem messageKey_eq_messageAuditKey : ∃ s t : String, s ≠ t ∧ validateIdentities s = .ok () ∧
    validateIdentities t = .ok () ∧ messageKey s = messageAuditKey t :=
  ⟨"audit-x", "x", by decide, by decide +kernel, by decide +kernel, by decide +kernel⟩

end AgentVoice.PaService
