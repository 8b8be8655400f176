import AgentVoice.Callers.CallerId
import Mathlib.Logic.Function.Basic

/-!
# The phone book

The records of `src/phonebook.rs`, the updates of a record, and the decision whether an inbound call may proceed. The
clock is read where the source reads it. A record is under the key of its caller; two policy entries are under keys of
their own.
-/

namespace AgentVoice.Callers

open AgentVoice.Foundations

/-- `CallerRecord`. -/
structure CallerRecord where
  callerId : String
  firstSeenAt : String
  lastSeenAt : String
  callCount : UInt64
  disabled : Bool
  systemEntry : Bool
  firstName : Option String
  lastName : Option String
  email : Option String
  company : Option String
  timezone : Option String
  preferredLanguage : Option String
  notes : List String
  deriving DecidableEq, Repr

/-- `PhoneBook`: the map from keys to records. -/
structure PhoneBook where
  callers : String → Option CallerRecord

/-- `PhoneBook::default`. -/
def PhoneBook.default : PhoneBook := ⟨fun _ => none⟩

/-- The phone book with a record under a key. -/
def PhoneBook.put (key : String) (record : CallerRecord) (book : PhoneBook) : PhoneBook :=
  ⟨Function.update book.callers key (some record)⟩

/-! ### Records -/

/-- `CallerRecord::new`. -/
def CallerRecord.new (callerId now : String) : CallerRecord :=
  ⟨callerId, now, now, 0, false, false, none, none, none, none, none, none, []⟩

/-- `CallerRecord::new_system_entry`. -/
def CallerRecord.newSystemEntry (callerId now : String) (disabled : Bool) (notes : List String) : CallerRecord :=
  ⟨callerId, now, now, 0, disabled, true, none, none, none, none, none, none, notes⟩

/-- `note_mentions_language`. -/
def noteMentionsLanguage (note : String) : Bool :=
  let normalized := lowercaseChars note.toList
  containsChars normalized " language".toList || startsWith normalized "language ".toList ||
    containsChars normalized "speaks ".toList || containsChars normalized "spoke ".toList ||
    containsChars normalized "used ".toList

/-- `CallerRecord::sanitize`. -/
def CallerRecord.sanitize (record : CallerRecord) : CallerRecord :=
  { record with notes := record.notes.filter fun note => !noteMentionsLanguage note }

/-- `CallerUpdate`. -/
structure CallerUpdate where
  firstName : Option String := none
  lastName : Option String := none
  email : Option String := none
  company : Option String := none
  timezone : Option String := none
  preferredLanguage : Option String := none
  notes : List String := []
  deriving DecidableEq, Repr

/-- `merge_option`. -/
def mergeOption (target candidate : Option String) : Option String :=
  match candidate.map trim with
  | some value => if value = "" then target else some value
  | none => target

/-- The body of the loop of `merge_notes`. -/
def mergeNote (target : List String) (note : String) : List String :=
  let trimmed := trim note
  if trimmed = "" then target
  else if target.any fun existing => eqIgnoreCase existing trimmed then target
  else target ++ [trimmed]

/-- `merge_notes`. -/
def mergeNotes (target notes : List String) : List String := notes.foldl mergeNote target

/-! ### The store -/

/-- `touch_caller` on the phone book: the record it returns, and the phone book after it. The count wraps around, as
in a release build. -/
def touchCaller (now callerId : String) (book : PhoneBook) : CallerRecord × PhoneBook :=
  let caller := (book.callers callerId).getD (.new callerId now)
  let caller := { caller with lastSeenAt := now, callCount := caller.callCount + 1 }
  (caller, book.put callerId caller)

/-- `merge_update` on the phone book. The clock is read where the record is new, and at the end. -/
def mergeUpdate (inserted updated callerId : String) (update : CallerUpdate) (book : PhoneBook) :
    CallerRecord × PhoneBook :=
  let caller := (book.callers callerId).getD (.new callerId inserted)
  let caller := { caller with
    firstName := mergeOption caller.firstName update.firstName
    lastName := mergeOption caller.lastName update.lastName
    email := mergeOption caller.email (update.email.map lowercase)
    company := mergeOption caller.company update.company
    timezone := mergeOption caller.timezone update.timezone
    preferredLanguage := mergeOption caller.preferredLanguage update.preferredLanguage
    notes := mergeNotes caller.notes update.notes }
  let caller := { caller.sanitize with lastSeenAt := updated }
  (caller, book.put callerId caller)

/-- `or_insert_with` of a policy entry: whether it was absent, and the phone book with it. -/
def seedEntry (key now : String) (notes : List String) (book : PhoneBook) : Bool × PhoneBook :=
  match book.callers key with
  | some _ => (false, book)
  | none => (true, book.put key (.newSystemEntry key now true notes))

/-- `seed_policy_entries`: whether an entry was absent, and the phone book with both. -/
def seedPolicyEntries (now : String) (book : PhoneBook) : Bool × PhoneBook :=
  let wildcard := seedEntry wildcardCallerId now
    ["System policy entry for callers that do present caller ID but do not have an exact record.",
      "Disabled by default to enforce deny-by-default inbound access."] book
  let noCallerId := seedEntry noCallerIdPolicyKey now
    ["System policy entry for callers that do not present caller ID.",
      "Disabled by default to enforce deny-by-default inbound access."] wildcard.2
  (wildcard.1 || noCallerId.1, noCallerId.2)

/-- `sanitize_phone_book`. -/
def sanitizePhoneBook (book : PhoneBook) : PhoneBook := ⟨fun key => (book.callers key).map CallerRecord.sanitize⟩

/-- `PhoneBookStore::load`, of the phone book that is decoded from the file where there is one. -/
def load (now : String) (file : Option PhoneBook) : PhoneBook :=
  sanitizePhoneBook (seedPolicyEntries now (file.getD .default)).2

/-- `PhoneBookStore::get`. -/
def PhoneBook.get (callerId : String) (book : PhoneBook) : Option CallerRecord :=
  (book.callers callerId).filter fun caller => !caller.systemEntry

/-! ### Inbound access -/

/-- `InboundPolicyMatch`. -/
inductive InboundPolicyMatch where
  | exact
  | wildcard
  | noCallerId
  deriving DecidableEq, Repr

/-- `InboundAccessDecision`. -/
structure InboundAccessDecision where
  callerId : Option String
  allowed : Bool
  matchedPolicy : InboundPolicyMatch
  matchedRecordKey : String
  trackExistingCaller : Bool
  deriving DecidableEq, Repr

/-- Whether a policy entry allows a call. -/
def allowedBy (policy : Option CallerRecord) : Bool := (policy.map fun record => !record.disabled).getD false

/-- The decision for a caller without a caller ID. -/
def noCallerIdDecision (policy : Option CallerRecord) : InboundAccessDecision :=
  ⟨none, allowedBy policy, .noCallerId, noCallerIdPolicyKey, false⟩

/-- `inbound_access_decision`. -/
def inboundAccessDecision (book : PhoneBook) (rawCallerId : String) : InboundAccessDecision :=
  match normalizeCallerId rawCallerId with
  | some callerId =>
    match book.callers callerId with
    | some record => ⟨some callerId, !record.disabled, .exact, callerId, !record.disabled⟩
    | none => ⟨some callerId, allowedBy (book.callers wildcardCallerId), .wildcard, wildcardCallerId, false⟩
  | none => noCallerIdDecision (book.callers noCallerIdPolicyKey)

end AgentVoice.Callers
