import AgentVoice.Foundations.Transaction

/-!
# Errors of the store

`StoreError` of `src/pa/store.rs`. The payloads of cryptographic and SQLite failures carry nothing
that the modelled functions look at and are left out.
-/

namespace AgentVoice.Store

/-- `StoreError`. -/
inductive StoreError where
  | emptyDatabaseKey
  | sqlCipherUnavailable
  | unsupportedSchemaVersion (version : Int)
  | invalidInput (field : String)
  | notFound (resource : String)
  | appointmentQuoteNotYetValid
  | appointmentQuoteExpired
  | cursorConflict (resource : String)
  | conflict (resource : String)
  | storedValueInvalid
  | storedRecordInvalid (resource : String)
  | crypto
  | sqlite
  deriving DecidableEq, Repr

/-- `StoreResult<T>`. -/
abbrev StoreResult := Except StoreError

end AgentVoice.Store
