import AgentVoice.Foundations.Result
import AgentVoice.Foundations.Bytes
import AgentVoice.Foundations.Base64Url
import Mathlib.Logic.Function.Basic
import Mathlib.Order.Defs.LinearOrder

/-!
# The start and the callback of an OAuth login

`begin` of `src/pa/oauth_start.rs` draws a state and a PKCE verifier, reserves the state for ten minutes and
purges what has expired; `validate_callback` of `src/pa/oauth_callback.rs` consumes a reserved state and hands out
its verifier. Both work on the map of `InMemoryOAuthStateStore`. URLs, SHA-256 and the addition to an instant are
left to their libraries.
-/

namespace AgentVoice.OAuth

open AgentVoice.Foundations

/-- `OAuthError`. -/
inductive OAuthError where
  | invalidState
  | stateAlreadyUsed
  | stateExpired
  | invalidCode
  | invalidProvider
  | randomnessFailure
  | stateStoreFailure
  | invalidConfiguration
  deriving DecidableEq, Repr

/-- `OAuthResult`. -/
abbrev OAuthResult (α : Type) := Except OAuthError α

/-- The library functions of a login, over instants `τ` and URLs `υ`. -/
structure Libraries (τ υ : Type) [LinearOrder τ] where
  /-- `checked_add_signed(Duration::minutes(10))`. -/
  tenMinutesAfter : τ → Option τ
  lt_tenMinutesAfter : ∀ {now later}, tenMinutesAfter now = some later → now < later
  /-- `Url::query`. -/
  query : υ → Option String
  /-- `Url::fragment`. -/
  fragment : υ → Option String
  /-- `Url::as_str`. -/
  asStr : υ → String
  /-- `Url::query_pairs_mut`, with pairs appended in order. -/
  appendPairs : υ → List (String × String) → υ
  /-- `digest::digest(&digest::SHA256, _)`. -/
  sha256 : List UInt8 → List UInt8

/-! ### The state store -/

section StateStore

variable {τ : Type} [LinearOrder τ]

/-- `StateEntry`. -/
structure StateEntry (τ : Type) where
  verifier : String
  expiresAt : τ
  consumed : Bool
  deriving DecidableEq

/-- `InMemoryOAuthStateStore`: the entry of each state. -/
structure InMemoryOAuthStateStore (τ : Type) where
  entries : String → Option (StateEntry τ)

namespace InMemoryOAuthStateStore

/-- `InMemoryOAuthStateStore::new`. -/
def new : InMemoryOAuthStateStore τ := ⟨fun _ => none⟩

/-- `reserve`. -/
def reserve (state verifier : String) (expiresAt : τ) (store : InMemoryOAuthStateStore τ) :
    OAuthResult (InMemoryOAuthStateStore τ) := do
  require (¬ IsBlank state) .invalidState
  require (¬ IsBlank verifier) .invalidCode
  require (store.entries state = none) .stateAlreadyUsed
  .ok ⟨Function.update store.entries state (some ⟨verifier, expiresAt, false⟩)⟩

/-- `consume`. -/
def consume (state : String) (now : τ) (store : InMemoryOAuthStateStore τ) :
    OAuthResult (String × InMemoryOAuthStateStore τ) := do
  require (¬ IsBlank state) .invalidState
  let entry ← okOr (store.entries state) .invalidState
  require (entry.consumed = false) .stateAlreadyUsed
  require (¬ entry.expiresAt ≤ now) .stateExpired
  -- `mem::take` leaves the empty verifier behind.
  .ok (entry.verifier, ⟨Function.update store.entries state (some ⟨"", entry.expiresAt, true⟩)⟩)

/-- `purge_expired`. -/
def purgeExpired (now : τ) (store : InMemoryOAuthStateStore τ) : InMemoryOAuthStateStore τ :=
  ⟨fun state => (store.entries state).filter fun entry => now < entry.expiresAt⟩

omit [LinearOrder τ] in
theorem reserve_eq_ok_iff {state verifier : String} {expiresAt : τ} {store store' : InMemoryOAuthStateStore τ} :
    reserve state verifier expiresAt store = .ok store' ↔
      ¬ IsBlank state ∧ ¬ IsBlank verifier ∧ store.entries state = none ∧
        store' = ⟨Function.update store.entries state (some ⟨verifier, expiresAt, false⟩)⟩ := by
  simp [reserve, bind_eq_ok_iff, eq_comm (a := store')]

theorem consume_eq_ok_iff {state : String} {now : τ} {store store' : InMemoryOAuthStateStore τ} {verifier : String} :
    consume state now store = .ok (verifier, store') ↔
      ¬ IsBlank state ∧ ∃ expiresAt, store.entries state = some ⟨verifier, expiresAt, false⟩ ∧ now < expiresAt ∧
        store' = ⟨Function.update store.entries state (some ⟨"", expiresAt, true⟩)⟩ := by
  unfold consume
  simp only [bind_eq_ok_iff, require_eq_ok_iff, okOr_eq_ok_iff, exists_const_iff, not_le, Except.ok.injEq,
    Prod.mk.injEq]
  constructor
  · rintro ⟨-, hblank, entry, hentry, -, hfresh, -, hlt, rfl, rfl⟩
    refine ⟨hblank, entry.expiresAt, ?_, hlt, rfl⟩
    rw [hentry, ← hfresh]
  · rintro ⟨hblank, expiresAt, hentry, hlt, rfl⟩
    exact ⟨⟨()⟩, hblank, _, hentry, ⟨()⟩, rfl, ⟨()⟩, hlt, rfl, rfl⟩

theorem purgeExpired_eq_some_iff {store : InMemoryOAuthStateStore τ} {now : τ} {state : String}
    {entry : StateEntry τ} :
    (store.purgeExpired now).entries state = some entry ↔ store.entries state = some entry ∧ now < entry.expiresAt := by
  simp [purgeExpired, Option.filter_eq_some_iff]

end InMemoryOAuthStateStore

end StateStore

/-! ### The start -/

/-- `OAuthProvider`. -/
inductive OAuthProvider where
  | microsoft
  | google
  deriving DecidableEq, Repr

/-- `OAuthProviderConfig`, with the fields a start reads. -/
structure OAuthProviderConfig (υ : Type) where
  clientId : Option String
  authorizeUrl : υ
  scopes : List String
  redirectUri : υ

/-- `oauth_provider_name`. -/
def oauthProviderName : OAuthProvider → String
  | .microsoft => "microsoft"
  | .google => "google"

/-- `oauth_field_path`. -/
def oauthFieldPath (provider : OAuthProvider) (field : String) : String :=
  "agent_api.oauth." ++ oauthProviderName provider ++ "." ++ field

/-- `is_complete_placeholder`: a dollar sign and braces around the rest. -/
def isCompletePlaceholder (value : String) : Bool :=
  let value := trim value
  ['$', Char.ofNat 0x7B].isPrefixOf value.toList && value.toList.getLast? == some (Char.ofNat 0x7D) &&
    3 ≤ byteLength value

/-- `require_client_id`. -/
def requireClientId {υ : Type} (config : OAuthProviderConfig υ) (provider : OAuthProvider) : Except String String :=
  okOr ((config.clientId.map trim).filter fun value => !value.toList.isEmpty && !isCompletePlaceholder value)
    (oauthFieldPath provider "client_id" ++ " must be configured")

/-- The 32 bytes of one call of `fill`. -/
abbrev RandomBytes := { bytes : List UInt8 // bytes.length = 32 }

/-- `SecureRandom`: what its calls give, in order. -/
structure SecureRandom where
  fill : ℕ → OAuthResult RandomBytes

/-- `random_base64url_32`, as the given call of the source. -/
def randomBase64url32 (nonceSource : SecureRandom) (call : ℕ) : OAuthResult String := do
  let bytes ← replaceError (nonceSource.fill call) OAuthError.randomnessFailure
  .ok (Base64Url.encode bytes.val)

/-- `OAuthStart`. -/
structure OAuthStart (υ : Type) where
  state : String
  codeVerifier : String
  authorizeUrl : υ

section Start

variable {τ υ : Type} [LinearOrder τ] (libs : Libraries τ υ)

/-- `build_authorize_url`. -/
def buildAuthorizeUrl (provider : OAuthProvider) (authorizeUrl : υ)
    (clientId redirectUri scope state codeChallenge : String) : υ :=
  libs.appendPairs authorizeUrl
    ([("response_type", "code"), ("client_id", clientId), ("redirect_uri", redirectUri), ("scope", scope),
      ("state", state), ("code_challenge", codeChallenge), ("code_challenge_method", "S256")] ++
      if provider = .google then [("access_type", "offline")] else [])

/-- What `begin` does before it reserves: the login it starts, and when its reservation expires. -/
def prepareStart (provider : OAuthProvider) (config : OAuthProviderConfig υ) (nonceSource : SecureRandom) (now : τ) :
    OAuthResult (OAuthStart υ × τ) := do
  let clientId ← replaceError (requireClientId config provider) OAuthError.invalidConfiguration
  require ((libs.query config.authorizeUrl).isNone ∧ (libs.fragment config.authorizeUrl).isNone) .invalidConfiguration
  require (config.scopes ≠ [] ∧ ∀ scope ∈ config.scopes, ¬ IsBlank scope) .invalidConfiguration
  let expiresAt ← okOr (libs.tenMinutesAfter now) .invalidConfiguration
  let state ← randomBase64url32 nonceSource 0
  let codeVerifier ← randomBase64url32 nonceSource 1
  let codeChallenge := Base64Url.encode (libs.sha256 (utf8 codeVerifier))
  let authorizeUrl := buildAuthorizeUrl libs provider config.authorizeUrl clientId (libs.asStr config.redirectUri)
    (" ".intercalate config.scopes) state codeChallenge
  .ok (⟨state, codeVerifier, authorizeUrl⟩, expiresAt)

/-- `begin`. -/
def begin (provider : OAuthProvider) (config : OAuthProviderConfig υ) (nonceSource : SecureRandom) (now : τ)
    (store : InMemoryOAuthStateStore τ) : OAuthResult (OAuthStart υ) × InMemoryOAuthStateStore τ :=
  match prepareStart libs provider config nonceSource now with
  | .error e => (.error e, store)
  | .ok (start, expiresAt) =>
    match store.reserve start.state start.codeVerifier expiresAt with
    | .error e => (.error e, store)
    | .ok store => (.ok start, store.purgeExpired now)

theorem prepareStart_expiresAt {provider : OAuthProvider} {config : OAuthProviderConfig υ} {nonceSource : SecureRandom}
    {now expiresAt : τ} {start : OAuthStart υ}
    (h : prepareStart libs provider config nonceSource now = .ok (start, expiresAt)) :
    libs.tenMinutesAfter now = some expiresAt := by
  unfold prepareStart at h
  simp only [bind_eq_ok_iff, okOr_eq_ok_iff, Except.ok.injEq, Prod.mk.injEq] at h
  obtain ⟨_, -, _, -, _, -, later, hlater, _, -, _, -, -, rfl⟩ := h
  exact hlater

end Start

/-! ### The callback -/

/-- `OAuthCallback`. -/
structure OAuthCallback where
  code : String
  state : String
  deriving DecidableEq

/-- `AuthorizationCode`. -/
structure AuthorizationCode where
  code : String
  verifier : String
  deriving DecidableEq

/-- `validate_callback`. -/
def validateCallback {τ : Type} [LinearOrder τ] (callback : OAuthCallback) (now : τ)
    (store : InMemoryOAuthStateStore τ) : OAuthResult AuthorizationCode × InMemoryOAuthStateStore τ :=
  if IsBlank callback.code then (.error .invalidCode, store)
  else
    match store.consume callback.state now with
    | .error e => (.error e, store)
    | .ok (verifier, store) => (.ok ⟨callback.code, verifier⟩, store)

end AgentVoice.OAuth
