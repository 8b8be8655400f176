import AgentVoice.Domain.Chrono
import AgentVoice.Foundations.Lines
import AgentVoice.Foundations.Table
import AgentVoice.Store.Columns
import AgentVoice.Store.TokenCipher
import Mathlib.Data.Finset.Sort
import Mathlib.Data.String.Basic

/-!
# OAuth credentials

`save_oauth_credential`, `update_oauth_tokens`, `load_oauth_credential` and `delete_oauth_credential`. A credential
is kept in one row for its provider and account; its tokens are encrypted in a context that names the pair and the
kind of the token, and no two pairs and kinds have one context (`oauthContext_inj`). What the four calls do with the
rows is stated once for each of them. The expiry is an instant of the date library and the scopes are a JSON array;
both libraries are parameters.
-/

namespace AgentVoice.Store

open AgentVoice.Foundations AgentVoice.Domain

/-! ### Identities and scopes -/

/-- `validate_oauth_identity`. -/
def validateOauthIdentity (value field : String) : StoreResult String := do
  let value ← validateNonEmpty value field
  require (':' ∉ value.toList) (.invalidInput field)
  return value

/-- Whether a text can name a provider or an account. -/
def IsOauthIdentity (value : String) : Prop := ¬ IsBlank value ∧ ':' ∉ value.toList

instance (value : String) : Decidable (IsOauthIdentity value) := inferInstanceAs (Decidable (_ ∧ _))

theorem validateOauthIdentity_eq_ok_iff {value field text : String} :
    validateOauthIdentity value field = .ok text ↔ IsOauthIdentity value ∧ value = text := by
  simp only [validateOauthIdentity, bind_eq_ok_iff, validateNonEmpty_eq_ok_iff, require_eq_ok_iff, pure_eq_ok,
    Except.ok.injEq, IsOauthIdentity]
  constructor
  · rintro ⟨_, ⟨hblank, rfl⟩, -, hcolon, rfl⟩
    exact ⟨⟨hblank, hcolon⟩, rfl⟩
  · rintro ⟨⟨hblank, hcolon⟩, rfl⟩
    exact ⟨value, ⟨hblank, rfl⟩, (), hcolon, rfl⟩

example : validateOauthIdentity "owner" "account_id" = .ok "owner" := by decide +kernel

/-- The trimmed scopes in order, each of them once. -/
def scopeSet (scopes : List String) : List String := (scopes.map trim).toFinset.sort

/-- `normalize_scopes`. -/
def normalizeScopes (scopes : List String) : StoreResult (List String) := do
  scopes.forM fun scope => require (¬ IsBlank scope) (.invalidInput "scopes")
  let normalized := scopeSet scopes
  require (normalized ≠ []) (.invalidInput "scopes")
  return normalized

/-- Whether scopes are accepted. -/
def AreScopes (scopes : List String) : Prop := (∀ scope ∈ scopes, ¬ IsBlank scope) ∧ scopeSet scopes ≠ []

theorem normalizeScopes_eq_ok_iff {scopes normalized : List String} :
    normalizeScopes scopes = .ok normalized ↔ AreScopes scopes ∧ normalized = scopeSet scopes := by
  simp only [normalizeScopes, bind_eq_ok_iff, forM_eq_ok_iff, require_eq_ok_iff, pure_eq_ok, Except.ok.injEq,
    AreScopes]
  constructor
  · rintro ⟨-, hblank, -, hne, rfl⟩
    exact ⟨⟨hblank, hne⟩, rfl⟩
  · rintro ⟨⟨hblank, hne⟩, rfl⟩
    exact ⟨(), hblank, (), hne, rfl⟩

theorem mem_scopeSet {scopes : List String} {scope : String} : scope ∈ scopeSet scopes ↔ ∃ s ∈ scopes, trim s = scope := by
  simp [scopeSet]

theorem pairwise_scopeSet (scopes : List String) : (scopeSet scopes).Pairwise (· < ·) :=
  List.SortedLT.pairwise (Finset.sortedLT_sort _)

/-- **Normalizing twice is normalizing once.** -/
theorem scopeSet_scopeSet (scopes : List String) : scopeSet (scopeSet scopes) = scopeSet scopes := by
  have htrim : (scopeSet scopes).map trim = scopeSet scopes := by
    refine (List.map_congr_left fun scope hscope => ?_).trans (List.map_id _)
    obtain ⟨s, -, rfl⟩ := mem_scopeSet.mp hscope
    exact trim_trim s
  rw [scopeSet, htrim, scopeSet, Finset.sort_toFinset]

theorem AreScopes.scopeSet {scopes : List String} (h : AreScopes scopes) : AreScopes (scopeSet scopes) := by
  refine ⟨fun scope hscope => ?_, by rw [scopeSet_scopeSet]; exact h.2⟩
  obtain ⟨s, hs, rfl⟩ := mem_scopeSet.mp hscope
  rw [isBlank_trim]
  exact h.1 s hs

/-! ### Credentials and rows -/

/-- `OAuthCredential`. -/
structure OAuthCredential (τ : Type) where
  provider : String
  accountId : String
  accessToken : String
  refreshToken : Option String
  expiresAt : Option τ
  scopes : List String
  deriving DecidableEq

variable {τ : Type}

/-- `validate_and_normalize`, which `OAuthCredential::new` runs as well. -/
def OAuthCredential.validateAndNormalize (c : OAuthCredential τ) : StoreResult (OAuthCredential τ) := do
  let provider ← validateOauthIdentity c.provider "provider"
  let accountId ← validateOauthIdentity c.accountId "account_id"
  require (¬ IsBlank c.accessToken) (.invalidInput "access_token")
  require (∀ token ∈ c.refreshToken, ¬ IsBlank token) (.invalidInput "refresh_token")
  let scopes ← normalizeScopes c.scopes
  return { c with
    provider := provider
    accountId := accountId
    scopes := scopes }

/-- What is wanted of a credential. -/
structure OAuthCredential.IsValid (c : OAuthCredential τ) : Prop where
  provider : IsOauthIdentity c.provider
  accountId : IsOauthIdentity c.accountId
  accessToken : ¬ IsBlank c.accessToken
  refreshToken : ∀ token ∈ c.refreshToken, ¬ IsBlank token
  scopes : AreScopes c.scopes

theorem OAuthCredential.validateAndNormalize_eq_ok_iff {c c' : OAuthCredential τ} :
    c.validateAndNormalize = .ok c' ↔ c.IsValid ∧ c' = { c with scopes := scopeSet c.scopes } := by
  simp only [validateAndNormalize, bind_eq_ok_iff, validateOauthIdentity_eq_ok_iff, require_eq_ok_iff,
    normalizeScopes_eq_ok_iff, pure_eq_ok, Except.ok.injEq]
  constructor
  · rintro ⟨_, ⟨hprovider, rfl⟩, _, ⟨haccount, rfl⟩, -, haccess, -, hrefresh, _, ⟨hscopes, rfl⟩, rfl⟩
    exact ⟨⟨hprovider, haccount, haccess, hrefresh, hscopes⟩, rfl⟩
  · rintro ⟨⟨hprovider, haccount, haccess, hrefresh, hscopes⟩, rfl⟩
    exact ⟨_, ⟨hprovider, rfl⟩, _, ⟨haccount, rfl⟩, (), haccess, (), hrefresh, _, ⟨hscopes, rfl⟩, rfl⟩

/-- A row of `oauth_credentials`; the columns that no call reads are left out. -/
structure OAuthCredentialRow where
  provider : String
  accountId : String
  accessTokenCiphertext : List UInt8
  refreshTokenCiphertext : Option (List UInt8)
  expiresAt : Option String
  scopes : String
  deriving DecidableEq, Repr

/-- The pair that the table is unique in. -/
def OAuthCredentialRow.pair (row : OAuthCredentialRow) : String × String := (row.provider, row.accountId)

/-- `serde_json::to_string`, of scopes. -/
def scopesJson (scopes : List String) : String :=
  String.ofList (arrayChars (scopes.map fun scope => quotedChars scope.toList))

/-! ### Tokens -/

/-- The kinds of token, as the contexts name them. -/
inductive TokenKind where
  | access | refresh
  deriving DecidableEq, Repr

/-- The name of a kind. -/
def TokenKind.name : TokenKind → String
  | .access => "access"
  | .refresh => "refresh"

/-- `oauth_context`. -/
def oauthContext (provider accountId : String) (kind : TokenKind) : String :=
  "oauth:" ++ provider ++ ":" ++ accountId ++ ":" ++ kind.name

/-- **Contexts are injective.** -/
theorem oauthContext_inj {provider accountId provider' accountId' : String} {kind kind' : TokenKind}
    (hprovider : ':' ∉ provider.toList) (haccount : ':' ∉ accountId.toList) (hprovider' : ':' ∉ provider'.toList)
    (haccount' : ':' ∉ accountId'.toList)
    (h : oauthContext provider accountId kind = oauthContext provider' accountId' kind') :
    provider = provider' ∧ accountId = accountId' ∧ kind = kind' := by
  have hchars : ∀ p a (k : TokenKind), (oauthContext p a k).toList =
      "oauth:".toList ++ (p.toList ++ ':' :: (a.toList ++ ':' :: k.name.toList)) := by
    intro p a k
    simp [oauthContext, String.toList_append]
  have heq := congrArg String.toList h
  rw [hchars, hchars, List.append_cancel_left_eq] at heq
  have hfirst := congrArg (Lines.takeLine ':') heq
  rw [Lines.takeLine_append hprovider, Lines.takeLine_append hprovider'] at hfirst
  obtain ⟨hp, hrest⟩ := Prod.mk.inj (Option.some.inj hfirst)
  have hsecond := congrArg (Lines.takeLine ':') hrest
  rw [Lines.takeLine_append haccount, Lines.takeLine_append haccount'] at hsecond
  obtain ⟨ha, hkind⟩ := Prod.mk.inj (Option.some.inj hsecond)
  refine ⟨String.toList_inj.mp hp, String.toList_inj.mp ha, ?_⟩
  cases kind <;> cases kind' <;> first | rfl | exact absurd hkind (by decide)

/-- The libraries that the calls use. -/
structure OAuthEnv (τ : Type) where
  cipher : TokenCipher
  chrono : Chrono τ
  /-- `serde_json::from_slice`, to an envelope. -/
  envelopeFromSlice : List UInt8 → Option EncryptedSecret
  /-- `serde_json::from_str`, to scopes. -/
  scopesFromStr : String → Option (List String)

/-- What is relied on: AES-GCM is correct and authenticates, encoded bytes and written JSON are read back, and the
date library reads back the instants of the years 0 to 9999 and does not read the text of any other instant. -/
structure OAuthEnv.Reliable (env : OAuthEnv τ) (inYears : τ → Prop) : Prop where
  correct : env.cipher.aead.Correct
  authenticating : env.cipher.aead.Authenticating
  base64 : env.cipher.base64.ReadsBack
  envelope : ∀ e : EncryptedSecret, env.envelopeFromSlice e.toVec = some e
  scopes : ∀ scopes, env.scopesFromStr (scopesJson scopes) = some scopes
  reads : ∀ t, inYears t → env.chrono.parseFromRfc3339 (env.chrono.toRfc3339 t) = some t
  refuses : ∀ t, ¬ inYears t → env.chrono.parseFromRfc3339 (env.chrono.toRfc3339 t) = none

section

variable (env : OAuthEnv τ)

/-- Encrypts a token and serializes its envelope. -/
def sealToken (random : Option Nonce) (token context : String) : StoreResult (List UInt8) := do
  let envelope ← replaceError (env.cipher.encrypt random (utf8 token) (utf8 context)) .crypto
  return envelope.toVec

/-- Deserializes an envelope and decrypts its token. -/
def openToken (context : String) (bytes : List UInt8) : StoreResult String := do
  let envelope ← okOr (env.envelopeFromSlice bytes) .storedValueInvalid
  let token ← replaceError (env.cipher.decrypt envelope (utf8 context)) .crypto
  okOr (fromUtf8 token) .storedValueInvalid

variable {env}

theorem sealToken_eq_ok_iff {random : Option Nonce} {token context : String} {bytes : List UInt8} :
    sealToken env random token context = .ok bytes ↔
      ∃ envelope, env.cipher.encrypt random (utf8 token) (utf8 context) = .ok envelope ∧ bytes = envelope.toVec := by
  simp only [sealToken, bind_eq_ok_iff, replaceError_eq_ok_iff, pure_eq_ok, Except.ok.injEq, eq_comm (a := bytes)]

/-- **A token is opened in its context.** -/
theorem openToken_sealToken {inYears : τ → Prop} (henv : env.Reliable inYears) {random : Option Nonce}
    {token context : String} {bytes : List UInt8} (h : sealToken env random token context = .ok bytes) :
    openToken env context bytes = .ok token := by
  obtain ⟨envelope, hencrypt, rfl⟩ := sealToken_eq_ok_iff.mp h
  rw [openToken, henv.envelope, okOr_some, ok_bind, TokenCipher.decrypt_encrypt henv.correct henv.base64 hencrypt,
    replaceError_ok, ok_bind, fromUtf8_utf8, okOr_some]

/-- **A token is opened in no other context.** -/
theorem openToken_sealToken_of_ne {inYears : τ → Prop} (henv : env.Reliable inYears) {random : Option Nonce}
    {token context context' : String} {bytes : List UInt8} (h : sealToken env random token context = .ok bytes)
    (hne : context' ≠ context) : openToken env context' bytes = .error .crypto := by
  obtain ⟨envelope, hencrypt, rfl⟩ := sealToken_eq_ok_iff.mp h
  have hbytes : utf8 context' ≠ utf8 context := fun heq => hne <| by
    have := congrArg fromUtf8 heq
    rw [fromUtf8_utf8, fromUtf8_utf8] at this
    exact Option.some.inj this
  rw [openToken, henv.envelope, okOr_some, ok_bind,
    TokenCipher.decrypt_encrypt_of_ne henv.authenticating henv.base64 hencrypt hbytes, replaceError_error, error_bind]

end

/-! ### The calls -/

section

variable (env : OAuthEnv τ)

/-- `PaStore::save_oauth_credential`. -/
def saveOauthCredential (credential : OAuthCredential τ) (accessRandom refreshRandom : Option Nonce) :
    Tx StoreError (List OAuthCredentialRow) Unit := do
  let c ← Tx.ofResult credential.validateAndNormalize
  let access ← Tx.ofResult (sealToken env accessRandom c.accessToken (oauthContext c.provider c.accountId .access))
  let refresh ← Tx.ofResult (transpose
    (sealToken env refreshRandom · (oauthContext c.provider c.accountId .refresh)) c.refreshToken)
  let expiresAt := c.expiresAt.map env.chrono.toRfc3339
  let scopes := scopesJson c.scopes
  Tx.write (Table.upsert OAuthCredentialRow.pair ⟨c.provider, c.accountId, access, refresh, expiresAt, scopes⟩ fun row =>
    { row with
      accessTokenCiphertext := access
      refreshTokenCiphertext := refresh
      expiresAt := expiresAt
      scopes := scopes })

/-- `PaStore::update_oauth_tokens`. -/
def updateOauthTokens (provider accountId accessToken : String) (refreshToken : Option String) (expiresAt : τ)
    (scopes : List String) (accessRandom refreshRandom : Option Nonce) :
    Tx StoreError (List OAuthCredentialRow) Unit := do
  let provider ← Tx.ofResult (validateOauthIdentity provider "provider")
  let accountId ← Tx.ofResult (validateOauthIdentity accountId "account_id")
  Tx.ensure (¬ IsBlank accessToken) (.invalidInput "access_token")
  Tx.ensure (∀ token ∈ refreshToken, ¬ IsBlank token) (.invalidInput "refresh_token")
  let scopes ← Tx.ofResult (normalizeScopes scopes)
  let expiresAt := env.chrono.toRfc3339 expiresAt
  let scopes := scopesJson scopes
  let access ← Tx.ofResult (sealToken env accessRandom accessToken (oauthContext provider accountId .access))
  let stored ← Tx.read fun t =>
    (Table.byKey OAuthCredentialRow.pair (provider, accountId) t).bind OAuthCredentialRow.refreshTokenCiphertext
  let given ← Tx.ofResult (transpose
    (sealToken env refreshRandom · (oauthContext provider accountId .refresh)) refreshToken)
  let refresh := match refreshToken with
    | some _ => given
    | none => stored
  Tx.write (Table.upsert OAuthCredentialRow.pair ⟨provider, accountId, access, refresh, some expiresAt, scopes⟩
    fun row =>
      { row with
        accessTokenCiphertext := access
        refreshTokenCiphertext := match refresh with
          | none => row.refreshTokenCiphertext
          | some refresh => some refresh
        expiresAt := some expiresAt
        scopes := scopes })

/-- `PaStore::load_oauth_credential`. -/
def loadOauthCredential (provider accountId : String) :
    Tx StoreError (List OAuthCredentialRow) (OAuthCredential τ) := do
  let provider ← Tx.ofResult (validateOauthIdentity provider "provider")
  let accountId ← Tx.ofResult (validateOauthIdentity accountId "account_id")
  let row ← Tx.read (Table.byKey OAuthCredentialRow.pair (provider, accountId))
  let row ← Tx.ofResult (okOr row (.notFound "oauth credential"))
  let accessToken ← Tx.ofResult (openToken env (oauthContext provider accountId .access) row.accessTokenCiphertext)
  let refreshToken ← Tx.ofResult (transpose (openToken env (oauthContext provider accountId .refresh))
    row.refreshTokenCiphertext)
  let expiresAt ← Tx.ofResult (transpose (fun value => okOr (env.chrono.parseFromRfc3339 value) .storedValueInvalid)
    row.expiresAt)
  let scopes ← Tx.ofResult (okOr (env.scopesFromStr row.scopes) .storedValueInvalid)
  Tx.ofResult (OAuthCredential.validateAndNormalize ⟨provider, accountId, accessToken, refreshToken, expiresAt, scopes⟩)

/-- `PaStore::delete_oauth_credential`. -/
def deleteOauthCredential (provider accountId : String) : Tx StoreError (List OAuthCredentialRow) Unit := do
  let provider ← Tx.ofResult (validateOauthIdentity provider "provider")
  let accountId ← Tx.ofResult (validateOauthIdentity accountId "account_id")
  let own := fun (row : OAuthCredentialRow) => row.pair == (provider, accountId)
  let deleted ← Tx.read fun t => t.countP own
  Tx.write (Table.deleteWhere own)
  Tx.ensure (deleted ≠ 0) (.notFound "oauth credential")

end

end AgentVoice.Store
