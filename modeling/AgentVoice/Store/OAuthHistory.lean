import AgentVoice.Foundations.Base64Url
import AgentVoice.Foundations.Machine
import AgentVoice.Store.OAuthCredentials

/-!
# The history of OAuth credentials

What is kept after any sequence of saves, updates and deletions. `lastCredential` is what the calls that succeeded
make of a pair's credential, call after call; `Holds` says that the table has that credential for the pair, and every
call preserves it (`holds_step`). A credential is then loaded exactly where its expiry is an instant whose text the
date library reads back (`loadOauthCredential_iff`).
-/

namespace AgentVoice.Store

open AgentVoice.Foundations AgentVoice.Domain

variable {τ : Type}

/-- A call that changes the credentials. -/
inductive OAuthCall (τ : Type) where
  | save (credential : OAuthCredential τ) (accessRandom refreshRandom : Option Nonce)
  | update (provider accountId accessToken : String) (refreshToken : Option String) (expiresAt : τ)
    (scopes : List String) (accessRandom refreshRandom : Option Nonce)
  | delete (provider accountId : String)

namespace OAuthCall

/-- The pair that a call is about. -/
def pair : OAuthCall τ → String × String
  | save c _ _ => (c.provider, c.accountId)
  | update provider accountId _ _ _ _ _ _ => (provider, accountId)
  | delete provider accountId => (provider, accountId)

/-- What a call that succeeds makes of the credential of its pair: a save replaces it, an update keeps the refresh
token if it has none of its own, a deletion removes it. -/
def credential (before : Option (OAuthCredential τ)) : OAuthCall τ → Option (OAuthCredential τ)
  | save c _ _ => some { c with scopes := scopeSet c.scopes }
  | update provider accountId accessToken refreshToken expiresAt scopes _ _ =>
    some ⟨provider, accountId, accessToken, refreshToken.or (before.bind OAuthCredential.refreshToken), some expiresAt,
      scopeSet scopes⟩
  | delete _ _ => none

/-- The transaction of a call. -/
def transaction (env : OAuthEnv τ) : OAuthCall τ → Tx StoreError (List OAuthCredentialRow) Unit
  | save c accessRandom refreshRandom => saveOauthCredential env c accessRandom refreshRandom
  | update provider accountId accessToken refreshToken expiresAt scopes accessRandom refreshRandom =>
    updateOauthTokens env provider accountId accessToken refreshToken expiresAt scopes accessRandom refreshRandom
  | delete provider accountId => deleteOauthCredential provider accountId

end OAuthCall

/-- The credential of a pair after calls that succeeded. -/
def lastCredential (pair : String × String) (calls : List (OAuthCall τ)) : Option (OAuthCredential τ) :=
  calls.foldl (fun before c => if c.pair = pair then c.credential before else before) none

section

variable (env : OAuthEnv τ)

/-- The table after a call. -/
def stepOauth (c : OAuthCall τ) (t : List OAuthCredentialRow) : List OAuthCredentialRow :=
  ((c.transaction env).commit t).2

/-- Whether a call succeeds. -/
def OAuthCall.succeeds (c : OAuthCall τ) (t : List OAuthCredentialRow) : Bool :=
  ((c.transaction env).commit t).1.toBool

/-- The calls of a run that succeed, in order. -/
def succeededCalls (calls : List (OAuthCall τ)) (t : List OAuthCredentialRow) : List (OAuthCall τ) :=
  Machine.outputs (stepOauth env) (fun c t => if c.succeeds env t then [c] else []) calls t

/-- Whether a row has a credential, with the tokens encrypted in the contexts of its pair. -/
structure OAuthCredentialRow.Has (row : OAuthCredentialRow) (c : OAuthCredential τ) : Prop where
  valid : c.IsValid
  normalized : scopeSet c.scopes = c.scopes
  pair : row.pair = (c.provider, c.accountId)
  access : ∃ random, sealToken env random c.accessToken (oauthContext c.provider c.accountId .access) =
    .ok row.accessTokenCiphertext
  refresh : Option.Rel (fun token bytes =>
    ∃ random, sealToken env random token (oauthContext c.provider c.accountId .refresh) = .ok bytes)
    c.refreshToken row.refreshTokenCiphertext
  expiresAt : row.expiresAt = c.expiresAt.map env.chrono.toRfc3339
  scopes : row.scopes = scopesJson c.scopes

/-- Whether the table has a credential for a pair, or none if it is to have none. -/
def Holds (t : List OAuthCredentialRow) (pair : String × String) (c : Option (OAuthCredential τ)) : Prop :=
  Option.Rel (fun row c => row.Has env c) (Table.byKey OAuthCredentialRow.pair pair t) c

variable {env}

/-! ### What the calls do -/

theorem transpose_sealToken {random : Option Nonce} {context : String} {token : Option String}
    {bytes : Option (List UInt8)} (h : transpose (sealToken env random · context) token = .ok bytes) :
    Option.Rel (fun token bytes => ∃ random, sealToken env random token context = .ok bytes) token bytes := by
  cases bytes with
  | none =>
    obtain rfl := transpose_eq_ok_none_iff.mp h
    exact .none
  | some bytes =>
    obtain ⟨token, rfl, hsealed⟩ := transpose_eq_ok_some_iff.mp h
    exact .some ⟨random, hsealed⟩

/-- What a call that succeeds does: its pair has the given credential, and the other pairs keep their rows. -/
structure OAuthEffect (env : OAuthEnv τ) (t t' : List OAuthCredentialRow) (pair : String × String)
    (after : Option (OAuthCredential τ)) : Prop where
  own : Holds env t' pair after
  others : ∀ other, other ≠ pair →
    Table.byKey OAuthCredentialRow.pair other t' = Table.byKey OAuthCredentialRow.pair other t

/-- An upsert of a row that has a credential, whatever it does to the row that was there. -/
theorem effect_upsert {row : OAuthCredentialRow} {f : OAuthCredentialRow → OAuthCredentialRow}
    {t : List OAuthCredentialRow} {pair : String × String} {c : OAuthCredential τ} (hrow : row.pair = pair)
    (hpair : ∀ old, (f old).pair = old.pair) (hhas : row.Has env c)
    (hupdate : ∀ old, Table.byKey OAuthCredentialRow.pair pair t = some old → (f old).Has env c) :
    OAuthEffect env t (Table.upsert OAuthCredentialRow.pair row f t) pair (some c) := by
  subst hrow
  refine ⟨?_, fun other hother => Table.byKey_upsert_of_ne hpair hother⟩
  rw [Holds, Table.byKey_upsert hpair]
  cases hold : Table.byKey OAuthCredentialRow.pair row.pair t with
  | none => exact .some hhas
  | some old => exact .some (hupdate old hold)

theorem saveOauthCredential_run_eq_ok {c : OAuthCredential τ} {accessRandom refreshRandom : Option Nonce}
    {t t' : List OAuthCredentialRow} {u : Unit}
    (h : (saveOauthCredential env c accessRandom refreshRandom).run t = .ok (u, t')) :
    OAuthEffect env t t' (c.provider, c.accountId) (some { c with scopes := scopeSet c.scopes }) := by
  simp only [saveOauthCredential, Tx.ofResult_bind_eq_ok_iff,
    OAuthCredential.validateAndNormalize_eq_ok_iff] at h
  obtain ⟨_, ⟨hvalid, rfl⟩, access, haccess, refresh, hrefresh, h⟩ := h
  cases h
  have hhas : ∀ row : OAuthCredentialRow, row.pair = (c.provider, c.accountId) →
      OAuthCredentialRow.Has env { row with
        accessTokenCiphertext := access
        refreshTokenCiphertext := refresh
        expiresAt := c.expiresAt.map env.chrono.toRfc3339
        scopes := scopesJson (scopeSet c.scopes) } { c with scopes := scopeSet c.scopes } :=
    fun row hpair =>
      { valid :=
          ⟨hvalid.provider, hvalid.accountId, hvalid.accessToken, hvalid.refreshToken, hvalid.scopes.scopeSet⟩
        normalized := scopeSet_scopeSet _
        pair := hpair
        access := ⟨_, haccess⟩
        refresh := transpose_sealToken hrefresh
        expiresAt := rfl
        scopes := rfl }
  refine effect_upsert rfl ?_ ?_ ?_
  · exact fun _ => rfl
  · exact hhas ⟨c.provider, c.accountId, [], none, none, ""⟩ rfl
  · exact fun old hold => hhas old (Table.byKey_eq_some hold).2

/-- The stored refresh token of a pair is that of its credential. -/
theorem Holds.refresh {t : List OAuthCredentialRow} {provider accountId : String}
    {before : Option (OAuthCredential τ)} (h : Holds env t (provider, accountId) before) :
    Option.Rel (fun token bytes =>
        ∃ random, sealToken env random token (oauthContext provider accountId .refresh) = .ok bytes)
      (before.bind OAuthCredential.refreshToken)
      ((Table.byKey OAuthCredentialRow.pair (provider, accountId) t).bind OAuthCredentialRow.refreshTokenCiphertext) ∧
    ∀ token ∈ before.bind OAuthCredential.refreshToken, ¬ IsBlank token := by
  rw [Holds] at h
  cases hrow : Table.byKey OAuthCredentialRow.pair (provider, accountId) t with
  | none =>
    rw [hrow] at h
    cases h
    exact ⟨.none, by simp⟩
  | some row =>
    have hpair := (Table.byKey_eq_some hrow).2
    rw [hrow] at h
    cases h with
    | some hhas =>
      obtain ⟨rfl, rfl⟩ := Prod.mk.inj (hhas.pair.symm.trans hpair)
      exact ⟨hhas.refresh, hhas.valid.refreshToken⟩

theorem updateOauthTokens_run_eq_ok {provider accountId accessToken : String} {refreshToken : Option String}
    {expiresAt : τ} {scopes : List String} {accessRandom refreshRandom : Option Nonce}
    {t t' : List OAuthCredentialRow} {before : Option (OAuthCredential τ)} {u : Unit}
    (hbefore : Holds env t (provider, accountId) before)
    (h : (updateOauthTokens env provider accountId accessToken refreshToken expiresAt scopes accessRandom
      refreshRandom).run t = .ok (u, t')) :
    OAuthEffect env t t' (provider, accountId) (some ⟨provider, accountId, accessToken,
      refreshToken.or (before.bind OAuthCredential.refreshToken), some expiresAt, scopeSet scopes⟩) := by
  simp only [updateOauthTokens, Tx.ofResult_bind_eq_ok_iff, Tx.ensure_bind_eq_ok_iff, Tx.read_bind,
    validateOauthIdentity_eq_ok_iff, normalizeScopes_eq_ok_iff] at h
  obtain ⟨_, ⟨hprovider, rfl⟩, _, ⟨haccount, rfl⟩, haccess, hrefresh, _, ⟨hscopes, rfl⟩, access, hsealed, given, hgiven,
    h⟩ := h
  cases h
  -- the row of the pair, with the access token and a refresh token as the credential is to have it
  have hhas : ∀ (row : OAuthCredentialRow) (refresh : Option (List UInt8)), row.pair = (provider, accountId) →
      (∀ token ∈ refreshToken.or (before.bind OAuthCredential.refreshToken), ¬ IsBlank token) →
      Option.Rel (fun token bytes =>
          ∃ random, sealToken env random token (oauthContext provider accountId .refresh) = .ok bytes)
        (refreshToken.or (before.bind OAuthCredential.refreshToken)) refresh →
      OAuthCredentialRow.Has env { row with
        accessTokenCiphertext := access
        refreshTokenCiphertext := refresh
        expiresAt := some (env.chrono.toRfc3339 expiresAt)
        scopes := scopesJson (scopeSet scopes) } ⟨provider, accountId, accessToken,
          refreshToken.or (before.bind OAuthCredential.refreshToken), some expiresAt, scopeSet scopes⟩ :=
    fun row refresh hpair hnonblank hrel =>
      { valid := ⟨hprovider, haccount, haccess, hnonblank, hscopes.scopeSet⟩
        normalized := scopeSet_scopeSet _
        pair := hpair
        access := ⟨_, hsealed⟩
        refresh := hrel
        expiresAt := rfl
        scopes := rfl }
  obtain ⟨hstored, hblank⟩ := hbefore.refresh
  refine effect_upsert rfl ?_ ?_ ?_
  · exact fun _ => rfl
  · cases refreshToken with
    | none => exact hhas ⟨provider, accountId, [], none, none, ""⟩ _ rfl hblank hstored
    | some token => exact hhas ⟨provider, accountId, [], none, none, ""⟩ _ rfl hrefresh (transpose_sealToken hgiven)
  · intro old hold
    have hpair := (Table.byKey_eq_some hold).2
    cases refreshToken with
    | none =>
      rw [hold, Option.bind_some] at hstored ⊢
      have hkept := hhas old _ hpair hblank hstored
      cases hbytes : old.refreshTokenCiphertext with
      | none => rw [hbytes] at hkept; exact hkept
      | some bytes => rw [hbytes] at hkept; exact hkept
    | some token =>
      have hrel := transpose_sealToken hgiven
      cases hrel with
      | some hsome => exact hhas old _ hpair hrefresh (.some hsome)

theorem deleteOauthCredential_run_eq_ok {provider accountId : String} {t t' : List OAuthCredentialRow} {u : Unit}
    (h : (deleteOauthCredential provider accountId).run t = .ok (u, t')) :
    OAuthEffect env t t' (provider, accountId) none := by
  simp only [deleteOauthCredential, Tx.ofResult_bind_eq_ok_iff, validateOauthIdentity_eq_ok_iff, Tx.read_bind,
    Tx.write_bind, Tx.run_ensure_eq_ok_iff] at h
  obtain ⟨_, ⟨-, rfl⟩, _, ⟨-, rfl⟩, -, rfl⟩ := h
  refine ⟨?_, fun other hother => Table.byKey_deleteWhere fun row _ hrow => by simpa [hrow] using hother⟩
  have hnone : Table.byKey OAuthCredentialRow.pair (provider, accountId)
      (Table.deleteWhere (fun row => row.pair == (provider, accountId)) t) = none := by
    refine Table.byKey_eq_none.mpr fun row hrow => ?_
    simpa using (Table.mem_deleteWhere.mp hrow).2
  rw [Holds, hnone]
  exact .none

/-! ### Runs -/

/-- A call that succeeds. -/
theorem transaction_run_eq_ok {c : OAuthCall τ} {t t' : List OAuthCredentialRow}
    {before : Option (OAuthCredential τ)} {u : Unit} (hbefore : Holds env t c.pair before)
    (h : (c.transaction env).run t = .ok (u, t')) : OAuthEffect env t t' c.pair (c.credential before) := by
  cases c with
  | save c accessRandom refreshRandom => exact saveOauthCredential_run_eq_ok h
  | update => exact updateOauthTokens_run_eq_ok hbefore h
  | delete => exact deleteOauthCredential_run_eq_ok h

/-- **Every call keeps what the table has**, with what the call makes of the credential of its pair. -/
theorem holds_step {c : OAuthCall τ} {t : List OAuthCredentialRow}
    {credentials : String × String → Option (OAuthCredential τ)} (h : ∀ pair, Holds env t pair (credentials pair))
    (pair : String × String) :
    Holds env (stepOauth env c t) pair
      (if c.succeeds env t ∧ c.pair = pair then c.credential (credentials pair) else credentials pair) := by
  cases hrun : (c.transaction env).run t with
  | error e =>
    rw [if_neg (by simp [OAuthCall.succeeds, Tx.commit_of_error hrun, Except.toBool]), stepOauth,
      Tx.commit_of_error hrun]
    exact h pair
  | ok r =>
    obtain ⟨u, t'⟩ := r
    have heffect := transaction_run_eq_ok (h c.pair) hrun
    have hsucceeds : c.succeeds env t = true := by
      rw [OAuthCall.succeeds, Tx.commit_of_ok hrun]
      rfl
    rw [stepOauth, Tx.commit_of_ok hrun]
    by_cases hpair : c.pair = pair
    · subst hpair
      rw [if_pos ⟨hsucceeds, rfl⟩]
      exact heffect.own
    · rw [if_neg (fun hc => hpair hc.2), Holds, heffect.others pair (Ne.symm hpair)]
      exact h pair

variable (env) in
/-- **The table has what the calls made.** -/
theorem holds_run (calls : List (OAuthCall τ)) (pair : String × String) :
    Holds env (Machine.run (stepOauth env) calls []) pair (lastCredential pair (succeededCalls env calls [])) := by
  induction calls using List.reverseRecOn generalizing pair with
  | nil => exact .none
  | append_singleton calls c ih =>
    have hsucceeded : succeededCalls env (calls ++ [c]) [] = succeededCalls env calls [] ++
        if c.succeeds env (Machine.run (stepOauth env) calls []) then [c] else [] := by
      rw [succeededCalls, Machine.outputs_append, Machine.outputs, Machine.outputs, List.append_nil]
      rfl
    have hlast : lastCredential pair (succeededCalls env (calls ++ [c]) []) =
        if c.succeeds env (Machine.run (stepOauth env) calls []) ∧ c.pair = pair
        then c.credential (lastCredential pair (succeededCalls env calls []))
        else lastCredential pair (succeededCalls env calls []) := by
      rw [hsucceeded]
      cases hc : c.succeeds env (Machine.run (stepOauth env) calls []) with
      | false => simp
      | true => simp [lastCredential]
    rw [Machine.run_concat, hlast]
    exact holds_step ih pair

/-! ### Loading -/

theorem transpose_openToken {inYears : τ → Prop} (henv : env.Reliable inYears) {context : String}
    {token : Option String} {bytes : Option (List UInt8)}
    (h : Option.Rel (fun token bytes => ∃ random, sealToken env random token context = .ok bytes) token bytes) :
    transpose (openToken env context) bytes = .ok token := by
  cases h with
  | none => rfl
  | some hsealed =>
    obtain ⟨random, hsealed⟩ := hsealed
    exact transpose_eq_ok_some_iff.mpr ⟨_, rfl, openToken_sealToken henv hsealed⟩

/-- The expiry of a credential, as it is read back. -/
theorem transpose_parse {inYears : τ → Prop} (henv : env.Reliable inYears) (expiresAt : Option τ) :
    transpose (fun value => okOr (env.chrono.parseFromRfc3339 value) StoreError.storedValueInvalid)
        (expiresAt.map env.chrono.toRfc3339) = .ok expiresAt ∧ (∀ expiry ∈ expiresAt, inYears expiry) ∨
      transpose (fun value => okOr (env.chrono.parseFromRfc3339 value) StoreError.storedValueInvalid)
        (expiresAt.map env.chrono.toRfc3339) = .error .storedValueInvalid ∧ ¬ ∀ expiry ∈ expiresAt, inYears expiry := by
  cases expiresAt with
  | none => exact Or.inl ⟨rfl, by simp⟩
  | some expiry =>
    by_cases hyears : inYears expiry
    · exact Or.inl ⟨transpose_eq_ok_some_iff.mpr ⟨_, rfl, okOr_eq_ok_iff.mpr (henv.reads expiry hyears)⟩, by simpa⟩
    · refine Or.inr ⟨?_, by simpa⟩
      rw [Option.map_some, transpose, henv.refuses expiry hyears]
      rfl

/-- **A credential is loaded as it is where its expiry is read back**, and otherwise it cannot be loaded. -/
theorem loadOauthCredential_run {inYears : τ → Prop} (henv : env.Reliable inYears) {t : List OAuthCredentialRow}
    {c : OAuthCredential τ} (h : Holds env t (c.provider, c.accountId) (some c)) :
    (loadOauthCredential env c.provider c.accountId).run t = .ok (c, t) ∧ (∀ expiry ∈ c.expiresAt, inYears expiry) ∨
      (loadOauthCredential env c.provider c.accountId).run t = .error .storedValueInvalid ∧
        ¬ ∀ expiry ∈ c.expiresAt, inYears expiry := by
  rw [Holds] at h
  cases hrow : Table.byKey OAuthCredentialRow.pair (c.provider, c.accountId) t with
  | none =>
    rw [hrow] at h
    cases h
  | some row =>
    rw [hrow] at h
    cases h with
    | some hhas =>
      obtain ⟨random, haccess⟩ := hhas.access
      have hvalid : c.validateAndNormalize = .ok c :=
        OAuthCredential.validateAndNormalize_eq_ok_iff.mpr ⟨hhas.valid, by rw [hhas.normalized]⟩
      rw [loadOauthCredential, Tx.ofResult_bind_of_ok (validateOauthIdentity_eq_ok_iff.mpr ⟨hhas.valid.provider, rfl⟩),
        Tx.ofResult_bind_of_ok (validateOauthIdentity_eq_ok_iff.mpr ⟨hhas.valid.accountId, rfl⟩), Tx.read_bind, hrow,
        Tx.ofResult_bind_of_ok (okOr_some row _), Tx.ofResult_bind_of_ok (openToken_sealToken henv haccess),
        Tx.ofResult_bind_of_ok (transpose_openToken henv hhas.refresh), hhas.expiresAt, hhas.scopes]
      obtain ⟨hread, hyears⟩ | ⟨hread, hyears⟩ := transpose_parse henv c.expiresAt
      · rw [Tx.ofResult_bind_of_ok hread, Tx.ofResult_bind_of_ok (okOr_eq_ok_iff.mpr (henv.scopes _))]
        exact Or.inl ⟨Tx.run_ofResult_eq_ok_iff.mpr ⟨hvalid, rfl⟩, hyears⟩
      · rw [hread]
        exact Or.inr ⟨rfl, hyears⟩

/-- A pair without a credential. -/
theorem loadOauthCredential_notFound {t : List OAuthCredentialRow} {provider accountId : String}
    (h : Holds env t (provider, accountId) none) (hprovider : IsOauthIdentity provider)
    (haccount : IsOauthIdentity accountId) :
    (loadOauthCredential env provider accountId).run t = .error (.notFound "oauth credential") := by
  rw [Holds] at h
  cases hrow : Table.byKey OAuthCredentialRow.pair (provider, accountId) t with
  | some row =>
    rw [hrow] at h
    cases h
  | none =>
    rw [loadOauthCredential, Tx.ofResult_bind_of_ok (validateOauthIdentity_eq_ok_iff.mpr ⟨hprovider, rfl⟩),
      Tx.ofResult_bind_of_ok (validateOauthIdentity_eq_ok_iff.mpr ⟨haccount, rfl⟩), Tx.read_bind, hrow]
    rfl

/-- What a load returns depends on the row of its pair only. -/
theorem loadOauthCredential_congr {t t' : List OAuthCredentialRow} {pair : String × String}
    (h : Table.byKey OAuthCredentialRow.pair pair t' = Table.byKey OAuthCredentialRow.pair pair t) :
    ((loadOauthCredential env pair.1 pair.2).run t').map Prod.fst =
      ((loadOauthCredential env pair.1 pair.2).run t).map Prod.fst := by
  refine Tx.map_fst_ofResult_bind fun provider hprovider => Tx.map_fst_ofResult_bind fun accountId haccount => ?_
  obtain ⟨-, rfl⟩ := validateOauthIdentity_eq_ok_iff.mp hprovider
  obtain ⟨-, rfl⟩ := validateOauthIdentity_eq_ok_iff.mp haccount
  rw [Tx.read_bind, Tx.read_bind, h]
  refine Tx.map_fst_ofResult_bind fun row _ => Tx.map_fst_ofResult_bind fun access _ =>
    Tx.map_fst_ofResult_bind fun refresh _ => Tx.map_fst_ofResult_bind fun expiresAt _ =>
    Tx.map_fst_ofResult_bind fun scopes _ => ?_
  cases OAuthCredential.validateAndNormalize ⟨pair.1, pair.2, access, refresh, expiresAt, scopes⟩ <;> rfl

/-- **A ciphertext is bound to its pair and column.** -/
theorem OAuthCredentialRow.Has.bound {inYears : τ → Prop} (henv : env.Reliable inYears) {row : OAuthCredentialRow}
    {c : OAuthCredential τ} (h : row.Has env c) {provider accountId : String} (hprovider : IsOauthIdentity provider)
    (haccount : IsOauthIdentity accountId) (kind : TokenKind) :
    ((row.pair, TokenKind.access) ≠ ((provider, accountId), kind) →
        openToken env (oauthContext provider accountId kind) row.accessTokenCiphertext = .error .crypto) ∧
      ∀ bytes ∈ row.refreshTokenCiphertext, (row.pair, TokenKind.refresh) ≠ ((provider, accountId), kind) →
        openToken env (oauthContext provider accountId kind) bytes = .error .crypto := by
  have hcontext : ∀ own : TokenKind, (row.pair, own) ≠ ((provider, accountId), kind) →
      oauthContext provider accountId kind ≠ oauthContext c.provider c.accountId own := by
    intro own hne heq
    obtain ⟨rfl, rfl, rfl⟩ := oauthContext_inj hprovider.2 haccount.2 h.valid.provider.2 h.valid.accountId.2 heq
    exact hne (by rw [h.pair])
  constructor
  · intro hne
    obtain ⟨random, hsealed⟩ := h.access
    exact openToken_sealToken_of_ne henv hsealed (hcontext .access hne)
  · intro bytes hbytes hne
    have hrefresh := h.refresh
    rw [hbytes] at hrefresh
    cases htoken : c.refreshToken with
    | none =>
      rw [htoken] at hrefresh
      cases hrefresh
    | some token =>
      rw [htoken] at hrefresh
      cases hrefresh with
      | some hsealed =>
        obtain ⟨random, hsealed⟩ := hsealed
        exact openToken_sealToken_of_ne henv hsealed (hcontext .refresh hne)

/-- **The store keeps the last credential of every pair.** After every run of saves, updates and deletions, a pair's
credential is what the calls that succeeded made of it, with its scopes in order and each of them once; it is loaded
exactly where its expiry is in the years 0 to 9999, and otherwise the load fails. A pair without one is not found, a
call leaves the other pairs alone, and a ciphertext is not opened for another pair or as another kind of token. -/
theorem oauthCredentials_history {inYears : τ → Prop} (henv : env.Reliable inYears) (calls : List (OAuthCall τ))
    (pair : String × String) :
    (∀ c, lastCredential pair (succeededCalls env calls []) = some c →
      c.scopes.Pairwise (· < ·) ∧
      ((loadOauthCredential env pair.1 pair.2).run (Machine.run (stepOauth env) calls []) =
          .ok (c, Machine.run (stepOauth env) calls []) ↔ ∀ expiry ∈ c.expiresAt, inYears expiry) ∧
      ((loadOauthCredential env pair.1 pair.2).run (Machine.run (stepOauth env) calls []) =
          .error .storedValueInvalid ↔ ¬ ∀ expiry ∈ c.expiresAt, inYears expiry)) ∧
    (lastCredential pair (succeededCalls env calls []) = none → IsOauthIdentity pair.1 → IsOauthIdentity pair.2 →
      (loadOauthCredential env pair.1 pair.2).run (Machine.run (stepOauth env) calls []) =
        .error (.notFound "oauth credential")) ∧
    (∀ call : OAuthCall τ, call.pair ≠ pair →
      ((loadOauthCredential env pair.1 pair.2).run
          (stepOauth env call (Machine.run (stepOauth env) calls []))).map Prod.fst =
        ((loadOauthCredential env pair.1 pair.2).run (Machine.run (stepOauth env) calls [])).map Prod.fst) ∧
    ∀ row, Table.byKey OAuthCredentialRow.pair pair (Machine.run (stepOauth env) calls []) = some row →
      ∀ provider accountId kind, IsOauthIdentity provider → IsOauthIdentity accountId →
        ((pair, TokenKind.access) ≠ ((provider, accountId), kind) →
          openToken env (oauthContext provider accountId kind) row.accessTokenCiphertext = .error .crypto) ∧
        ∀ bytes ∈ row.refreshTokenCiphertext, (pair, TokenKind.refresh) ≠ ((provider, accountId), kind) →
          openToken env (oauthContext provider accountId kind) bytes = .error .crypto := by
  have hholds := holds_run env calls pair
  refine ⟨fun c hc => ?_, fun hnone hprovider haccount => ?_, fun call hcall => ?_, fun row hrow => ?_⟩
  · rw [hc] at hholds
    have hhas := hholds
    rw [Holds] at hhas
    cases hrow : Table.byKey OAuthCredentialRow.pair pair (Machine.run (stepOauth env) calls []) with
    | none =>
      rw [hrow] at hhas
      cases hhas
    | some row =>
      rw [hrow] at hhas
      cases hhas with
      | some hhas =>
        obtain rfl : pair = (c.provider, c.accountId) := (Table.byKey_eq_some hrow).2.symm.trans hhas.pair
        have hsorted : c.scopes.Pairwise (· < ·) := hhas.normalized ▸ pairwise_scopeSet _
        obtain ⟨hload, hyears⟩ | ⟨hload, hyears⟩ := loadOauthCredential_run henv hholds
        · exact ⟨hsorted, iff_of_true hload hyears, iff_of_false (by simp [hload]) (by simpa using hyears)⟩
        · exact ⟨hsorted, iff_of_false (by simp [hload]) hyears, iff_of_true hload hyears⟩
  · rw [hnone] at hholds
    exact loadOauthCredential_notFound hholds hprovider haccount
  · refine loadOauthCredential_congr ?_
    cases hrun : (call.transaction env).run (Machine.run (stepOauth env) calls []) with
    | error e => rw [stepOauth, Tx.commit_of_error hrun]
    | ok r =>
      obtain ⟨u, t'⟩ := r
      rw [stepOauth, Tx.commit_of_ok hrun]
      exact (transaction_run_eq_ok (holds_run env calls call.pair) hrun).others pair (Ne.symm hcall)
  · intro provider accountId kind hprovider haccount
    rw [Holds, hrow] at hholds
    cases hc : lastCredential pair (succeededCalls env calls []) with
    | none =>
      rw [hc] at hholds
      cases hholds
    | some c =>
      rw [hc] at hholds
      cases hholds with
      | some hhas =>
        have hpair := (Table.byKey_eq_some hrow).2
        rw [← hpair]
        exact hhas.bound henv hprovider haccount kind

end

/-! ### Libraries that can be run -/

/-- A sealing function whose result carries its context; it stands for AES-GCM. -/
def Aead.labelled : Aead where
  sealInPlaceAppendTag _ context plaintext :=
    some (List.replicate context.length 1 ++ 0 :: (context ++ (plaintext ++ List.replicate aesGcmTagLen 0)))
  openInPlace _ context bytes :=
    let n := (bytes.takeWhile fun b => b == 1).length
    let rest := bytes.drop (n + 1)
    if rest.take n = context then some ((rest.drop n).take ((rest.drop n).length - aesGcmTagLen)) else none

theorem Aead.labelled_open {nonce nonce' context context' plaintext bytes : List UInt8}
    (h : labelled.sealInPlaceAppendTag nonce context plaintext = some bytes) :
    labelled.openInPlace nonce' context' bytes = if context = context' then some plaintext else none := by
  obtain rfl := Option.some.inj h
  have hlength : ((List.replicate context.length (1 : UInt8) ++
      0 :: (context ++ (plaintext ++ List.replicate aesGcmTagLen 0))).takeWhile fun b => b == 1).length =
        context.length := by
    rw [List.takeWhile_append_of_pos (fun b hb => by simp [List.eq_of_mem_replicate hb]),
      List.takeWhile_cons_of_neg (by decide), List.append_nil, List.length_replicate]
  have hrest : (List.replicate context.length (1 : UInt8) ++
      0 :: (context ++ (plaintext ++ List.replicate aesGcmTagLen 0))).drop (context.length + 1) =
        context ++ (plaintext ++ List.replicate aesGcmTagLen 0) := by
    simp [List.drop_append]
  simp only [labelled, hlength, hrest]
  simp

/-- Reads the envelope that `toVec` writes. -/
def readEnvelope (cs : List Char) : Option EncryptedSecret := do
  let cs ← expect (Char.ofNat 123) cs
  let (version, cs) ← readMember "version" (some ∘ readNatural) ',' cs
  let (nonce, cs) ← readMember "nonce" readQuoted ',' cs
  let (ciphertext, cs) ← readMember "ciphertext" readQuoted (Char.ofNat 125) cs
  if cs = [] then some ⟨UInt8.ofNat version, String.ofList nonce, String.ofList ciphertext⟩ else none

theorem readEnvelope_chars (e : EncryptedSecret) :
    readEnvelope (objectChars [
      memberChars "version" (Nat.toDigits 10 e.version.toNat),
      memberChars "nonce" (quotedChars e.nonce.toList),
      memberChars "ciphertext" (quotedChars e.ciphertext.toList)]) = some e := by
  have hquoted : ∀ (name : String) (s : String) (stop : Char) (rest : List Char),
      readMember name readQuoted stop (memberChars name (quotedChars s.toList) ++ stop :: rest) = some (s.toList, rest) :=
    fun name s stop rest => readMember_memberChars name (readQuoted_quotedChars _ _)
  have hversion : ∀ rest : List Char, readMember "version" (some ∘ readNatural) ','
      (memberChars "version" (Nat.toDigits 10 e.version.toNat) ++ ',' :: rest) = some (e.version.toNat, rest) :=
    fun rest => readMember_memberChars _ (congrArg some (readNatural_toDigits _ (by decide) rest))
  rw [readEnvelope, objectChars, expect_cons, Option.bind_eq_bind, Option.bind_some]
  refine Option.bind_eq_some_iff.mpr ⟨_, hversion _, ?_⟩
  refine Option.bind_eq_some_iff.mpr ⟨_, hquoted _ e.nonce ',' _, ?_⟩
  refine Option.bind_eq_some_iff.mpr ⟨_, hquoted _ e.ciphertext (Char.ofNat 125) [], ?_⟩
  simp only [if_true, String.ofList_toList, UInt8.ofNat_toNat]

/-- Reads the texts of an array and its closing bracket; the number bounds how many there are. -/
def readElements : ℕ → List Char → Option (List String)
  | 0, _ => none
  | n + 1, cs =>
    match readQuoted cs with
    | none => none
    | some (_, []) => none
    | some (text, c :: rest) =>
      if c = ',' then (readElements n rest).map (String.ofList text :: ·)
      else if c = ']' ∧ rest = [] then some [String.ofList text] else none

theorem readElements_elementsChars {n : ℕ} {text : String} {texts : List String} (h : texts.length < n) :
    readElements n (elementsChars ((text :: texts).map fun t => quotedChars t.toList)) = some (text :: texts) := by
  induction texts generalizing n text with
  | nil =>
    obtain ⟨n, rfl⟩ := Nat.exists_eq_add_one_of_ne_zero (Nat.ne_of_gt h)
    simp [elementsChars, readElements, readQuoted_quotedChars]
  | cons text' texts ih =>
    obtain ⟨n, rfl⟩ := Nat.exists_eq_add_one_of_ne_zero (Nat.ne_of_gt (Nat.zero_lt_of_lt h))
    have hrest : readElements n (elementsChars ((text' :: texts).map fun t => quotedChars t.toList)) =
        some (text' :: texts) := ih (Nat.lt_of_succ_lt_succ h)
    rw [List.map_cons, List.map_cons, elementsChars, readElements, readQuoted_quotedChars]
    · rw [List.map_cons] at hrest
      simp only [if_true]
      rw [hrest, Option.map_some, String.ofList_toList]
    · simp

/-- Reads the array that `scopesJson` writes. -/
def readScopes (text : String) : Option (List String) :=
  match text.toList with
  | '[' :: cs => if cs = [']'] then some [] else readElements cs.length cs
  | _ => none

theorem length_le_elementsChars (elements : List (List Char)) : elements.length ≤ (elementsChars elements).length := by
  induction elements with
  | nil => simp
  | cons e elements ih =>
    cases elements with
    | nil => simp [elementsChars]
    | cons e' elements =>
      simp only [elementsChars, List.length_append, List.length_cons] at ih ⊢
      omega

theorem readScopes_scopesJson (scopes : List String) : readScopes (scopesJson scopes) = some scopes := by
  rw [readScopes, scopesJson, String.toList_ofList, arrayChars]
  cases scopes with
  | nil => rfl
  | cons scope scopes =>
    have hlength := length_le_elementsChars ((scope :: scopes).map fun s => quotedChars s.toList)
    rw [List.length_map] at hlength
    have hne : elementsChars ((scope :: scopes).map fun s => quotedChars s.toList) ≠ [']'] := by
      cases scopes <;> simp [elementsChars, quotedChars]
    show (if elementsChars ((scope :: scopes).map fun s => quotedChars s.toList) = [']'] then some []
      else readElements _ (elementsChars ((scope :: scopes).map fun s => quotedChars s.toList))) = _
    rw [if_neg hne, readElements_elementsChars hlength]

/-- The libraries together. -/
def OAuthEnv.labelled : OAuthEnv ℤ where
  cipher := ⟨Aead.labelled, Base64Url.encode, Base64Url.decode⟩
  chrono := Chrono.anyYear
  envelopeFromSlice bytes := (fromUtf8 bytes).bind fun text => readEnvelope text.toList
  scopesFromStr := readScopes

theorem OAuthEnv.labelled_reliable : labelled.Reliable Chrono.InFourDigitYears where
  correct :=
    { opens := fun _ _ _ _ h => (Aead.labelled_open h).trans (if_pos rfl)
      longer := fun nonce context plaintext bytes h _ => by
        obtain rfl := Option.some.inj h
        simp only [List.length_append, List.length_cons, List.length_replicate]
        omega }
  authenticating := fun _ _ _ _ _ h hne => (Aead.labelled_open h).trans (if_neg (Ne.symm hne))
  base64 := Base64Url.decode_encode
  envelope := fun e => by
    show (fromUtf8 (utf8 _)).bind _ = some e
    rw [fromUtf8_utf8, Option.bind_some, String.toList_ofList, readEnvelope_chars]
  scopes := readScopes_scopesJson
  reads := fun _ => Chrono.anyYear_reads
  refuses := fun _ => Chrono.anyYear_refuses

/-- A nonce. -/
def sevens : Nonce := ⟨List.replicate 12 7, rfl⟩

/-- A credential of the owner. -/
def ownerCredential (expiry : ℤ) : OAuthCredential ℤ :=
  ⟨"google", "owner", "token-1", some "refresh-1", some expiry, ["email"]⟩

/-- A save with a refresh token. -/
def ownerSave (expiry : ℤ) : OAuthCall ℤ := .save (ownerCredential expiry) (some sevens) (some sevens)

/-- An update without one, until the midnight at which 2026 begins. -/
def ownerUpdate : OAuthCall ℤ :=
  .update "google" "owner" "token-2" none 1767225600000000000 ["email"] (some sevens) none

/-- The credential is loaded with the refresh token of the save and the rest of the update. -/
theorem oauthCredentials_history_saveAndUpdate :
    (loadOauthCredential OAuthEnv.labelled "google" "owner").run
        (Machine.run (stepOauth OAuthEnv.labelled) [ownerSave 0, ownerUpdate] []) =
      .ok (⟨"google", "owner", "token-2", some "refresh-1", some 1767225600000000000, ["email"]⟩,
        Machine.run (stepOauth OAuthEnv.labelled) [ownerSave 0, ownerUpdate] []) := by
  have hsave : (ownerSave 0).succeeds OAuthEnv.labelled [] = true := by decide +kernel
  have hupdate : ownerUpdate.succeeds OAuthEnv.labelled (stepOauth OAuthEnv.labelled (ownerSave 0) []) = true := by
    decide +kernel
  have hsucceeded : succeededCalls OAuthEnv.labelled [ownerSave 0, ownerUpdate] [] = [ownerSave 0, ownerUpdate] := by
    simp [succeededCalls, Machine.outputs, hsave, hupdate]
  have hlast : lastCredential ("google", "owner") [ownerSave 0, ownerUpdate] =
      some ⟨"google", "owner", "token-2", some "refresh-1", some 1767225600000000000, ["email"]⟩ := by decide +kernel
  have hyears : Chrono.InFourDigitYears 1767225600000000000 := by decide
  have hload := (oauthCredentials_history OAuthEnv.labelled_reliable [ownerSave 0, ownerUpdate] ("google", "owner")).1
  rw [hsucceeded] at hload
  exact (hload _ hlast).2.1.mpr fun expiry hexpiry => Option.some.inj hexpiry ▸ hyears

/-- The midnight at which the year 10000 begins. -/
def yearTenThousand : ℤ := 253402300800000000000

/-- A credential that is saved with an expiry in the year 10000 is the last one of its pair, and it cannot be
loaded. -/
theorem loadOauthCredential_yearTenThousand :
    (ownerSave yearTenThousand).succeeds OAuthEnv.labelled [] = true ∧
      lastCredential ("google", "owner") [ownerSave yearTenThousand] = some (ownerCredential yearTenThousand) ∧
      (loadOauthCredential OAuthEnv.labelled "google" "owner").run
          (Machine.run (stepOauth OAuthEnv.labelled) [ownerSave yearTenThousand] []) =
        .error .storedValueInvalid := by
  have hsave : (ownerSave yearTenThousand).succeeds OAuthEnv.labelled [] = true := by decide +kernel
  have hlast : lastCredential ("google", "owner") [ownerSave yearTenThousand] =
      some (ownerCredential yearTenThousand) := by decide +kernel
  have hyears : ¬ Chrono.InFourDigitYears yearTenThousand := by decide
  refine ⟨hsave, hlast, ?_⟩
  have hholds := holds_run OAuthEnv.labelled [ownerSave yearTenThousand] ("google", "owner")
  rw [show succeededCalls OAuthEnv.labelled [ownerSave yearTenThousand] [] = [ownerSave yearTenThousand] by
    simp [succeededCalls, Machine.outputs, hsave], hlast] at hholds
  obtain ⟨-, hinYears⟩ | ⟨hload, -⟩ :=
    loadOauthCredential_run (c := ownerCredential yearTenThousand) OAuthEnv.labelled_reliable hholds
  · exact absurd (hinYears yearTenThousand rfl) hyears
  · exact hload

end AgentVoice.Store
