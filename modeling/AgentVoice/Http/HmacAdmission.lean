import AgentVoice.Auth.Request

/-!
# Admission of protected requests

`HmacAdmission` of `src/pa/http/middleware_hmac.rs`: a request body is read chunk by chunk up to a bound, the three
authentication headers are taken, and the request is verified against the replay store. Reading a body in chunks is
reading it at once (`readBoundedBody_some`), and only a request whose HMAC verified reaches the store
(`admitWithState_cases`).
-/

namespace AgentVoice.Http

open AgentVoice.Foundations AgentVoice.Auth AgentVoice.Store

/-- `MAX_HTTP_REQUEST_BODY_BYTES`. -/
def maxHttpRequestBodyBytes : ℕ := 64 * 1024

/-- `ApiError`. -/
structure ApiError where
  code : String
  message : String
  requestId : String
  deriving DecidableEq, Repr

/-- `HmacAdmissionResult`; what is accepted carries its body. -/
inductive HmacAdmissionResult where
  | accepted (body : ByteArray)
  | rejected (error : ApiError)

/-- The error code of a rejection. -/
def HmacAdmissionResult.errorCode : HmacAdmissionResult → Option String
  | .accepted _ => none
  | .rejected error => some error.code

/-! ### The rejections -/

def requestBodyTooLarge (requestId : String) : ApiError :=
  ⟨"request_body_too_large", "request body is too large", requestId⟩

/-- `rejected_required`. -/
def rejectedRequired (requestId : String) : ApiError :=
  ⟨"authentication_required", "authentication required", requestId⟩

/-- `rejected_authentication`. -/
def rejectedAuthentication (requestId : String) : ApiError :=
  ⟨"authentication_failed", "authentication failed", requestId⟩

/-- `rejected_body_invalid`. -/
def rejectedBodyInvalid (requestId : String) : ApiError :=
  ⟨"request_body_invalid", "request body is invalid", requestId⟩

/-- `rejected_replay`. -/
def rejectedReplay (requestId : String) : ApiError :=
  ⟨"authentication_replay", "authentication replay detected", requestId⟩

/-- `rejected_unavailable`. -/
def rejectedUnavailable (requestId : String) : ApiError :=
  ⟨"middleware_unavailable", "middleware is unavailable", requestId⟩

/-! ### The body -/

/-- `buffer_body`. -/
def bufferBody (body : ByteArray) : Option ByteArray := if maxHttpRequestBodyBytes < body.size then none else some body

/-- `BodyReadError`. -/
inductive BodyReadError where
  | tooLarge
  | invalid
  deriving DecidableEq, Repr

/-- The loop of `read_bounded_body`, over the chunks of the stream; a chunk that fails to arrive is `none`. -/
def readChunks (buffered : ByteArray) : List (Option ByteArray) → Except BodyReadError ByteArray
  | [] => .ok buffered
  | none :: _ => .error .invalid
  | some chunk :: rest =>
    if maxHttpRequestBodyBytes - buffered.size < chunk.size then .error .tooLarge
    else readChunks (buffered ++ chunk) rest

/-- `read_bounded_body`. -/
def readBoundedBody (body : List (Option ByteArray)) : Except BodyReadError ByteArray := readChunks .empty body

/-- The bytes of all chunks. -/
def concat (chunks : List ByteArray) : ByteArray := chunks.foldr (· ++ ·) .empty

theorem readChunks_some {buffered : ByteArray} (hsize : buffered.size ≤ maxHttpRequestBodyBytes)
    (chunks : List ByteArray) :
    readChunks buffered (chunks.map some) =
      if maxHttpRequestBodyBytes < (buffered ++ concat chunks).size then .error .tooLarge
      else .ok (buffered ++ concat chunks) := by
  induction chunks generalizing buffered with
  | nil =>
    rw [concat, List.foldr_nil, ByteArray.append_empty, if_neg (Nat.not_lt.mpr hsize)]
    rfl
  | cons chunk rest ih =>
    have hbytes : buffered ++ concat (chunk :: rest) = buffered ++ chunk ++ concat rest := by
      rw [concat, List.foldr_cons, ← concat, ByteArray.append_assoc]
    rw [hbytes, List.map_cons, readChunks]
    by_cases hfits : maxHttpRequestBodyBytes - buffered.size < chunk.size
    · rw [if_pos hfits, if_pos]
      simp only [ByteArray.size_append]
      omega
    · rw [if_neg hfits, ih]
      rw [ByteArray.size_append]
      omega

/-- **A body read in chunks is the body.** -/
theorem readBoundedBody_some (chunks : List ByteArray) :
    readBoundedBody (chunks.map some) =
      if maxHttpRequestBodyBytes < (concat chunks).size then .error .tooLarge else .ok (concat chunks) := by
  rw [readBoundedBody, readChunks_some (Nat.zero_le _), ByteArray.empty_append]

theorem bufferBody_eq_some_iff {body buffered : ByteArray} :
    bufferBody body = some buffered ↔ body.size ≤ maxHttpRequestBodyBytes ∧ body = buffered := by
  unfold bufferBody
  split
  next h => simp [Nat.not_le.mpr h]
  next h => simp [Nat.not_lt.mp h]

/-! ### The headers -/

/-- `HeaderMap`: values under names in lower case, in the order they were added. -/
abbrev HeaderMap := List (String × ByteArray)

/-- `to_ascii_lowercase`. -/
def toAsciiLowercase (s : String) : String := String.ofList (s.toList.map Char.toLower)

/-- `get_all`. -/
def HeaderMap.getAll (headers : HeaderMap) (name : String) : List ByteArray :=
  (headers.filter fun header => header.1 == toAsciiLowercase name).map Prod.snd

/-- `HeaderCardinality`. -/
inductive HeaderCardinality where
  | missing
  | duplicate
  deriving DecidableEq, Repr

/-- `required_header`. -/
def requiredHeader (headers : HeaderMap) (name : String) : Except HeaderCardinality ByteArray :=
  match headers.getAll name with
  | [] => .error .missing
  | [value] => .ok value
  | _ :: _ :: _ => .error .duplicate

/-- A header of a request, with the rejections for its absence and its repetition. -/
def admittedHeader (headers : HeaderMap) (name requestId : String) : Except ApiError ByteArray :=
  match requiredHeader headers name with
  | .ok value => .ok value
  | .error .missing => .error (rejectedRequired requestId)
  | .error .duplicate => .error (rejectedAuthentication requestId)

/-! ### Admission -/

/-- A request as the adapter gets it, without its body. -/
structure RequestHead where
  method : ByteArray
  pathAndQuery : String
  headers : HeaderMap
  requestId : String

/-- The part of `admit_with_state` before the verification. -/
def signedRequest (head : RequestHead) (body : ByteArray) : Except ApiError SignedRequest := do
  let body ← okOr (bufferBody body) (requestBodyTooLarge head.requestId)
  let method ← okOr (String.fromUTF8? head.method) (rejectedAuthentication head.requestId)
  let timestamp ← admittedHeader head.headers "X-AV-Timestamp" head.requestId
  let nonce ← admittedHeader head.headers "X-AV-Nonce" head.requestId
  let signature ← admittedHeader head.headers "X-AV-Signature" head.requestId
  return ⟨method, head.pathAndQuery, timestamp, nonce, signature, body⟩

/-- `StoreReplayGuard`: the store, and `persistence_failed`. -/
def storeReplayGuard : ReplayGuard (List NonceRow × Bool) where
  checkAndRecord storage nonce now guard :=
    if storage then
      match (consumeReplayNonce nonce now).commit guard.1 with
      | (.ok consumed, rows) => (consumed, (rows, guard.2))
      | (.error _, rows) => (false, (rows, true))
    else (false, (guard.1, true))

/-- The last `match` of `admit_with_state`: what the caller of a verified or refused request gets. -/
def verificationResult (requestId : String) (body : ByteArray) (result : Except AuthError Unit)
    (persistenceFailed : Bool) : HmacAdmissionResult :=
  match result with
  | .ok () => .accepted body
  | .error .nonceReplay =>
    .rejected (if persistenceFailed then rejectedUnavailable requestId else rejectedReplay requestId)
  | .error _ =>
    .rejected (if persistenceFailed then rejectedUnavailable requestId else rejectedAuthentication requestId)

theorem verificationResult_error (requestId : String) (body : ByteArray) (e : AuthError) (persistenceFailed : Bool) :
    ∃ error, verificationResult requestId body (.error e) persistenceFailed = .rejected error ∧
      error.code ≠ "request_body_too_large" := by
  cases e <;> cases persistenceFailed <;>
    exact ⟨_, rfl, by simp [rejectedUnavailable, rejectedReplay, rejectedAuthentication]⟩

/-- The adapter with what it is given: the secret, the clock's time, and whether the database answers. -/
structure Admission where
  crypto : Crypto
  secret : ByteArray
  now : Int64
  storage : Bool

namespace Admission

variable (admission : Admission)

/-- `admit_with_state`. -/
def admitWithState (head : RequestHead) (body : ByteArray) (rows : List NonceRow) : HmacAdmissionResult × List NonceRow :=
  match signedRequest head body with
  | .error error => (.rejected error, rows)
  | .ok request =>
    let verified := verifyRequest admission.crypto storeReplayGuard admission.storage admission.secret request
      admission.now (rows, false)
    (verificationResult head.requestId request.body verified.1 verified.2.2, verified.2.1)

/-- `admit_at`. -/
def admitAt (head : RequestHead) (body : ByteArray) (rows : List NonceRow) : HmacAdmissionResult × List NonceRow :=
  admission.admitWithState head body rows

/-- `admit_body`. -/
def admitBody (head : RequestHead) (body : List (Option ByteArray)) (rows : List NonceRow) :
    HmacAdmissionResult × List NonceRow :=
  match readBoundedBody body with
  | .ok body => admission.admitAt head body rows
  | .error .tooLarge => (.rejected (requestBodyTooLarge head.requestId), rows)
  | .error .invalid => (.rejected (rejectedBodyInvalid head.requestId), rows)

/-! ### What an admission does -/

theorem signedRequest_too_large {head : RequestHead} {body : ByteArray} (h : maxHttpRequestBodyBytes < body.size) :
    signedRequest head body = .error (requestBodyTooLarge head.requestId) := by
  rw [signedRequest, bufferBody, if_pos h]
  rfl

theorem admittedHeader_code {headers : HeaderMap} {name requestId : String} {error : ApiError}
    (h : admittedHeader headers name requestId = .error error) : error.code ≠ "request_body_too_large" := by
  unfold admittedHeader at h
  split at h
  · cases h
  · cases h
    simp [rejectedRequired]
  · cases h
    simp [rejectedAuthentication]

/-- A body that fits is not what a request is refused for. -/
theorem signedRequest_code {head : RequestHead} {body : ByteArray} {error : ApiError}
    (hsize : body.size ≤ maxHttpRequestBodyBytes) (h : signedRequest head body = .error error) :
    error.code ≠ "request_body_too_large" := by
  rw [signedRequest, bufferBody, if_neg (Nat.not_lt.mpr hsize), okOr_some, ok_bind] at h
  rcases bind_eq_error_iff.mp h with h | ⟨_, -, h⟩
  · cases hmethod : String.fromUTF8? head.method with
    | none =>
      rw [hmethod] at h
      cases h
      simp [rejectedAuthentication]
    | some method =>
      rw [hmethod] at h
      cases h
  rcases bind_eq_error_iff.mp h with h | ⟨_, -, h⟩
  · exact admittedHeader_code h
  rcases bind_eq_error_iff.mp h with h | ⟨_, -, h⟩
  · exact admittedHeader_code h
  rcases bind_eq_error_iff.mp h with h | ⟨_, -, h⟩
  · exact admittedHeader_code h
  · cases h

theorem signedRequest_body {head : RequestHead} {body : ByteArray} {request : SignedRequest}
    (h : signedRequest head body = .ok request) : request.body = body ∧ body.size ≤ maxHttpRequestBodyBytes := by
  unfold signedRequest at h
  simp only [bind_eq_ok_iff, okOr_eq_ok_iff, bufferBody_eq_some_iff, pure_eq_ok, Except.ok.injEq] at h
  obtain ⟨_, ⟨hsize, rfl⟩, _, -, _, -, _, -, _, -, rfl⟩ := h
  exact ⟨rfl, hsize⟩

/-- The outcomes of an admission: refused before the store is asked, accepted, or refused by the store. -/
theorem admitWithState_cases (head : RequestHead) (body : ByteArray) (rows : List NonceRow) :
    (∃ error, admission.admitWithState head body rows = (.rejected error, rows) ∧
        (error.code = "request_body_too_large" ↔ maxHttpRequestBodyBytes < body.size)) ∨
      body.size ≤ maxHttpRequestBodyBytes ∧
        ((∃ request nonce, signedRequest head body = .ok request ∧
            Verified admission.crypto admission.secret request nonce ∧
            (admission.admitWithState head body rows).1 = .accepted body) ∨
          (admission.admitWithState head body rows).1 = .rejected (rejectedReplay head.requestId) ∨
          (admission.admitWithState head body rows).1 = .rejected (rejectedUnavailable head.requestId)) := by
  unfold admitWithState
  cases hrequest : signedRequest head body with
  | error error =>
    refine Or.inl ⟨error, rfl, ?_⟩
    by_cases hsize : maxHttpRequestBodyBytes < body.size
    · rw [signedRequest_too_large hsize] at hrequest
      cases hrequest
      simp [requestBodyTooLarge, hsize]
    · exact iff_of_false (signedRequest_code (Nat.not_lt.mp hsize) hrequest) hsize
  | ok request =>
    obtain ⟨hbody, hsize⟩ := signedRequest_body hrequest
    cases hauth : authenticate admission.crypto admission.secret request admission.now with
    | error e =>
      -- The store was not asked, and holds what it held.
      have hverify : verifyRequest admission.crypto storeReplayGuard admission.storage admission.secret request
          admission.now (rows, false) = (.error e, (rows, false)) := by rw [verifyRequest, hauth]
      obtain ⟨error, hresult, hcode⟩ := verificationResult_error head.requestId request.body e false
      simp only [hverify]
      exact Or.inl ⟨error, by rw [hresult], iff_of_false hcode (Nat.not_lt.mpr hsize)⟩
    | ok nonce =>
      rcases hcheck : storeReplayGuard.checkAndRecord admission.storage nonce admission.now (rows, false) with
        ⟨fresh, rows', persistenceFailed⟩
      have hverify : verifyRequest admission.crypto storeReplayGuard admission.storage admission.secret request
          admission.now (rows, false) =
          (if fresh then .ok () else .error .nonceReplay, (rows', persistenceFailed)) := by
        rw [verifyRequest, hauth]
        simp only [hcheck]
      simp only [hverify]
      refine Or.inr ⟨hsize, ?_⟩
      cases fresh with
      | true => exact Or.inl ⟨request, nonce, rfl, (authenticate_eq_ok hauth).1, by rw [← hbody]; rfl⟩
      | false =>
        cases persistenceFailed with
        | true => exact Or.inr (Or.inr rfl)
        | false => exact Or.inr (Or.inl rfl)

theorem admitBody_chunks (head : RequestHead) (chunks : List ByteArray) (rows : List NonceRow) :
    admission.admitBody head (chunks.map some) rows = admission.admitAt head (concat chunks) rows := by
  rw [admitBody, readBoundedBody_some]
  by_cases hsize : maxHttpRequestBodyBytes < (concat chunks).size
  · rw [if_pos hsize, admitAt, admitWithState, signedRequest_too_large hsize]
  · rw [if_neg hsize]

/-- **Admission does not depend on the chunks.** A body of any chunks is admitted as its bytes are; it is too large
exactly when they are; what is accepted is what was verified; and a request that is rejected for anything but a replay
or a failure of the store leaves the store as it was. -/
theorem hmacAdmission_chunks (admission : Admission) (head : RequestHead) (rows : List NonceRow) :
    (∀ chunks : List ByteArray,
      ((concat chunks).size ≤ maxHttpRequestBodyBytes →
        admission.admitBody head (chunks.map some) rows = admission.admitAt head (concat chunks) rows) ∧
      ((admission.admitBody head (chunks.map some) rows).1.errorCode = some "request_body_too_large" ↔
        maxHttpRequestBodyBytes < (concat chunks).size) ∧
      ∀ body, (admission.admitBody head (chunks.map some) rows).1 = .accepted body →
        body = concat chunks ∧ ∃ request nonce, signedRequest head body = .ok request ∧ request.body = body ∧
          Verified admission.crypto admission.secret request nonce) ∧
    ∀ stream error, (admission.admitBody head stream rows).1 = .rejected error →
      error.code ≠ "authentication_replay" → error.code ≠ "middleware_unavailable" →
      (admission.admitBody head stream rows).2 = rows := by
  constructor
  · intro chunks
    rw [admitBody_chunks, admitAt]
    refine ⟨fun _ => rfl, ?_⟩
    rcases admission.admitWithState_cases head (concat chunks) rows with
      ⟨error, heq, hcode⟩ | ⟨hsize, ⟨request, nonce, hrequest, hverified, heq⟩ | heq | heq⟩
    · rw [heq]
      exact ⟨by simp [HmacAdmissionResult.errorCode, hcode], nofun⟩
    · rw [heq]
      refine ⟨iff_of_false nofun (Nat.not_lt.mpr hsize), fun body haccepted => ?_⟩
      cases haccepted
      exact ⟨rfl, request, nonce, hrequest, (signedRequest_body hrequest).1, hverified⟩
    · rw [heq]
      exact ⟨iff_of_false (by simp [HmacAdmissionResult.errorCode, rejectedReplay]) (Nat.not_lt.mpr hsize), nofun⟩
    · rw [heq]
      exact ⟨iff_of_false (by simp [HmacAdmissionResult.errorCode, rejectedUnavailable]) (Nat.not_lt.mpr hsize), nofun⟩
  · intro stream error hrejected hreplay hunavailable
    unfold admitBody at hrejected ⊢
    split at hrejected
    · rcases admission.admitWithState_cases head _ rows with
        ⟨_, heq, -⟩ | ⟨-, ⟨_, _, -, -, heq⟩ | heq | heq⟩
      · rw [admitAt, heq]
      · rw [admitAt, heq] at hrejected
        cases hrejected
      · rw [admitAt, heq] at hrejected
        cases hrejected
        exact absurd rfl hreplay
      · rw [admitAt, heq] at hrejected
        cases hrejected
        exact absurd rfl hunavailable
    · rfl
    · rfl

end Admission

end AgentVoice.Http
