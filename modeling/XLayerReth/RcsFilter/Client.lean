import XLayerReth.Lib.Loops
import XLayerReth.RcsFilter.RuleUpdates
import XLayerReth.RcsFilter.Submit

/-!
# The RCS client

Model of `client.rs`: four requests, and the decoding of their responses, whose bodies arrive in
chunks and are held up to a bound.

* `HttpResponse` — a response: the chunks of its body, and the error that ended them, if one did.
* `readBody`, `decodeJson` — the loop over the chunks, and what becomes of the response.

Principal results: `readBody_eq` (the loop is one check of the whole body), `decodeJson_ok_iff`
(what is decoded) and `decodeJson_chunks` (the chunks do not matter).

The HTTP client (`send`), and `serde_json::from_slice` for the type that is decoded, are parameters.
-/

set_option autoImplicit false

namespace XLayerReth.RcsFilter

open XLayerReth.Lib

/-! ## Responses -/

/-- `MAX_RESPONSE_BODY_BYTES`. -/
def maxResponseBodyBytes : Nat := 16 * 1024 * 1024

/-- `reqwest::Error`. -/
structure TransportError where
  isTimeout : Bool
  text : String

/-- `transport_error`. -/
def transportError (error : TransportError) : FilterError :=
  if error.isTimeout then .timeout error.text else .transport error.text

/-- `response_too_large`. -/
def responseTooLarge : FilterError :=
  .decode ("RCS response body exceeds " ++ toString maxResponseBodyBytes ++ " bytes")

abbrev Bytes := List UInt8

structure HttpResponse where
  status : Nat
  contentLength : Option Nat
  /-- The chunks of the body that arrive. -/
  chunks : List Bytes
  /-- The error that ends the body; without one it is complete. -/
  failure : Option TransportError

/-- The bytes that arrive. -/
def HttpResponse.body (resp : HttpResponse) : Bytes := resp.chunks.flatten

/-- One iteration of the loop over the chunks. -/
def appendChunk (body chunk : Bytes) : Except FilterError Bytes :=
  if maxResponseBodyBytes < saturatingAdd body.length chunk.length then .error responseTooLarge
  else .ok (body ++ chunk)

/-- The loop over the chunks. -/
def readBody (resp : HttpResponse) : Except FilterError Bytes :=
  (resp.chunks.foldlM appendChunk []).bind (fun body =>
    match resp.failure with
    | some error => .error (transportError error)
    | none => .ok body)

section Decode

variable {T : Type}

/-- `decode_json`. -/
def decodeJson (fromSlice : Bytes → Except String T) (expected : Nat) (resp : HttpResponse) :
    Except FilterError T :=
  if resp.status ≠ expected then .error (.unexpectedStatus resp.status)
  else if resp.contentLength.any (fun length => maxResponseBodyBytes < length) then
    .error responseTooLarge
  else
    (readBody resp).bind (fun body =>
      match fromSlice body with
      | .ok value => .ok value
      | .error e => .error (.decode e))

end Decode

/-! ## Requests -/

structure HttpRequest (B : Type) where
  post : Bool
  path : String
  query : List (String × String)
  body : Option B

structure SubmitRequest where
  xlayerBlockHeight : Nat
  txs : List SubmitTx

structure SubmitResponse where
  accepted : List String
  rejectedMalformed : List String

inductive QueryParams where
  | status (s : String)
  | txHashes (hashes : List String)

section Requests

variable (send : HttpRequest SubmitRequest → Except TransportError HttpResponse)

/-- A request, and the decoding of its response. -/
def exchange {T : Type} (fromSlice : Bytes → Except String T) (expected : Nat)
    (req : HttpRequest SubmitRequest) : Except FilterError T :=
  match send req with
  | .error e => .error (transportError e)
  | .ok resp => decodeJson fromSlice expected resp

/-- `get_rules`. -/
def getRules (fromSlice : Bytes → Except String RulesResponse) : Except FilterError RulesResponse :=
  exchange send fromSlice 200 ⟨false, "/rules", [], none⟩

/-- `get_rules_version`. -/
def getRulesVersion (fromSlice : Bytes → Except String VersionResponse) :
    Except FilterError VersionResponse :=
  exchange send fromSlice 200 ⟨false, "/rules/version", [], none⟩

/-- `submit`: `202` is expected. -/
def submit (fromSlice : Bytes → Except String SubmitResponse) (req : SubmitRequest) :
    Except FilterError SubmitResponse :=
  exchange send fromSlice 202 ⟨true, "/permission-requests/submit", [], some req⟩

/-- `query`. -/
def query (fromSlice : Bytes → Except String (List QueryTx)) (q : QueryParams) :
    Except FilterError (List QueryTx) :=
  exchange send fromSlice 200 ⟨false, "/permission-requests/query",
    match q with
    | .status s => [("status", s)]
    | .txHashes hashes => [("tx_hashes", ",".intercalate hashes)], none⟩

end Requests

/-! ## Chunks do not matter -/

theorem saturatingAdd_le_iff (a b : Nat) :
    maxResponseBodyBytes < saturatingAdd a b ↔ maxResponseBodyBytes < a + b := by
  unfold saturatingAdd maxResponseBodyBytes
  omega

/-- The loop over the chunks is one check of the bytes they add to. -/
theorem foldlM_appendChunk : ∀ (chunks : List Bytes) (body : Bytes),
    body.length ≤ maxResponseBodyBytes → chunks.foldlM appendChunk body =
      if maxResponseBodyBytes < (body ++ chunks.flatten).length then .error responseTooLarge
      else .ok (body ++ chunks.flatten)
  | [], body, h => by
    rw [foldlM_nil, List.flatten_nil, List.append_nil, if_neg (Nat.not_lt.mpr h)]
  | chunk :: chunks, body, h => by
    rw [foldlM_cons, appendChunk, List.flatten_cons, ← List.append_assoc]
    by_cases hlarge : maxResponseBodyBytes < body.length + chunk.length
    · rw [if_pos ((saturatingAdd_le_iff _ _).mpr hlarge), if_pos]
      · rfl
      · simp only [List.length_append]
        omega
    · rw [if_neg (mt (saturatingAdd_le_iff _ _).mp hlarge)]
      exact foldlM_appendChunk chunks (body ++ chunk) (by rw [List.length_append]; omega)

/-- **The loop is one check of the whole body**, then of how it ended. -/
theorem readBody_eq (resp : HttpResponse) :
    readBody resp =
      if maxResponseBodyBytes < resp.body.length then .error responseTooLarge
      else
        match resp.failure with
        | some error => .error (transportError error)
        | none => .ok resp.body := by
  unfold readBody HttpResponse.body
  rw [foldlM_appendChunk resp.chunks [] (Nat.zero_le _), List.nil_append]
  split
  · rfl
  · rfl

/-- What is read is the whole body: it fits, and nothing cut it short. -/
theorem readBody_ok_iff (resp : HttpResponse) (body : Bytes) :
    readBody resp = .ok body ↔
      resp.body.length ≤ maxResponseBodyBytes ∧ resp.failure = none ∧ resp.body = body := by
  rw [readBody_eq]
  by_cases hlarge : maxResponseBodyBytes < resp.body.length
  · rw [if_pos hlarge]
    constructor
    · intro h
      cases h
    · rintro ⟨hsmall, -, -⟩
      omega
  · rw [if_neg hlarge]
    have hsmall := Nat.le_of_not_lt hlarge
    cases resp.failure with
    | none => simp [hsmall]
    | some error => simp

/-- A value is decoded from a whole body of the expected status, within the bound that its length
    declares and that it has. -/
theorem decodeJson_ok_iff {T : Type} (fromSlice : Bytes → Except String T) (expected : Nat)
    (resp : HttpResponse) (value : T) :
    decodeJson fromSlice expected resp = .ok value ↔
      resp.status = expected ∧ (∀ length, resp.contentLength = some length →
        length ≤ maxResponseBodyBytes) ∧ resp.body.length ≤ maxResponseBodyBytes ∧
        resp.failure = none ∧ fromSlice resp.body = .ok value := by
  have hdeclared : resp.contentLength.any (fun length => maxResponseBodyBytes < length) = true ↔
      ¬ ∀ length, resp.contentLength = some length → length ≤ maxResponseBodyBytes := by
    cases resp.contentLength with
    | none => simp
    | some length => simp
  unfold decodeJson
  by_cases hstatus : resp.status = expected
  · rw [if_neg (not_not.mpr hstatus)]
    by_cases hlength : ∀ length, resp.contentLength = some length → length ≤ maxResponseBodyBytes
    · rw [if_neg (fun h => hdeclared.mp h hlength)]
      cases hread : readBody resp with
      | error e =>
        have hno : ∀ body, readBody resp ≠ .ok body := by simp [hread]
        constructor
        · intro h
          cases h
        · rintro ⟨-, -, hsmall, hfailure, -⟩
          exact absurd ((readBody_ok_iff resp resp.body).mpr ⟨hsmall, hfailure, rfl⟩) (hno _)
      | ok body =>
        obtain ⟨hsmall, hfailure, rfl⟩ := (readBody_ok_iff resp body).mp hread
        simp only [Except.bind, hstatus, hfailure, true_and]
        cases hslice : fromSlice resp.body with
        | error e => simp
        | ok decoded =>
          simp only [Except.ok.injEq]
          exact ⟨fun h => ⟨hlength, hsmall, h⟩, fun h => h.2.2⟩
    · rw [if_pos (hdeclared.mpr hlength)]
      constructor
      · intro h
        cases h
      · rintro ⟨-, h, -⟩
        exact absurd h hlength
  · rw [if_pos hstatus]
    simp [hstatus]

/-- The buffer never holds more than the bound. -/
theorem foldlM_appendChunk_bounded (chunks : List Bytes) (body : Bytes)
    (h : chunks.foldlM appendChunk [] = .ok body) : body.length ≤ maxResponseBodyBytes := by
  rw [foldlM_appendChunk chunks [] (Nat.zero_le _), List.nil_append] at h
  split at h
  · cases h
  · rename_i hsmall
    cases h
    exact Nat.le_of_not_lt hsmall

/-- **How a body is cut into chunks does not matter**: neither to the value nor to the error. -/
theorem decodeJson_chunks {T : Type} (fromSlice : Bytes → Except String T) (expected : Nat)
    (resp : HttpResponse) {chunks : List Bytes} (h : chunks.flatten = resp.body) :
    decodeJson fromSlice expected { resp with chunks := chunks } =
      decodeJson fromSlice expected resp := by
  have hbody : HttpResponse.body { resp with chunks := chunks } = resp.body := h
  unfold decodeJson
  rw [readBody_eq, readBody_eq, hbody]

end XLayerReth.RcsFilter
