import Blackboard.Model.Http

/-!
# Bearer tokens of an identity provider (`oidc.rs`)

A token the provider has signed names a principal. `POST /api/oidc/messages/{participant}`
executes a message intent with that principal's authority.
-/

namespace Blackboard

open Concurrent (Program)

/-- The keys of a provider by key id. -/
structure OidcVerifier where
  issuer : String
  audience : String
  keys : List (String × Bytes)

/-- The principal a token stands for. -/
def OidcVerifier.verify [Jwt] (v : OidcVerifier) (token : String) (now : Nat) :
    Option Principal := do
  let (alg, kid) ← Jwt.decodeHeader token
  if alg ≠ "RS256" then none
  let key ← v.keys.lookup (← kid)
  let claims ← Jwt.decode token key v.issuer v.audience now
  let subject ← ((claims.get "sub").bind Json.Value.asStr).filter fun s => decide (s ≠ "")
  return ⟨"oidc:" ++ v.issuer, subject⟩

namespace Oidc

def maxBodyBytes : Nat := 64 * 1024
def mechanism : String := "oidc-bearer-jwt"

def validName (value : String) : Bool :=
  decide (value ≠ "" ∧ value.utf8ByteSize ≤ 128)
    && value.toList.all fun c => Text.isAsciiAlphanumeric c || ['-', '_', '.', ':'].contains c

def validKind (value : String) : Bool :=
  decide (value ≠ "" ∧ value.utf8ByteSize ≤ 32)
    && value.toList.all fun c => Text.isAsciiAlphanumeric c || ['-', '_'].contains c

/-- A body is read up to one byte beyond its bound. -/
def readJsonObject [JsonParser] (body : Bytes) : Except ApiError Json.Object :=
  if body.length > maxBodyBytes + 1 then .error (.badRequest "invalid_json")
  else if body.length > maxBodyBytes then .error ⟨413, "request_too_large"⟩
  else
    match (JsonParser.parse body).bind Json.Value.asObject with
    | some object => .ok object
    | none => .error (.badRequest "invalid_json")

/-- The message and the intent id a request asks for. -/
def parseMessage (object : Json.Object) : Except ApiError (Http.MessageFields × String) := do
  if object.onlyKeys ["channel", "kind", "body", "reply_to", "intent_id"] = false then
    .error (.badRequest "invalid_arguments")
  let fields ← Http.messageFields validName validKind object
  let intentId ←
    match ((object.get "intent_id").bind Json.Value.asStr).bind normalizeIntentId with
    | some intentId => .ok intentId
    | none => .error (.badRequest "invalid_intent_id")
  return (fields, intentId)

def execution [Sha256] (principal : Principal) (w : Http.WritePayload) : MessageExecutionRequest :=
  Http.messageExecution principal mechanism "oidc-http"
    ("oidc:" ++ principal.subject ++ ":" ++ w.participantId ++ ":" ++ w.nonce) w

def response : Except SqlError MessageExecutionResult → Response
  | .error _ => ApiError.database.response
  | .ok (.created message) => ⟨201, .message false message⟩
  | .ok (.existing message) => ⟨200, .message true message⟩
  | .ok .authorizationDenied => ApiError.forbidden.response
  | .ok .intentConflict => ApiError.response ⟨409, "intent_conflict"⟩
  | .ok .replyTargetNotFound => (ApiError.badRequest "reply_target_not_found").response
  | .ok .channelArchived => ApiError.response ⟨409, "channel_archived"⟩

variable [Sha256] [JsonParser] [Jwt]

/-- `post_message`. -/
def postMessage (verifier : OidcVerifier) (participantId : String) (headers : Headers)
    (body : Bytes) : Program World Response :=
  match validateParticipantId participantId with
  | none => .done (ApiError.badRequest "invalid_participant_id").response
  | some participantId =>
      match headers.bearerToken with
      | none => .done ApiError.unauthorized.response
      | some token => do
          let now ← RequestAuth.currentUnixTime
          match verifier.verify token now with
          | none => return ApiError.unauthorized.response
          | some principal =>
              match (readJsonObject body).bind parseMessage with
              | .error e => return e.response
              | .ok (fields, intentId) =>
                  match ← query fun db => getWebParticipant db participantId with
                  | none => return ApiError.forbidden.response
                  | some writer =>
                      let result ← statement fun now db =>
                        executeMessageIntent now writer
                          (execution principal { fields with participantId, nonce := intentId }) db
                      return response result

end Oidc

/-! ## A small provider

It has one key, and one client who may post for Alice. -/

section Sample

def sampleProvider : OidcVerifier := ⟨"https://id.example", "blackboard", [("key", [1])]⟩

/-- The tokens it has signed. -/
@[reducible] def sampleProviderJwt : Jwt where
  decodeHeader _ := some ("RS256", some "key")
  decode token _ _ _ _ :=
    [("carol-token", .object [("sub", .string "carol")]),
      ("second-token", .object [("sub", .string "carol:alice")])].lookup token

def sampleBearer (token : String) : Headers := [("authorization", some ("Bearer " ++ token))]

/-- Carol may post anywhere as Alice. -/
def sampleGrant : DurableGrant :=
  ⟨1, "oidc:https://id.example", "carol", "alice", "post_message", none, "active", 0, 0⟩

end Sample

end Blackboard
