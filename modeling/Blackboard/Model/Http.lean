import Blackboard.Model.Execution
import Blackboard.Model.RequestAuth

/-!
# The routes of `http.rs` that read or write messages

A handler checks its request without the database, then runs its statements one after the
other: the first half is a function to `Except ApiError`, the second a `Program`. A write
that carries a proof looks the participant up, makes sure of the channel and appends, each
in a transaction of its own.
-/

namespace Blackboard

open Relational (Table)
open Concurrent (Program)

/-! ## Responses -/

/-- What an answered write reports about its message. -/
structure WriteReceipt where
  status : String
  idempotent : Bool
  id : Int
  source : String
  participantId : String
  channel : String
  kind : String
  replyTo : Option Int
  deriving DecidableEq, Repr

def WriteReceipt.ofMessage (status : String) (idempotent : Bool) (message : Message) :
    WriteReceipt :=
  ⟨status, idempotent, message.id, message.source, message.inst, message.channel, message.kind,
    message.replyTo⟩

inductive Payload where
  | error (code : String)
  /-- A page of a channel, oldest first. -/
  | page (messages : List Message) (latestId : Int)
  /-- A window of a channel in the order asked for. -/
  | window (messages : List Message) (order : String) (hasMore : Bool)
  | receipt (receipt : WriteReceipt)
  /-- A message that was appended or found. -/
  | message (idempotent : Bool) (message : Message)
  /-- What becomes of an issue. -/
  | delivery (status : String) (messageId : Int) (participantId : String)
      (conversationRef : Option String) (intentId deliveryId : String)
      (githubUserId : Nat) (githubLogin : String)
  | directory (channels : List ChannelSummary) (hasMore : Bool)
  | session (identity : Identity) (role : String) (session : WebAuth.WebSession)
  | accepted
  deriving DecidableEq, Repr

structure Response where
  status : Nat
  payload : Payload
  deriving DecidableEq, Repr

structure ApiError where
  status : Nat
  code : String
  deriving DecidableEq, Repr

namespace ApiError

def badRequest (code : String) : ApiError := ⟨400, code⟩
def unauthorized : ApiError := ⟨401, "unauthorized"⟩
def forbidden : ApiError := ⟨403, "forbidden"⟩
def database : ApiError := ⟨503, "database_unavailable"⟩

def response (e : ApiError) : Response := ⟨e.status, .error e.code⟩

end ApiError

namespace Response

/-- The messages a response discloses. -/
def messages (r : Response) : List Message :=
  match r.payload with
  | .page messages _ => messages
  | .window messages _ _ => messages
  | .message _ message => [message]
  | _ => []

/-- What a write reports: whether its message was there before, and its id. -/
def reported (r : Response) : Option (Bool × Int) :=
  match r.payload with
  | .receipt receipt => some (receipt.idempotent, receipt.id)
  | .message idempotent message => some (idempotent, message.id)
  | .delivery status messageId .. => some (decide (status = "existing"), messageId)
  | _ => none

end Response

@[simp] theorem ApiError.messages_response (e : ApiError) : e.response.messages = [] := rfl

namespace Http

def maxBodyBytes : Nat := 64 * 1024
def maxPageSize : Nat := 200

/-! ## Parts of a request -/

/-- Decoded query parameters in the order received. -/
abbrev Query := List (String × String)

/-- `first_query_values`: the first value of a parameter that is not empty. -/
def firstQueryValue (query : Query) (key : String) : Option String :=
  (query.filter fun pair => decide (pair.2 ≠ "")).lookup key

def nameRe (s : String) : Bool := Text.isToken ['.', '_', ':', '/', '-'] 127 s
def kindRe (s : String) : Bool := Text.isToken ['.', '_', '-'] 31 s
def nonceRe (s : String) : Bool := Text.isToken ['.', '_', '~', '-'] 127 s

def readJsonObject [JsonParser] (body : Bytes) : Except ApiError Json.Object :=
  if body.length > maxBodyBytes then .error ⟨413, "request_too_large"⟩
  else if body.isEmpty then .error (.badRequest "invalid_json")
  else
    match (JsonParser.parse body).bind Json.Value.asObject with
    | some object => .ok object
    | none => .error (.badRequest "invalid_json")

def parseAfter (query : Query) : Except ApiError Int :=
  match Text.parseI64 ((firstQueryValue query "after").getD "0") with
  | some after => if after < 0 then .error (.badRequest "invalid_query") else .ok after
  | none => .error (.badRequest "invalid_query")

def parseLimit (query : Query) (default : Nat) : Except ApiError Nat :=
  let text := (firstQueryValue query "limit").getD (if default = 50 then "50" else "100")
  match Text.parseUsize text with
  | some limit =>
      if 1 ≤ limit ∧ limit ≤ maxPageSize then .ok limit else .error (.badRequest "invalid_query")
  | none => .error (.badRequest "invalid_query")

def parseReplyTo (query : Query) : Except ApiError (Option Int) :=
  match firstQueryValue query "reply_to" with
  | none => .ok none
  | some value =>
      match (Text.parseI64 value).filter fun id => decide (id > 0) with
      | some id => .ok (some id)
      | none => .error (.badRequest "invalid_reply_to")

/-- A body of a message is not blank and not too long. -/
def checkedBody (body : Option String) : Except ApiError String :=
  match body.filter fun value => !Text.isBlank value with
  | none => .error (.badRequest "invalid_body")
  | some body =>
      if body.utf8ByteSize > maxBodyBytes then .error ⟨413, "request_too_large"⟩ else .ok body

/-- What a message says and where. -/
structure MessageFields where
  channel : String
  kind : String
  body : String
  replyTo : Option Int
  deriving DecidableEq, Repr

/-- The members `channel`, `kind`, `body` and `reply_to` of a JSON request, for the names and kinds
a route allows. -/
def messageFields (validName validKind : String → Bool) (object : Json.Object) :
    Except ApiError MessageFields := do
  let channel ← match ((object.get "channel").bind Json.Value.asStr).filter validName with
    | some channel => .ok channel
    | none => .error (.badRequest "invalid_channel")
  let kind ← match object.get "kind" with
    | none => .ok "message"
    | some value =>
        match value.asStr.filter validKind with
        | some kind => .ok kind
        | none => .error (.badRequest "invalid_kind")
  let body ← checkedBody ((object.get "body").bind Json.Value.asStr)
  let replyTo ← match object.get "reply_to" with
    | none => .ok none
    | some .null => .ok none
    | some value =>
        match value.asI64.filter fun id => decide (id > 0) with
        | some id => .ok (some id)
        | none => .error (.badRequest "invalid_reply_to")
  return { channel, kind, body, replyTo }

/-- What a participant signs when it writes. -/
structure WritePayload extends MessageFields where
  participantId : String
  nonce : String
  deriving DecidableEq, Repr

structure SignedWrite where
  payload : WritePayload
  proof : String
  deriving DecidableEq, Repr

def validProof (proof : String) : Bool := decide (proof ≠ "" ∧ proof.utf8ByteSize ≤ 256)

variable [Sha256] [Hmac] [Base64Url] [JsonParser]

/-- The participant behind a signed write: active, enrolled, and the proof is its own. -/
def signedWriter (db : Database) (w : SignedWrite) : Option Identity :=
  match getWebParticipantAuth db w.payload.participantId with
  | none => none
  | some record =>
      if record.authScheme ≠ ParticipantAuth.authScheme
          ∨ ParticipantAuth.verifyWriteProof record.authSecret w.proof w.payload.participantId
              w.payload.channel w.payload.kind w.payload.body w.payload.replyTo
              w.payload.nonce = false then
        none
      else some record.identity

/-! ## Navigation -/

def navigationRead (channel : String) (query' : Query) : Program World Response :=
  if nameRe channel = false then .done (ApiError.badRequest "invalid_channel").response
  else
    match parseAfter query', parseLimit query' 50 with
    | .ok after, .ok limit => do
        if ← query fun db => channelIsPublicActive db channel then
          let rows ← query fun db => listMessagesAfter db after (some channel) limit
          return ⟨200, .page rows ((rows.getLast?.map Message.id).getD after)⟩
        else return ApiError.response ⟨404, "channel_not_found"⟩
    | _, _ => .done (ApiError.badRequest "invalid_query").response

def parseNavigationWrite (participantId : String) (query : Query) :
    Except ApiError SignedWrite := do
  if (validateParticipantId participantId).isNone then .error .unauthorized
  let channel ← match (firstQueryValue query "channel").filter nameRe with
    | some channel => .ok channel
    | none => .error (.badRequest "invalid_channel")
  let kind ← match firstQueryValue query "kind" with
    | none => .ok "message"
    | some value => if kindRe value then .ok value else .error (.badRequest "invalid_kind")
  let body ← checkedBody (firstQueryValue query "body")
  let nonce ← match (firstQueryValue query "nonce").filter nonceRe with
    | some nonce => .ok nonce
    | none => .error (.badRequest "invalid_nonce")
  let replyTo ← parseReplyTo query
  if (firstQueryValue query "key").isSome then .error .unauthorized
  if firstQueryValue query "scheme" ≠ some ParticipantAuth.authScheme then .error .unauthorized
  let proof ← match (firstQueryValue query "proof").filter validProof with
    | some proof => .ok proof
    | none => .error .unauthorized
  return { payload := { channel, kind, body, replyTo, participantId, nonce }, proof }

/-- The input of the transaction, with the hash the route computes. -/
def WritePayload.navigationInput (w : WritePayload) : NavigationMessageInput where
  channel := w.channel
  kind := w.kind
  body := w.body
  replyTo := w.replyTo
  nonce := w.nonce
  requestHash := navigationRequestHash w.channel w.kind w.body w.replyTo

def navigationResponse : Except SqlError NavigationAppendResult → Response
  | .error _ => ApiError.database.response
  | .ok (.created message) => ⟨200, .receipt (.ofMessage "created" false message)⟩
  | .ok (.existing message) => ⟨200, .receipt (.ofMessage "existing" true message)⟩
  | .ok .nonceConflict => ⟨409, .error "nonce_conflict"⟩
  | .ok .replyTargetNotFound => ⟨400, .error "reply_target_not_found"⟩

def navigationWrite (participantId : String) (query' : Query) : Program World Response :=
  match parseNavigationWrite participantId query' with
  | .error e => .done e.response
  | .ok w => do
      match ← query fun db => signedWriter db w with
      | none => return ApiError.unauthorized.response
      | some writer =>
          if ← ensureChannelForWrite w.payload.channel (some writer.inst) then
            let result ← statement fun now db =>
              appendNavigationMessage now writer w.payload.navigationInput db
            return navigationResponse result
          else return ApiError.response ⟨409, "channel_archived"⟩

/-! ## Sessions -/

/-- `auth_totp`: a code buys a session. -/
def authTotp (key body : Bytes) : Program World Response :=
  match readJsonObject body with
  | .error e => .done e.response
  | .ok object =>
      if object.onlyKeys ["participant_id", "code"] = false then
        .done (ApiError.badRequest "invalid_auth").response
      else
        match ((object.get "participant_id").bind Json.Value.asStr).bind validateParticipantId,
            ((object.get "code").bind Json.Value.asStr).filter WebAuth.isTotpCode with
        | none, _ => .done (ApiError.badRequest "invalid_participant_id").response
        | some _, none => .done (ApiError.badRequest "invalid_auth").response
        | some participantId, some code => do
            let now ← RequestAuth.currentUnixTime
            match ← statement fun _ db => authenticateWebTotp participantId code now db with
            | .error _ => return ApiError.database.response
            | .ok none => return ApiError.unauthorized.response
            | .ok (some verified) =>
                let role ← query fun db => getWebParticipantRole db participantId
                let now ← RequestAuth.currentUnixTime
                return ⟨200, .session verified (role.getD "user")
                  (WebAuth.issueWebSessionAt key participantId .humanWeb now)⟩

/-! ## Reading -/

inductive ReadAccess where
  | guest
  | participant (identity : Identity)

def requireReadAccessForTarget (key : Bytes) (headers : Headers) (method requestTarget : String) :
    Program World (Except ApiError ReadAccess) := do
  match ← RequestAuth.verifiedWebSession key headers with
  | some session =>
      match session.sessionType with
      | .guest => return .ok .guest
      | .humanWeb =>
          match ← query fun db => getWebParticipant db session.participantId with
          | some identity => return .ok (.participant identity)
          | none => return .error .unauthorized
  | none =>
      match ← RequestAuth.resolveRequestIdentityForTarget key headers method requestTarget with
      | some identity => return .ok (.participant identity)
      | none => return .error .unauthorized

structure MessagesQuery where
  after : Int
  limit : Nat
  channel : Option String

def parseMessages (query : Query) : Except ApiError MessagesQuery := do
  let after ← parseAfter query
  let limit ← parseLimit query 100
  let channel := firstQueryValue query "channel"
  if channel.any fun value => !nameRe value then .error (.badRequest "invalid_channel")
  return { after, limit, channel }

def listMessages (q : MessagesQuery) : Program World Response := do
  let rows ← query fun db => listMessagesAfter db q.after q.channel q.limit
  return ⟨200, .page rows ((rows.getLast?.map Message.id).getD q.after)⟩

/-- `GET /api/messages`. A guest reads public channels only, a participant all of them. -/
def messages (key : Bytes) (headers : Headers) (requestTarget : String) (query' : Query) :
    Program World Response := do
  match ← requireReadAccessForTarget key headers "GET" requestTarget with
  | .error e => return e.response
  | .ok access =>
      match parseMessages query' with
      | .error e => return e.response
      | .ok q =>
          match access, q.channel with
          | .participant _, _ => listMessages q
          | .guest, none => return (ApiError.badRequest "guest_requires_channel").response
          | .guest, some channel =>
              if ← query fun db => channelIsPublicActive db channel then listMessages q
              else return ApiError.forbidden.response

def parseChannelAfterName (query : Query) : Except ApiError (Option String) :=
  match firstQueryValue query "after_name" with
  | none => .ok none
  | some value => if nameRe value then .ok (some value) else .error (.badRequest "invalid_query")

def parseChannelDirectoryLimit (query : Query) : Except ApiError Nat :=
  match Text.parseUsize ((firstQueryValue query "limit").getD "20") with
  | some limit =>
      if 1 ≤ limit ∧ limit ≤ maxChannelDirectoryWindowSize then .ok limit
      else .error (.badRequest "invalid_query")
  | none => .error (.badRequest "invalid_query")

def directoryResponse : Except SqlError (List ChannelSummary × Bool) → Response
  | .error _ => ApiError.database.response
  | .ok (channels, hasMore) => ⟨200, .directory channels hasMore⟩

/-- `GET /api/channels`. A guest sees the public channels only. -/
def channels (key : Bytes) (headers : Headers) (requestTarget : String) (query' : Query) :
    Program World Response := do
  match ← requireReadAccessForTarget key headers "GET" requestTarget with
  | .error e => return e.response
  | .ok access =>
      match parseChannelAfterName query', parseChannelDirectoryLimit query' with
      | .error e, _ => return e.response
      | .ok _, .error e => return e.response
      | .ok afterName, .ok limit =>
          let publicOnly := match access with
            | .guest => true
            | .participant _ => false
          let window ← query fun db =>
            readChannelDirectoryWindow db { afterName, limit := some limit, publicOnly }
          return directoryResponse window

/-! ## Writing -/

/-- The members of a request that make it a signed one. -/
def isSigned (object : Json.Object) : Bool :=
  object.containsKey "auth" || object.containsKey "participant_id" || object.containsKey "nonce"

def parseSignedMessage (object : Json.Object) : Except ApiError SignedWrite := do
  if object.onlyKeys ["participant_id", "channel", "kind", "body", "reply_to", "nonce", "auth"]
      = false then
    .error (.badRequest "invalid_arguments")
  let participantId ←
    match ((object.get "participant_id").bind Json.Value.asStr).bind validateParticipantId with
    | some participantId => .ok participantId
    | none => .error (.badRequest "invalid_participant_id")
  let fields ← messageFields nameRe kindRe object
  let nonce ← match ((object.get "nonce").bind Json.Value.asStr).filter nonceRe with
    | some nonce => .ok nonce
    | none => .error (.badRequest "invalid_nonce")
  let auth ← match ((object.get "auth").bind Json.Value.asObject).filter fun auth =>
      Json.Object.onlyKeys auth ["scheme", "proof"] with
    | some auth => .ok auth
    | none => .error (.badRequest "invalid_auth")
  if (Json.Object.get auth "scheme").bind Json.Value.asStr ≠ some ParticipantAuth.authScheme then
    .error (.badRequest "unsupported_auth_scheme")
  let proof ← match ((Json.Object.get auth "proof").bind Json.Value.asStr).filter validProof with
    | some proof => .ok proof
    | none => .error (.badRequest "invalid_auth")
  return { payload := { fields with participantId, nonce }, proof }

def participantHmac (participantId : String) : Principal := ⟨"participant-hmac", participantId⟩

/-- The execution of a write that a participant asked for over some transport. -/
def messageExecution (principal : Principal) (mechanism transport deliveryId : String)
    (w : WritePayload) : MessageExecutionRequest where
  authority := ⟨principal, mechanism⟩
  ingress := ⟨deliveryId, w.nonce, transport, w.nonce, principal⟩
  intent := ⟨w.nonce, w.participantId, none, postMessageCapability, w.channel,
    messageRequestHash w.channel w.kind w.body none w.replyTo⟩
  channel := w.channel
  kind := w.kind
  body := w.body
  replyTo := w.replyTo

def signedExecution (w : WritePayload) : MessageExecutionRequest :=
  messageExecution (participantHmac w.participantId) ParticipantAuth.authScheme "rest"
    ("rest-hmac:" ++ w.participantId ++ ":" ++ w.nonce) w

def signedResponse : Except SqlError MessageExecutionResult → Response
  | .error _ => ApiError.database.response
  | .ok (.created message) => ⟨201, .message false message⟩
  | .ok (.existing message) => ⟨200, .message true message⟩
  | .ok .intentConflict => ApiError.response ⟨409, "nonce_conflict"⟩
  | .ok .replyTargetNotFound => (ApiError.badRequest "reply_target_not_found").response
  | .ok .channelArchived => ApiError.response ⟨409, "channel_archived"⟩
  | .ok .authorizationDenied => ApiError.forbidden.response

def postSignedMessage (object : Json.Object) : Program World Response :=
  match parseSignedMessage object with
  | .error e => .done e.response
  | .ok w => do
      match ← query fun db => signedWriter db w with
      | none => return ApiError.unauthorized.response
      | some writer =>
          if ← ensureChannelForWrite w.payload.channel (some writer.inst) then
            let result ← statement fun now db =>
              executeMessageIntent now writer (signedExecution w.payload) db
            return signedResponse result
          else return ApiError.response ⟨409, "channel_archived"⟩

/-- The statements of a message of a session or a client, once the request is checked. -/
def appendChecked (identity : Identity) (fields : MessageFields) : Program World Response := do
  if ← ensureChannelForWrite fields.channel (some identity.inst) then
    match ← appendMessage identity fields.channel fields.kind fields.body fields.replyTo with
    | .ok message => return ⟨201, .message false message⟩
    | .error _ => return ApiError.database.response
  else return ApiError.response ⟨409, "channel_archived"⟩

def postPlainMessage (key : Bytes) (headers : Headers) (object : Json.Object) :
    Program World Response := do
  match ← RequestAuth.resolveRequestIdentity key headers with
  | none => return ApiError.unauthorized.response
  | some identity =>
      match messageFields nameRe kindRe object with
      | .error e => return e.response
      | .ok fields =>
          match fields.replyTo with
          | none => appendChecked identity fields
          | some target =>
              if ← query fun db => messageExists db target then appendChecked identity fields
              else return (ApiError.badRequest "reply_target_not_found").response

/-- `POST /api/messages`. -/
def postMessage (key : Bytes) (headers : Headers) (body : Bytes) : Program World Response := do
  let session ← RequestAuth.verifiedWebSession key headers
  if session.any fun session => decide (session.sessionType = .guest) then
    return ApiError.forbidden.response
  else
    match readJsonObject body with
    | .error e => return e.response
    | .ok object =>
        if object.containsKey "source" ∨ object.containsKey "instance" then
          return (ApiError.badRequest "identity_is_server_resolved").response
        else if isSigned object then postSignedMessage object
        else postPlainMessage key headers object

end Http

/-! ## A participant who can sign

Her secret, and the proofs of one message of hers with and without a reply target. -/

section Sample

def sampleSecretBytes : Bytes :=
  [1, 2, 3, 4, 5, 6, 7, 8, 9, 10, 11, 12, 13, 14, 15, 16, 17, 18, 19, 20, 21, 22, 23, 24, 25, 26,
    27, 28, 29, 30, 31, 32]

def sampleSecret : String := "hmac-sha256-secret:AQIDBAUGBwgJCgsMDQ4PEBESExQVFhcYGRobHB0eHyA"

/-- Alice says hello in the channel `general`. -/
def samplePayload (replyTo : Option Int) : Http.WritePayload :=
  { channel := "general", kind := "message", body := "hello", replyTo
    participantId := "alice", nonce := "intent-00000001" }

def sampleWriteBytes (replyTo : Option Int) : Bytes :=
  ParticipantAuth.canonicalWriteBytesWithIntent "alice" "general" "message" "hello" replyTo
    "intent-00000001" none

/-- The tag of the message with no reply target. -/
def sampleTag : Bytes :=
  [135, 126, 249, 41, 27, 5, 123, 235, 65, 42, 143, 147, 234, 72, 194, 120, 253, 107, 140, 16, 121,
    60, 139, 146, 81, 137, 211, 136, 132, 2, 75, 239]

/-- The tag of the message that replies to message 7. -/
def sampleReplyTag : Bytes :=
  [69, 227, 97, 5, 24, 54, 17, 158, 210, 20, 88, 171, 179, 43, 191, 161, 238, 254, 216, 107, 35,
    183, 203, 93, 197, 116, 167, 72, 106, 91, 171, 196]

def sampleProof : String := "h375KRsFe-tBKo-T6kjCeP1rjBB5PIuSUYnTiIQCS-8"

def sampleReplyProof : String := "ReNhBRg2EZ7SFFirsyu_oe7-2Gsjt8tdxXSnSGpbq8Q"

@[reducible] def sampleHmac : Hmac := .ofTable
  [((sampleSecretBytes, sampleWriteBytes none), sampleTag),
    ((sampleSecretBytes, sampleWriteBytes (some 7)), sampleReplyTag)]

@[reducible] def sampleBase64Url : Base64Url := .ofTable
  [(sampleSecretBytes, "AQIDBAUGBwgJCgsMDQ4PEBESExQVFhcYGRobHB0eHyA"),
    (sampleTag, sampleProof), (sampleReplyTag, sampleReplyProof)]

/-- A store that holds her account and nothing else. -/
def sampleStore : Database :=
  { Database.initial with
    webParticipants := Table.empty.insertOrIgnore
      { newWebParticipant "alice" "chatgpt" none with
        authScheme := some ParticipantAuth.authScheme, authSecret := some sampleSecret } }

/-- The query of her `GET /w`. -/
def sampleQuery (replyTo : Option String) (proof : String) : Http.Query :=
  [("channel", "general"), ("body", "hello"), ("nonce", "intent-00000001"),
    ("reply_to", replyTo.getD ""), ("scheme", ParticipantAuth.authScheme), ("proof", proof)]

end Sample

end Blackboard
