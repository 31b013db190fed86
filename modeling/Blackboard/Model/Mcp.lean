import Blackboard.Model.Oidc

/-!
# The tools that read and write messages (`mcp.rs`)

A call of `blackboard_read` or `blackboard_write` over `POST /mcp`, from its headers, the
tool's name and its arguments on. A caller is the principal of a bearer token, a
participant who signs, or nobody.
-/

namespace Blackboard

open Concurrent (Program)

namespace Mcp

def maxMessageBodyBytes : Nat := 64 * 1024
def maxPageSize : Nat := 200
def defaultPageSize : Nat := 50

def toolError (code : String) : Response := ⟨200, .error code⟩

/-- `parse_auth`: the proof of a call. -/
def parseAuth (arguments : Json.Object) : Except String String := do
  let auth ← match (arguments.get "auth").bind Json.Value.asObject with
    | some auth => .ok auth
    | none => .error "invalid_auth"
  if auth.length ≠ 2 ∨ Json.Object.onlyKeys auth ["scheme", "proof"] = false then
    .error "invalid_auth"
  let scheme ← match (Json.Object.get auth "scheme").bind Json.Value.asStr with
    | some scheme => .ok scheme
    | none => .error "invalid_auth"
  if scheme ≠ ParticipantAuth.authScheme then .error "unsupported_auth_scheme"
  match ((Json.Object.get auth "proof").bind Json.Value.asStr).filter fun proof =>
      decide (proof ≠ "" ∧ proof.utf8ByteSize ≤ 128) with
  | some proof => .ok proof
  | none => .error "invalid_auth"

/-! ## Reading -/

structure ReadArguments where
  channel : String
  after : Int
  limit : Nat

def parseRead (arguments : Json.Object) : Except String ReadArguments := do
  if arguments.onlyKeys ["channel", "after", "limit", "participant_id", "auth"] = false then
    .error "invalid_arguments"
  let channel ← match ((arguments.get "channel").bind Json.Value.asStr).filter Http.nameRe with
    | some channel => .ok channel
    | none => .error "invalid_channel"
  let after ← match arguments.get "after" with
    | none => .ok 0
    | some value =>
        match value.asI64.filter fun after => decide (after ≥ 0) with
        | some after => .ok after
        | none => .error "invalid_after"
  let limit ← match arguments.get "limit" with
    | none => .ok defaultPageSize
    | some value =>
        match value.asU64.filter fun limit => decide (1 ≤ limit ∧ limit ≤ maxPageSize) with
        | some limit => .ok limit
        | none => .error "invalid_limit"
  return { channel, after, limit }

def listPage (a : ReadArguments) : Program World Response := do
  let rows ← query fun db => listMessagesAfter db a.after (some a.channel) a.limit
  return ⟨200, .page rows ((rows.getLast?.map Message.id).getD a.after)⟩

variable [Sha256] [Hmac] [Base64Url]

/-- A participant asks for a page with a proof of its own. -/
def readVerified (db : Database) (participantId proof : String) (a : ReadArguments) : Bool :=
  match getWebParticipantAuth db participantId with
  | none => false
  | some auth =>
      decide (auth.authScheme = ParticipantAuth.authScheme)
        && ParticipantAuth.verifyReadProof auth.authSecret proof participantId a.channel a.after
          a.limit

def blackboardRead (arguments : Json.Object) (transportPrincipal : Option Principal) :
    Program World Response :=
  match parseRead arguments with
  | .error code => .done (toolError code)
  | .ok a =>
      let participantId := (arguments.get "participant_id").bind Json.Value.asStr
      if participantId.isSome ∨ arguments.containsKey "auth" then
        match participantId.bind validateParticipantId with
        | none => .done (toolError "invalid_participant_id")
        | some participantId =>
            match transportPrincipal with
            | some principal => do
                if ← statement fun now db =>
                    (authorize now db principal participantId readMessages (some a.channel), db)
                then listPage a
                else return toolError "forbidden"
            | none =>
                match parseAuth arguments with
                | .error code => .done (toolError code)
                | .ok proof => do
                    if ← query fun db => readVerified db participantId proof a then listPage a
                    else return toolError "unauthorized"
      else do
        if ← query fun db => channelIsPublicActive db a.channel then listPage a
        else return toolError "forbidden"

/-! ## Writing -/

def parseWrite (arguments : Json.Object) : Except String Http.WritePayload := do
  if arguments.containsKey "source" ∨ arguments.containsKey "instance" then
    .error "identity_is_server_resolved"
  if arguments.onlyKeys ["participant_id", "auth", "channel", "kind", "body", "reply_to", "nonce"]
      = false then
    .error "invalid_arguments"
  let participantId ←
    match ((arguments.get "participant_id").bind Json.Value.asStr).filter fun value =>
        decide (validateParticipantId value = some value) with
    | some participantId => .ok participantId
    | none => .error "invalid_participant_id"
  let channel ← match ((arguments.get "channel").bind Json.Value.asStr).filter Http.nameRe with
    | some channel => .ok channel
    | none => .error "invalid_channel"
  let kind ← match arguments.get "kind" with
    | none => .ok "message"
    | some value =>
        match value.asStr.filter Http.kindRe with
        | some kind => .ok kind
        | none => .error "invalid_kind"
  let body ← match ((arguments.get "body").bind Json.Value.asStr).filter fun value =>
      !Text.isBlank value && decide (value.utf8ByteSize ≤ maxMessageBodyBytes) with
    | some body => .ok body
    | none => .error "invalid_body"
  let replyTo ← match arguments.get "reply_to" with
    | none => .ok none
    | some .null => .ok none
    | some value =>
        match value.asI64.filter fun id => decide (id > 0) with
        | some id => .ok (some id)
        | none => .error "invalid_reply_to"
  let nonce ← match ((arguments.get "nonce").bind Json.Value.asStr).filter Http.nonceRe with
    | some nonce => .ok nonce
    | none => .error "invalid_nonce"
  return { channel, kind, body, replyTo, participantId, nonce }

/-- `resolve_write_identity`: the participant a call writes as. With a bearer token the kernel
decides later, otherwise the proof has to be the participant's own. -/
def resolveWriteIdentity (arguments : Json.Object) (w : Http.WritePayload)
    (transportPrincipal : Option Principal) : Program World (Except String Identity) :=
  match transportPrincipal with
  | some _ => do
      match ← query fun db => getWebParticipant db w.participantId with
      | some identity => return .ok identity
      | none => return .error "forbidden"
  | none =>
      match parseAuth arguments with
      | .error code => .done (.error code)
      | .ok proof => do
          match ← query fun db => getWebParticipantAuth db w.participantId with
          | none => return .error "unauthorized"
          | some auth =>
              if auth.authScheme ≠ ParticipantAuth.authScheme then
                return .error "unsupported_auth_scheme"
              else if ParticipantAuth.verifyWriteProof auth.authSecret proof w.participantId
                  w.channel w.kind w.body w.replyTo w.nonce = false then
                return .error "unauthorized"
              else return .ok auth.identity

def execution (transportPrincipal : Option Principal) (w : Http.WritePayload) :
    MessageExecutionRequest :=
  match transportPrincipal with
  | some principal =>
      Http.messageExecution principal Oidc.mechanism "mcp"
        ("mcp-bearer:" ++ w.participantId ++ ":" ++ w.nonce) w
  | none =>
      Http.messageExecution (Http.participantHmac w.participantId) ParticipantAuth.authScheme "mcp"
        ("mcp-hmac:" ++ w.participantId ++ ":" ++ w.nonce) w

def writeResponse : Except SqlError MessageExecutionResult → Response
  | .error _ => toolError "database_unavailable"
  | .ok (.created message) => ⟨200, .receipt (.ofMessage "created" false message)⟩
  | .ok (.existing message) => ⟨200, .receipt (.ofMessage "existing" true message)⟩
  | .ok .intentConflict => toolError "nonce_conflict"
  | .ok .replyTargetNotFound => toolError "reply_target_not_found"
  | .ok .channelArchived => toolError "channel_archived"
  | .ok .authorizationDenied => toolError "forbidden"

def blackboardWrite (arguments : Json.Object) (transportPrincipal : Option Principal) :
    Program World Response :=
  match parseWrite arguments with
  | .error code => .done (toolError code)
  | .ok w => do
      match ← resolveWriteIdentity arguments w transportPrincipal with
      | .error code => return toolError code
      | .ok writer =>
          let result ← statement fun now db =>
            executeMessageIntent now writer (execution transportPrincipal w) db
          return writeResponse result

/-! ## Calls -/

inductive Tool where
  | blackboardRead
  | blackboardWrite
  deriving DecidableEq, Repr

variable [Jwt]

/-- `resolve_http_bearer_principal`. An authorization header that is no good bearer token is an
error. -/
def resolveHttpBearerPrincipal (verifier : Option OidcVerifier) (headers : Headers) :
    Program World (Except Unit (Option Principal)) :=
  if headers.containsKey "authorization" = false then .done (.ok none)
  else
    match headers.bearerToken, verifier with
    | some token, some verifier => do
        let now ← RequestAuth.currentUnixTime
        match verifier.verify token now with
        | some principal => return .ok (some principal)
        | none => return .error ()
    | _, _ => .done (.error ())

/-- `http_tool_call_requires_auth`. -/
def httpToolCallRequiresAuth (tool : Tool) (arguments : Json.Object) : Program World Bool :=
  if arguments.containsKey "auth" then .done false
  else
    match tool with
    | .blackboardWrite => .done true
    | .blackboardRead =>
        if arguments.containsKey "participant_id" then .done true
        else
          match ((arguments.get "channel").bind Json.Value.asStr).filter Http.nameRe with
          | none => .done false
          | some channel => query fun db => !channelIsPublicActive db channel

/-- `mcp_post`, for a call of one of the tools. -/
def mcpPost (verifier : Option OidcVerifier) (headers : Headers) (tool : Tool)
    (arguments : Json.Object) : Program World Response := do
  match ← resolveHttpBearerPrincipal verifier headers with
  | .error () => return ApiError.unauthorized.response
  | .ok principal =>
      let gated := verifier.isSome ∧ principal.isNone
      if ← (if gated then httpToolCallRequiresAuth tool arguments else .done false) then return ApiError.unauthorized.response
      else
        match tool with
        | .blackboardRead => blackboardRead arguments principal
        | .blackboardWrite => blackboardWrite arguments principal

end Mcp

end Blackboard
