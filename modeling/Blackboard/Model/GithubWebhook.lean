import Blackboard.Model.Http

/-!
# Issues as messages (`github_webhook.rs`)

A repository delivers its issue events with a signature over the body. An opened issue
whose body is a message intent is executed with the authority of the account that opened
it. The delivery id is the issue; the intent id is part of what the author may edit.
-/

namespace Blackboard

open Concurrent (Program)

namespace GithubWebhook

def githubProvider : String := "github"
def titlePrefix : String := "[blackboard]"
def maxConversationRefBytes : Nat := 256

def channelRe (s : String) : Bool := Text.isToken ['.', '_', ':', '-'] 127 s
def kindRe (s : String) : Bool := Text.isToken ['.', '_', ':', '-'] 63 s

/-! ## Signatures -/

def hexNibble (value : UInt8) : Option UInt8 :=
  if 48 ≤ value ∧ value ≤ 57 then some (value - 48)
  else if 97 ≤ value ∧ value ≤ 102 then some (value - 97 + 10)
  else if 65 ≤ value ∧ value ≤ 70 then some (value - 65 + 10)
  else none

/-- The bytes that pairs of digits stand for. -/
def decodeHex : Bytes → Option Bytes
  | high :: low :: rest => do
      let high ← hexNibble high
      let low ← hexNibble low
      return ((high <<< 4) ||| low) :: (← decodeHex rest)
  | [_] => none
  | [] => some []

def decodeHex32 (value : String) : Option Bytes :=
  if value.utf8ByteSize ≠ 64 then none else decodeHex (Text.utf8 value)

def verifyGithubSignature [Hmac] (secret signature : String) (body : Bytes) : Bool :=
  match (Text.stripPrefix "sha256=" signature).bind decodeHex32 with
  | none => false
  | some proof => Hmac.verify (Text.utf8 secret) body proof

/-! ## Events -/

structure GithubActor where
  id : Nat
  login : String

structure GithubIssue where
  number : Int
  title : String
  body : Option String
  authorAssociation : String
  user : GithubActor

structure GithubIssueEvent where
  action : String
  repositoryId : Nat
  sender : GithubActor
  issue : GithubIssue

structure BlackboardIssueIntent where
  intentId : Option String
  participantId : String
  conversationRef : Option String
  channel : String
  kind : Option String
  body : String
  replyTo : Option Int

/-- A member that may be missing or null. -/
def optional {α : Type} (parse : Json.Value → Option α) (key : String) (value : Json.Value) :
    Option (Option α) :=
  match value.get key with
  | none => some none
  | some .null => some none
  | some member => (parse member).map some

def parseActor (value : Json.Value) : Option GithubActor := do
  let id ← (← value.get "id").asU64
  let login ← (← value.get "login").asStr
  return ⟨id, login⟩

def parseIssue (value : Json.Value) : Option GithubIssue := do
  let number ← (← value.get "number").asI64
  let title ← (← value.get "title").asStr
  let body ← optional Json.Value.asStr "body" value
  let authorAssociation ← (← value.get "author_association").asStr
  let user ← parseActor (← value.get "user")
  return ⟨number, title, body, authorAssociation, user⟩

def parseEvent (value : Json.Value) : Option GithubIssueEvent := do
  let action ← (← value.get "action").asStr
  let repositoryId ← (← (← value.get "repository").get "id").asU64
  let sender ← parseActor (← value.get "sender")
  let issue ← parseIssue (← value.get "issue")
  return ⟨action, repositoryId, sender, issue⟩

/-- An intent has no members but these. -/
def parseIntent (value : Json.Value) : Option BlackboardIssueIntent := do
  let members ← value.asObject
  if Json.Object.onlyKeys members ["intent_id", "participant_id", "conversation_ref", "channel",
      "kind", "body", "reply_to"] = false then
    none
  let intentId ← optional Json.Value.asStr "intent_id" value
  let participantId ← (← value.get "participant_id").asStr
  let conversationRef ← optional Json.Value.asStr "conversation_ref" value
  let channel ← (← value.get "channel").asStr
  let kind ← optional Json.Value.asStr "kind" value
  let body ← (← value.get "body").asStr
  let replyTo ← optional Json.Value.asI64 "reply_to" value
  return ⟨intentId, participantId, conversationRef, channel, kind, body, replyTo⟩

def normalizeConversationRef : Option String → Except Unit (Option String)
  | none => .ok none
  | some value =>
      let value := Text.trim value
      if value = "" ∨ value.utf8ByteSize > maxConversationRefBytes
          ∨ Text.anyControl value = true then .error ()
      else .ok (some value)

/-! ## Deliveries -/

/-- An issue that was admitted: what it says, for whom, and who opened it. -/
structure IssueDelivery extends Http.WritePayload where
  conversationRef : Option String
  deliveryId : String
  sender : GithubActor

/-- The checks of an event, in order. -/
def admitEvent (expectedRepositoryId : Nat) (event : GithubIssueEvent) : Except ApiError Unit := do
  if event.action ≠ "opened" then .error ⟨422, "unsupported_github_action"⟩
  if event.repositoryId ≠ expectedRepositoryId then .error ⟨403, "github_repository_mismatch"⟩
  if (Text.stripPrefix titlePrefix event.issue.title).isNone then
    .error ⟨422, "not_blackboard_issue"⟩
  if event.sender.id ≠ event.issue.user.id then .error ⟨403, "github_actor_mismatch"⟩
  if ["OWNER", "MEMBER", "COLLABORATOR"].contains event.issue.authorAssociation = false then
    .error ⟨403, "github_author_not_admitted"⟩

/-- The checks of an intent. All of them answer with the same code. -/
def checkIntent (event : GithubIssueEvent) (intent : BlackboardIssueIntent) :
    Option IssueDelivery := do
  if (validateParticipantId intent.participantId).isNone ∨ channelRe intent.channel = false
      ∨ Text.isBlank intent.body = true ∨ intent.body.utf8ByteSize > Http.maxBodyBytes then none
  let kind := intent.kind.getD "message"
  if kindRe kind = false then none
  if intent.replyTo.any fun value => decide (value ≤ 0) then none
  let conversationRef ← (normalizeConversationRef intent.conversationRef).toOption
  let intentId ← githubIntentId intent.intentId event.repositoryId event.issue.number
  return {
    channel := intent.channel, kind, body := intent.body, replyTo := intent.replyTo
    participantId := intent.participantId, nonce := intentId, conversationRef
    deliveryId := githubDeliveryId event.repositoryId event.issue.number, sender := event.sender }

/-- What the server knows about the repository. -/
structure Settings where
  webhookSecret : Option String
  repositoryId : Option Nat

section

variable [Hmac] [JsonParser]

/-- The part of a delivery's handling that needs no database. -/
def parseDelivery (settings : Settings) (headers : Headers) (body : Bytes) :
    Except ApiError IssueDelivery := do
  let (secret, expectedRepositoryId) ← match settings.webhookSecret, settings.repositoryId with
    | some secret, some repositoryId => .ok (secret, repositoryId)
    | _, _ => .error ⟨503, "github_webhook_not_configured"⟩
  if headers.toStr "x-github-event" ≠ some "issues" then
    .error (.badRequest "unsupported_github_event")
  if ((headers.toStr "x-hub-signature-256").any fun signature =>
      verifyGithubSignature secret signature body) = false then
    .error ⟨401, "invalid_github_signature"⟩
  let event ← match (JsonParser.parse body).bind parseEvent with
    | some event => .ok event
    | none => .error (.badRequest "invalid_github_payload")
  admitEvent expectedRepositoryId event
  match ((event.issue.body.bind fun text => JsonParser.parse (Text.utf8 text)).bind
      parseIntent).bind (checkIntent event) with
  | some delivery => .ok delivery
  | none => .error (.badRequest "invalid_blackboard_intent")

end

def principal (sender : GithubActor) : Principal := ⟨githubProvider, toString sender.id⟩

def execution [Sha256] (d : IssueDelivery) : MessageExecutionRequest where
  authority := ⟨principal d.sender, "github-webhook-hmac-sha256"⟩
  ingress := ⟨d.deliveryId, d.nonce, "github-webhook", d.deliveryId, principal d.sender⟩
  intent := ⟨d.nonce, d.participantId, d.conversationRef, postMessageCapability, d.channel,
    messageRequestHash d.channel d.kind d.body d.conversationRef d.replyTo⟩
  channel := d.channel
  kind := d.kind
  body := d.body
  replyTo := d.replyTo

def deliveryPayload (d : IssueDelivery) (status : String) (messageId : Int) : Payload :=
  .delivery status messageId d.participantId d.conversationRef d.nonce d.deliveryId d.sender.id
    d.sender.login

def participantNotOwned : ApiError := ⟨403, "github_participant_not_owned"⟩

def response (d : IssueDelivery) : Except SqlError MessageExecutionResult → Response
  | .error .queryReturnedNoRows => participantNotOwned.response
  | .error _ => ApiError.database.response
  | .ok (.created message) => ⟨201, deliveryPayload d "created" message.id⟩
  | .ok (.existing message) => ⟨200, deliveryPayload d "existing" message.id⟩
  | .ok .intentConflict => ApiError.response ⟨409, "nonce_conflict"⟩
  | .ok .replyTargetNotFound => (ApiError.badRequest "reply_target_not_found").response
  | .ok .channelArchived => ApiError.response ⟨409, "channel_archived"⟩
  | .ok .authorizationDenied => participantNotOwned.response

/-- `github_issue_webhook`. -/
def githubIssueWebhook [Sha256] [Hmac] [JsonParser] (settings : Settings) (headers : Headers)
    (body : Bytes) : Program World Response :=
  match parseDelivery settings headers body with
  | .error e => .done e.response
  | .ok d => do
      match ← query fun db => getWebParticipant db d.participantId with
      | none => return participantNotOwned.response
      | some identity =>
          let result ← statement fun now db => executeMessageIntent now identity (execution d) db
          return response d result

end GithubWebhook

end Blackboard
