import Blackboard.Model.AuthorizationAdmin

/-!
# The execution boundary (`execution.rs`)

Every transport that carries an intent ends in `executeMessageIntent`: one transaction
that asks the kernel, reserves the participant's intent id, appends the message, and
leaves a receipt, the ingress it came by, the authority it had and, where that authority
was a one-shot grant, its consumption.
-/

namespace Blackboard

open Relational (TxEnd transaction)
open Json (Scalar renderObject)

def postMessageCapability : String := "post_message"

structure AuthorityContext where
  principal : Principal
  mechanism : String
  deriving DecidableEq, Repr

structure IntentEnvelope where
  intentId : String
  participantId : String
  conversationRef : Option String
  capability : String
  resource : String
  requestHash : String
  deriving DecidableEq, Repr

structure IngressProvenance where
  deliveryId : String
  intentId : String
  transport : String
  externalRef : String
  principal : Principal
  deriving DecidableEq, Repr

structure MessageExecutionRequest where
  authority : AuthorityContext
  ingress : IngressProvenance
  intent : IntentEnvelope
  channel : String
  kind : String
  body : String
  replyTo : Option Int
  deriving DecidableEq, Repr

inductive MessageExecutionResult where
  | created (message : Message)
  | existing (message : Message)
  | intentConflict
  | replyTargetNotFound
  | channelArchived
  | authorizationDenied
  deriving DecidableEq, Repr

/-! ## The request hash -/

/-- The JSON text of a message request, members in key order. -/
def messageRequestText (channel kind body : String) (conversationRef : Option String)
    (replyTo : Option Int) : String :=
  renderObject [("body", .string body), ("channel", .string channel),
    ("conversation_ref", .ofOptionString conversationRef), ("kind", .string kind),
    ("reply_to", .ofOptionInt replyTo)]

example : messageRequestText "general" "message" "hi" none (some 7)
    = "\x7b\"body\":\"hi\",\"channel\":\"general\",\"conversation_ref\":null,"
      ++ "\"kind\":\"message\",\"reply_to\":7\x7d" := by
  decide +kernel

def messageRequestHash [Sha256] (channel kind body : String) (conversationRef : Option String)
    (replyTo : Option Int) : String :=
  hashToken (messageRequestText channel kind body conversationRef replyTo)

/-- The JSON text a navigation write hashes (`http.rs`). It has no conversation, so it is not the
text of an execution with the same content. -/
def navigationRequestText (channel kind body : String) (replyTo : Option Int) : String :=
  renderObject [("body", .string body), ("channel", .string channel), ("kind", .string kind),
    ("reply_to", .ofOptionInt replyTo)]

def navigationRequestHash [Sha256] (channel kind body : String) (replyTo : Option Int) : String :=
  hashToken (navigationRequestText channel kind body replyTo)

/-- The text of the message a request asks for. -/
def MessageExecutionRequest.text (r : MessageExecutionRequest) : String :=
  messageRequestText r.channel r.kind r.body r.intent.conversationRef r.replyTo

/-! ## Recording -/

/-- The row `record_execution_in_tx` writes for a delivery it has not seen. -/
def ingressRow (now : Int) (ingress : IngressProvenance) (receipt : ExecutionReceipt) : Ingress :=
  ⟨ingress.deliveryId, some receipt.participantId, ingress.intentId, ingress.transport,
    ingress.externalRef, ingress.principal.provider, ingress.principal.subject, now⟩

/-- A stored delivery is the one being recorded. -/
def sameDelivery (existing expected : Ingress) : Prop :=
  existing.participantId = expected.participantId ∧ existing.intentId = expected.intentId
    ∧ existing.transport = expected.transport ∧ existing.externalRef = expected.externalRef
    ∧ existing.principalProvider = expected.principalProvider
    ∧ existing.principalSubject = expected.principalSubject

instance (existing expected : Ingress) : Decidable (sameDelivery existing expected) :=
  inferInstanceAs (Decidable (_ ∧ _))

/-- The delivery is recorded once; a delivery id that stands for another delivery is an error. -/
def recordIngress (now : Int) (ingress : IngressProvenance) (receipt : ExecutionReceipt)
    (db : Database) : Except SqlError Database :=
  match db.ingress.find ingress.deliveryId with
  | some existing =>
      if sameDelivery existing (ingressRow now ingress receipt) then .ok db
      else .error .invalidQuery
  | none =>
      match db.ingress.tryInsert (ingressRow now ingress receipt) with
      | some rows => .ok { db with ingress := rows }
      | none => .error .constraintViolation

/-- The receipt is recorded once. The hash of a stored receipt is not compared. -/
def recordReceipt (receipt : ExecutionReceipt) (db : Database) : Except SqlError Database :=
  match db.receipts.find receipt.pair with
  | some existing =>
      if existing.capability ≠ receipt.capability ∨ existing.messageId ≠ receipt.messageId
          ∨ existing.status ≠ receipt.status then .error .invalidQuery
      else .ok db
  | none =>
      match db.receipts.tryInsert receipt with
      | some receipts => .ok { db with receipts }
      | none => .error .constraintViolation

def recordExecutionInTx (now : Int) (ingress : IngressProvenance) (receipt : ExecutionReceipt)
    (db : Database) : Except SqlError Database :=
  (recordIngress now ingress receipt db).bind (recordReceipt receipt)

def provenanceRow (receipt : ExecutionReceipt) (principal : Principal) (resource : String)
    (decision : AuthorizationDecision) : Provenance :=
  ⟨receipt.participantId, receipt.intentId, some principal.provider, some principal.subject,
    some receipt.capability, some resource, decision.source.text, decision.reason.text,
    decision.grantId⟩

def recordAuthorizationProvenanceInTx (receipt : ExecutionReceipt) (principal : Principal)
    (resource : String) (decision : AuthorizationDecision) (db : Database) :
    Except SqlError Database :=
  if decision.allowed = false then .error .invalidQuery
  else
    match db.provenance.tryInsert (provenanceRow receipt principal resource decision) with
    | some provenance => .ok { db with provenance }
    | none => .error .constraintViolation

/-! ## Executing -/

variable [Sha256]

/-- The checks before the transaction: the parts of the request agree with one another. -/
def requestConsistent (identity : Identity) (request : MessageExecutionRequest) : Prop :=
  request.authority.principal = request.ingress.principal
    ∧ request.ingress.intentId = request.intent.intentId
    ∧ identity.inst = request.intent.participantId
    ∧ request.intent.capability = postMessageCapability
    ∧ request.intent.resource = request.channel
    ∧ request.intent.requestHash
        = messageRequestHash request.channel request.kind request.body
            request.intent.conversationRef request.replyTo

instance (identity : Identity) (request : MessageExecutionRequest) :
    Decidable (requestConsistent identity request) := inferInstanceAs (Decidable (_ ∧ _))

/-- A stored message has the content the request asks for. -/
def sameContent (message : Message) (request : MessageExecutionRequest) : Prop :=
  message.channel = request.channel ∧ message.kind = request.kind ∧ message.body = request.body
    ∧ message.replyTo = request.replyTo
    ∧ message.conversationRef = request.intent.conversationRef

instance (message : Message) (request : MessageExecutionRequest) :
    Decidable (sameContent message request) := inferInstanceAs (Decidable (_ ∧ _))

def executionReceipt (request : MessageExecutionRequest) (messageId : Int) : ExecutionReceipt :=
  ⟨request.intent.participantId, request.intent.intentId, request.intent.requestHash,
    request.intent.capability, messageId, "committed"⟩

/-- The intent id was reserved before: the stored hash or the stored content has to agree. -/
def replayExecution (now : Int) (identity : Identity) (request : MessageExecutionRequest)
    (db : Database) : Except SqlError (TxEnd Database MessageExecutionResult) :=
  match db.navigationWrites.find (identity.inst, request.intent.intentId) with
  | none => .error .queryReturnedNoRows
  | some stored =>
      match messageById db stored.messageId with
      | .error e => .error e
      | .ok message =>
          if stored.requestHash ≠ request.intent.requestHash ∧ ¬ sameContent message request then
            .ok (.rollback .intentConflict)
          else
            match recordExecutionInTx now request.ingress (executionReceipt request message.id)
                db with
            | .error e => .error e
            | .ok db => .ok (.commit (.existing message) db)

/-- Consume the grant the decision asks to consume. -/
def consumeGrant (now : Int) (decision : AuthorizationDecision) (intentId : String)
    (db : Database) : Except SqlError Database :=
  match decision.consumeGrantId with
  | some grantId => consumeDelegatedGrantInTx now grantId intentId db
  | none => .ok db

/-- The intent id was free: append the message and leave the whole audit trail. -/
def firstExecution (now : Int) (identity : Identity) (request : MessageExecutionRequest)
    (decision : AuthorizationDecision) (db : Database) :
    Except SqlError (TxEnd Database MessageExecutionResult) := do
  let (message, db) ← insertReservedMessage now identity request.channel
    request.intent.conversationRef request.kind request.body request.replyTo
    request.intent.intentId db
  let receipt := executionReceipt request message.id
  let db ← recordExecutionInTx now request.ingress receipt db
  let db ← recordAuthorizationProvenanceInTx receipt request.authority.principal
    request.intent.resource decision db
  let db ← consumeGrant now decision request.intent.intentId db
  .ok (.commit (.created message) db)

/-- The body of the transaction. -/
def executeMessageIntentInTx (now : Int) (identity : Identity)
    (request : MessageExecutionRequest) (db : Database) :
    Except SqlError (TxEnd Database MessageExecutionResult) :=
  let decision := evaluateAuthorization now db request.authority.principal
    request.intent.participantId request.intent.capability (some request.intent.resource)
    (some request.intent.intentId)
  if decision.allowed = false then .ok (.rollback .authorizationDenied)
  else
    let db := ensureChannel now request.channel (some identity.inst) db
    if channelIsActive db request.channel = false then .ok (.rollback .channelArchived)
    else
      let (reserved, db) := reserveNavigation now identity.inst request.intent.intentId
        request.intent.requestHash db
      if reserved = false then replayExecution now identity request db
      else if replyTargetMissing db request.replyTo then .ok (.rollback .replyTargetNotFound)
      else firstExecution now identity request decision db

def executeMessageIntent (now : Int) (identity : Identity) (request : MessageExecutionRequest) :
    Statement MessageExecutionResult := fun db =>
  if requestConsistent identity request then
    transaction (executeMessageIntentInTx now identity request) db
  else (.error .invalidQuery, db)

/-! ## Intent ids of issues -/

def githubDeliveryId (repositoryId : Nat) (issueNumber : Int) : String :=
  "github:" ++ toString repositoryId ++ ":issue:" ++ toString issueNumber

def githubIntentId (explicit : Option String) (repositoryId : Nat) (issueNumber : Int) :
    Option String :=
  match explicit with
  | some value => normalizeIntentId value
  | none => some (githubDeliveryId repositoryId issueNumber)

end Blackboard
