import Blackboard.Model.Access
import Blackboard.Model.Audit
import Blackboard.Model.Mcp
import Blackboard.Model.PolicyAudit
import Blackboard.Model.PolicyWindow

/-!
# Every tool (`mcp.rs`)

A `tools/call` body names one of eleven tools. Two read and write messages (`Mcp`); the
others report on grants, executions and decisions, and each wants its caller to be
known: a bearer token, or a proof of the participant.

Before a tool runs without a bearer token, `httpToolCallBodyRequiresAuth` reads the same
body and decides whether the client has to come back with one.
-/

namespace Blackboard

open Concurrent (Program)
open Relational (orderBy)

namespace Mcp

/-! ## Reports -/

structure AccessContext where
  participantId : String
  principal : Principal
  capabilities : List String
  grants : List EffectiveGrant
  adapter : String

inductive Report where
  | accessContext (context : AccessContext)
  | execution (receipt : ExecutionReceipt)
  | audit (bundle : ExecutionAuditBundle)
  | integrity (report : ExecutionAuditIntegrityReport)
  | sweep (report : ExecutionAuditSweepReport)
  | decision (explanation : AuthorizationDecisionExplanation)
  | history (window : AuthorizationAdministrationHistoryWindow)
  | policy (window : AuthorizationPolicyWindow)
  | policyIntegrity (report : AuthorizationIntegrityReport)

/-- What a call answers with: messages, a report, or the code of an error. -/
inductive ToolResult where
  | message (response : Response)
  | report (result : Except String Report)

/-- The code of a `tool_error`. A success has none. -/
def ToolResult.code : ToolResult → Option String
  | .message ⟨_, .error code⟩ => some code
  | .message _ => none
  | .report (.error code) => some code
  | .report (.ok _) => none

/-! ## Arguments -/

/-- The participant a call is made for, in the form the directory keeps it. -/
def exactParticipantId (arguments : Json.Object) : Except String String :=
  match ((arguments.get "participant_id").bind Json.Value.asStr).filter fun value =>
      decide (validateParticipantId value = some value) with
  | some participantId => .ok participantId
  | none => .error "invalid_participant_id"

/-- A call that says nothing but who it is for. -/
def parseParticipant (arguments : Json.Object) : Except String String := do
  if arguments.onlyKeys ["participant_id", "auth"] = false then .error "invalid_arguments"
  exactParticipantId arguments

structure ExecutionArguments where
  participantId : String
  intentId : String

def parseExecution (arguments : Json.Object) : Except String ExecutionArguments := do
  if arguments.onlyKeys ["participant_id", "intent_id", "auth"] = false then
    .error "invalid_arguments"
  let participantId ← exactParticipantId arguments
  match ((arguments.get "intent_id").bind Json.Value.asStr).bind normalizeIntentId with
  | some intentId => .ok { participantId, intentId }
  | none => .error "invalid_intent_id"

/-- A text that may be missing or null. -/
def optionalText (value : Option Json.Value) (code : String) : Except String (Option String) :=
  match value with
  | none => .ok none
  | some .null => .ok none
  | some (.string text) => .ok (some text)
  | some _ => .error code

def text (arguments : Json.Object) (key code : String) : Except String String :=
  match (arguments.get key).bind Json.Value.asStr with
  | some value => .ok value
  | none => .error code

structure DecisionArguments where
  participantId : String
  target : AuthorizationDecisionTarget

def parseDecision (arguments : Json.Object) : Except String DecisionArguments := do
  if arguments.onlyKeys ["participant_id", "auth", "principal_provider", "principal_subject",
      "target_participant_id", "capability", "resource", "intent_id"] = false then
    .error "invalid_arguments"
  let participantId ← exactParticipantId arguments
  let principalProvider ← text arguments "principal_provider" "invalid_principal_provider"
  let principalSubject ← text arguments "principal_subject" "invalid_principal_subject"
  let targetParticipantId ← text arguments "target_participant_id" "invalid_participant_id"
  let capability ← text arguments "capability" "invalid_capability"
  let resource ← optionalText (arguments.get "resource") "invalid_resource"
  let intentId ← optionalText (arguments.get "intent_id") "invalid_intent_id"
  let target ← normalizeAuthorizationDecisionTarget principalProvider principalSubject
    targetParticipantId capability resource intentId
  return { participantId, target }

/-- The part of a window two tools ask for alike. -/
structure WindowArguments where
  before : Option Int
  after : Option Int
  limit : Option Nat
  order : Option String

/-- A row id that may be missing or null. -/
def parseCursor (value : Option Json.Value) (code : String) : Except String (Option Int) :=
  match value with
  | none => .ok none
  | some .null => .ok none
  | some value =>
      match value.asI64.filter fun id => decide (id > 0) with
      | some id => .ok (some id)
      | none => .error code

def parseWindow (arguments : Json.Object) (max : Nat) (code : String) :
    Except String WindowArguments := do
  let before ← parseCursor (arguments.get "before") code
  let after ← parseCursor (arguments.get "after") code
  let limit ← match arguments.get "limit" with
    | none => .ok none
    | some value =>
        match value.asU64.filter fun limit => decide (1 ≤ limit ∧ limit ≤ max) with
        | some limit => .ok (some limit)
        | none => .error code
  let order ← match arguments.get "order" with
    | none => .ok none
    | some value =>
        match value.asStr.filter fun order => (WindowOrder.parse (some order)).isSome with
        | some order => .ok (some order)
        | none => .error code
  let parsedOrder := (WindowOrder.parse order).getD .desc
  if (before.isSome ∧ after.isSome) ∨ (parsedOrder = .desc ∧ after.isSome)
      ∨ (parsedOrder = .asc ∧ before.isSome) then
    .error code
  return { before, after, limit, order }

structure HistoryArguments where
  participantId : String
  filterParticipantId : Option String
  window : WindowArguments

def parseHistory (arguments : Json.Object) : Except String HistoryArguments := do
  if arguments.onlyKeys ["participant_id", "filter_participant_id", "before", "after", "limit",
      "order", "auth"] = false then
    .error "invalid_arguments"
  let participantId ← exactParticipantId arguments
  let filterParticipantId ←
    match ← optionalText (arguments.get "filter_participant_id") "invalid_filter_participant_id" with
    | none => .ok none
    | some value =>
        if validateParticipantId value = some value then .ok (some value)
        else .error "invalid_filter_participant_id"
  let window ← parseWindow arguments maxAdministrationHistoryWindowSize "invalid_history_window"
  return { participantId, filterParticipantId, window }

structure PolicyArguments where
  participantId : String
  store : String
  window : WindowArguments

def parsePolicy (arguments : Json.Object) : Except String PolicyArguments := do
  if arguments.onlyKeys ["participant_id", "store", "before", "after", "limit", "order", "auth"]
      = false then
    .error "invalid_arguments"
  let participantId ← exactParticipantId arguments
  let store ← match ((arguments.get "store").bind Json.Value.asStr).filter fun value =>
      (AuthorizationPolicyStore.parse value).isSome with
    | some store => .ok store
    | none => .error "invalid_policy_window"
  let window ← parseWindow arguments maxAuthorizationPolicyWindowSize "invalid_policy_window"
  return { participantId, store, window }

/-! ## Callers -/

variable [Sha256] [Hmac] [Base64Url]

/-- The participant whose own proof a call carries, for what `verify` makes of the secret and the
proof. -/
def resolveSignedIdentity (arguments : Json.Object) (participantId : String)
    (verify : String → String → Bool) : Program World (Except String Identity) :=
  match parseAuth arguments with
  | .error code => .done (.error code)
  | .ok proof => do
      match ← query fun db => getWebParticipantAuth db participantId with
      | none => return .error "unauthorized"
      | some auth =>
          if auth.authScheme ≠ ParticipantAuth.authScheme then
            return .error "unsupported_auth_scheme"
          else if verify auth.authSecret proof = false then return .error "unauthorized"
          else return .ok auth.identity

def resolveCapabilityIdentity (arguments : Json.Object) (participantId capability : String)
    (resource : Option String) : Program World (Except String Identity) :=
  resolveSignedIdentity arguments participantId fun secret proof =>
    ParticipantAuth.verifyCapabilityProof secret proof participantId capability resource

/-- The part of `blackboard_authorization_decision` that knows its caller: the proof covers the
question. -/
def resolveDecisionIdentity (arguments : Json.Object) (a : DecisionArguments) :
    Program World (Except String Identity) :=
  resolveSignedIdentity arguments a.participantId fun secret proof =>
    ParticipantAuth.verifyMessageProof secret proof
      (ParticipantAuth.canonicalAuthorizationDecisionBytes a.participantId
        a.target.principal.provider a.target.principal.subject a.target.participantId
        a.target.capability a.target.resource a.target.intentId)

/-- The principal of the bearer token, or else the participant that signed. -/
def callerPrincipal (participantId : String) (transportPrincipal : Option Principal)
    (identity : Program World (Except String Identity)) :
    Program World (Except String Principal) :=
  match transportPrincipal with
  | some principal => .done (.ok principal)
  | none => do
      match ← identity with
      | .error code => return .error code
      | .ok _ => return .ok (Http.participantHmac participantId)

/-- `resolve_capability_principal`. The principal of a bearer token is asked about first. -/
def resolveCapabilityPrincipal (arguments : Json.Object) (participantId capability : String)
    (resource : Option String) (transportPrincipal : Option Principal) :
    Program World (Except String Principal) :=
  match transportPrincipal with
  | some principal => do
      if ← statement fun now db =>
          (authorize now db principal participantId capability resource, db)
      then return .ok principal
      else return .error "forbidden"
  | none =>
      callerPrincipal participantId none
        (resolveCapabilityIdentity arguments participantId capability resource)

/-! ## The tools that report -/

/-- A tool that answers `denied` when the policy says no and when there is nothing to report. -/
def authorizedReport (caller : Program World (Except String Principal))
    (participantId capability : String) (resource : Option String) (denied : String)
    (report : Database → Option Report) : Program World (Except String Report) := do
  match ← caller with
  | .error code => return .error code
  | .ok principal => statement fun now db =>
      (if authorize now db principal participantId capability resource then
          required (report db) denied
        else .error denied, db)

/-- A tool that asks the kernel to explain itself. -/
def explainedReport (caller : Program World (Except String Principal))
    (participantId capability resource : String)
    (report : Int → Database → Except SqlError Report) :
    Program World (Except String Report) := do
  match ← caller with
  | .error code => return .error code
  | .ok principal => statement fun now db =>
      (if (explainAuthorization now db
          ⟨principal, participantId, capability, some resource, none⟩).allowed = false then
          .error "forbidden"
        else
          match report now db with
          | .ok report => .ok report
          | .error _ => .error "database_unavailable", db)

def capabilitiesOf (grants : List EffectiveGrant) : List String :=
  (orderBy (fun a b : String => a ≤ b) (grants.map EffectiveGrant.capability)).dedup

def blackboardAccessContext (arguments : Json.Object) (transportPrincipal : Option Principal) :
    Program World (Except String Report) :=
  match parseParticipant arguments with
  | .error code => .done (.error code)
  | .ok participantId => do
      match ← callerPrincipal participantId transportPrincipal
          (resolveCapabilityIdentity arguments participantId "access_context" none) with
      | .error code => return .error code
      | .ok principal =>
          let grants ← statement fun now db => (effectiveGrants now db principal participantId, db)
          if transportPrincipal.isSome ∧ grants = [] then return .error "forbidden"
          else
            return .ok (.accessContext
              ⟨participantId, principal, capabilitiesOf grants, grants, "mcp"⟩)

/-- The three tools about one execution. -/
def executionReport (arguments : Json.Object) (capability denied : String)
    (report : Database → ExecutionArguments → Option Report)
    (transportPrincipal : Option Principal) : Program World (Except String Report) :=
  match parseExecution arguments with
  | .error code => .done (.error code)
  | .ok a =>
      authorizedReport
        (resolveCapabilityPrincipal arguments a.participantId capability (some a.intentId)
          transportPrincipal)
        a.participantId capability (some a.intentId) denied fun db => report db a

def blackboardExecutionReceipt (arguments : Json.Object) (transportPrincipal : Option Principal) :
    Program World (Except String Report) :=
  executionReport arguments readExecutionReceipt "execution_not_found"
    (fun db a => (getExecutionReceipt db a.participantId a.intentId).map .execution)
    transportPrincipal

def blackboardExecutionAudit (arguments : Json.Object) (transportPrincipal : Option Principal) :
    Program World (Except String Report) :=
  executionReport arguments readExecutionAudit "execution_not_found"
    (fun db a => (getExecutionAuditBundle db a.participantId a.intentId).map .audit)
    transportPrincipal

def blackboardExecutionAuditIntegrity (arguments : Json.Object)
    (transportPrincipal : Option Principal) : Program World (Except String Report) :=
  executionReport arguments readExecutionAudit "forbidden"
    (fun db a => some (.integrity (verifyExecutionAuditIntegrity db a.participantId a.intentId)))
    transportPrincipal

/-- The two tools about the whole store. -/
def storeReport (arguments : Json.Object) (capability resource : String)
    (report : Database → Report) (transportPrincipal : Option Principal) :
    Program World (Except String Report) :=
  match parseParticipant arguments with
  | .error code => .done (.error code)
  | .ok participantId =>
      authorizedReport
        (resolveCapabilityPrincipal arguments participantId capability (some resource)
          transportPrincipal)
        participantId capability (some resource) "forbidden" fun db => some (report db)

def blackboardExecutionAuditSweep (arguments : Json.Object)
    (transportPrincipal : Option Principal) : Program World (Except String Report) :=
  storeReport arguments readExecutionAuditSweep executionAuditSweepResource
    (fun db => .sweep (sweepExecutionAuditIntegrity db)) transportPrincipal

def blackboardAuthorizationPolicyIntegrity (arguments : Json.Object)
    (transportPrincipal : Option Principal) : Program World (Except String Report) :=
  storeReport arguments readAuthorizationPolicyIntegrity authorizationPolicyIntegrityResource
    (fun db => .policyIntegrity (auditAuthorizationIntegrity db)) transportPrincipal

def blackboardAuthorizationDecision (arguments : Json.Object)
    (transportPrincipal : Option Principal) : Program World (Except String Report) :=
  match parseDecision arguments with
  | .error code => .done (.error code)
  | .ok a =>
      explainedReport
        (callerPrincipal a.participantId transportPrincipal (resolveDecisionIdentity arguments a))
        a.participantId readAuthorizationDecision authorizationDecisionResource fun now db =>
          .ok (.decision (.ofDecision (explainAuthorization now db a.target)))

def blackboardAuthorizationAdministrationHistory (arguments : Json.Object)
    (transportPrincipal : Option Principal) : Program World (Except String Report) :=
  match parseHistory arguments with
  | .error code => .done (.error code)
  | .ok a =>
      explainedReport
        (callerPrincipal a.participantId transportPrincipal
          (resolveCapabilityIdentity arguments a.participantId
            readAuthorizationAdministrationHistory
            (some authorizationAdministrationHistoryResource)))
        a.participantId readAuthorizationAdministrationHistory
        authorizationAdministrationHistoryResource fun _ db =>
          (readAdministrationEventWindow db
            ⟨a.filterParticipantId, a.window.before, a.window.after, a.window.limit,
              a.window.order⟩).map .history

def blackboardAuthorizationPolicy (arguments : Json.Object)
    (transportPrincipal : Option Principal) : Program World (Except String Report) :=
  match parsePolicy arguments with
  | .error code => .done (.error code)
  | .ok a =>
      explainedReport
        (callerPrincipal a.participantId transportPrincipal
          (resolveCapabilityIdentity arguments a.participantId readAuthorizationPolicy
            (some authorizationPolicyResource)))
        a.participantId readAuthorizationPolicy authorizationPolicyResource fun _ db =>
          (readAuthorizationPolicyWindow db
            ⟨a.store, a.window.before, a.window.after, a.window.limit, a.window.order⟩).map .policy

/-! ## Calls -/

/-- The tool a body names and what it is called with. -/
def toolCall (object : Json.Object) : Except String (String × Option Json.Object) := do
  let params ← required ((object.get "params").bind Json.Value.asObject) "invalid_tool_call_params"
  let name ← required ((Json.Object.get params "name").bind Json.Value.asStr) "invalid_tool_name"
  match Json.Object.get params "arguments" with
  | none => .ok (name, none)
  | some (.object arguments) => .ok (name, some arguments)
  | some _ => .error "invalid_tool_arguments"

/-- A tool that reports, by its name. -/
def reportingTool (name : String) :
    Option (Json.Object → Option Principal → Program World (Except String Report)) :=
  match name with
  | "blackboard_access_context" => some blackboardAccessContext
  | "blackboard_execution_receipt" => some blackboardExecutionReceipt
  | "blackboard_execution_audit" => some blackboardExecutionAudit
  | "blackboard_execution_audit_integrity" => some blackboardExecutionAuditIntegrity
  | "blackboard_execution_audit_sweep" => some blackboardExecutionAuditSweep
  | "blackboard_authorization_policy_integrity" => some blackboardAuthorizationPolicyIntegrity
  | "blackboard_authorization_policy" => some blackboardAuthorizationPolicy
  | "blackboard_authorization_administration_history" =>
      some blackboardAuthorizationAdministrationHistory
  | "blackboard_authorization_decision" => some blackboardAuthorizationDecision
  | _ => none

def toolCallResult (object : Json.Object) (transportPrincipal : Option Principal) :
    Program World (Except String ToolResult) :=
  match toolCall object with
  | .error code => .done (.error code)
  | .ok (name, given) =>
      let arguments := given.getD []
      if name = "blackboard_read" then do
        return .ok (.message (← blackboardRead arguments transportPrincipal))
      else if name = "blackboard_write" then do
        return .ok (.message (← blackboardWrite arguments transportPrincipal))
      else
        match reportingTool name with
        | some tool => do return .ok (.report (← tool arguments transportPrincipal))
        | none => .done (.error "unknown_tool")

/-- The tools that want their caller to be known, whatever they are asked. -/
def authenticatedTools : List String :=
  ["blackboard_write", "blackboard_access_context", "blackboard_execution_receipt",
    "blackboard_execution_audit", "blackboard_execution_audit_integrity",
    "blackboard_execution_audit_sweep", "blackboard_authorization_policy_integrity",
    "blackboard_authorization_policy", "blackboard_authorization_decision",
    "blackboard_authorization_administration_history"]

/-- The branch for `blackboard_read`. -/
def readRequiresAuth (given : Option Json.Object) : Program World Bool :=
  match given with
  | none => .done false
  | some arguments =>
      if (arguments.get "participant_id").isSome then .done true
      else
        match (arguments.get "channel").bind Json.Value.asStr with
        | none => .done false
        | some channel =>
            if Http.nameRe channel = false then .done false
            else query fun db => !channelIsPublicActive db channel

def Tool.name : Tool → String
  | .blackboardRead => "blackboard_read"
  | .blackboardWrite => "blackboard_write"

/-- What the preflight makes of a tool and its arguments. -/
def namedToolRequiresAuth (name : String) (given : Option Json.Object) : Program World Bool :=
  if given.any (Json.Object.containsKey · "auth") then .done false
  else if authenticatedTools.contains name then .done true
  else if name = "blackboard_read" then readRequiresAuth given
  else .done false

/-- `http_tool_call_requires_auth`, from the whole body. -/
def httpToolCallBodyRequiresAuth (object : Json.Object) : Program World Bool :=
  if (object.get "method").bind Json.Value.asStr ≠ some "tools/call" then .done false
  else
    match (object.get "params").bind Json.Value.asObject with
    | none => .done false
    | some params =>
        match (Json.Object.get params "name").bind Json.Value.asStr with
        | none => .done false
        | some name =>
            match Json.Object.get params "arguments" with
            | none => namedToolRequiresAuth name none
            | some (.object arguments) => namedToolRequiresAuth name (some arguments)
            | some _ => .done false

end Mcp

end Blackboard
