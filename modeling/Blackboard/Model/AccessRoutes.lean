import Blackboard.Model.AccessApi
import Blackboard.Model.McpTools

/-!
# The routes of the access API (`access_api.rs`)

What a participant may do, what became of its executions, and the policy: nine routes that
report and four that change grants. Every route resolves its caller first. A report is read
after the permission to see it, in a query of its own; a change of grants is one
transaction, permission included.

The path, the query parameters and the JSON body of a request reach a route decoded.
-/

namespace Blackboard

open Concurrent (Program)

namespace AccessApi

/-! ## Answers -/

/-- A grant as a route that changed it describes it. -/
structure GrantState where
  store : String
  id : Int
  state : String
  rowsChanged : Option Nat
  deriving DecidableEq, Repr

inductive Answer where
  | context (identity : Identity) (principal : Principal) (participantId : Option String)
      (role : String) (capabilities : List String) (grants : List EffectiveGrant)
  | report (report : Mcp.Report)
  | grant (status : Nat) (grant : GrantState)
  | error (e : ApiError)

def Answer.ofReport : Except ApiError Mcp.Report → Answer
  | .ok r => .report r
  | .error e => .error e

def notFound (code : String) : ApiError := ⟨404, code⟩

/-- `map_administration_error`, from the text of the error. -/
def mapAdministrationError (message : String) : ApiError :=
  if message = "authorization denied" then .forbidden
  else if Text.contains "schema requires migration" message then
    ⟨503, "schema_migration_required"⟩
  else .badRequest "invalid_grant_request"

/-! ## Requests -/

/-- The window two routes ask for alike. -/
structure WindowQuery where
  before : Option Int
  after : Option Int
  limit : Option Nat
  order : Option String

/-- The check of a window, once its order is known. -/
def WindowQuery.refused (q : WindowQuery) (order : WindowOrder) (max : Nat) : Bool :=
  q.before.any (fun value => decide (value ≤ 0)) || q.after.any (fun value => decide (value ≤ 0))
    || (q.before.isSome && q.after.isSome) || (decide (order = .desc) && q.after.isSome)
    || (decide (order = .asc) && q.before.isSome)
    || q.limit.any fun limit => decide (¬ (1 ≤ limit ∧ limit ≤ max))

def WindowQuery.check (q : WindowQuery) (max : Nat) (code : String) : Except ApiError Unit :=
  match WindowOrder.parse q.order with
  | none => .error (.badRequest code)
  | some order => if q.refused order max then .error (.badRequest code) else .ok ()

structure HistoryQuery where
  participantId : Option String
  window : WindowQuery

structure PolicyQuery where
  store : Option String
  window : WindowQuery

structure DecisionQuery where
  principalProvider : String
  principalSubject : String
  participantId : String
  capability : String
  resource : Option String
  intentId : Option String

inductive Route where
  | accessContext
  | executionReceipt (intentId : String)
  | executionAudit (intentId : String)
  | executionAuditIntegrity (intentId : String)
  | executionAuditSweep
  | authorizationDecisionExplain (query : DecisionQuery)
  | authorizationPolicy (query : PolicyQuery)
  | authorizationPolicyIntegrity
  | authorizationAdministrationHistory (query : HistoryQuery)
  | createDurableAuthorizationGrant (body : DurableGrantCreateRequest)
  | createDelegatedAuthorizationGrant (body : DelegatedGrantCreateRequest)
  | deactivateDurableAuthorizationGrant (grantId : Int)
  | deactivateDelegatedAuthorizationGrant (grantId : Int)

/-- The method a request is signed with. -/
def Route.method : Route → String
  | createDurableAuthorizationGrant _ | createDelegatedAuthorizationGrant _ => "POST"
  | deactivateDurableAuthorizationGrant _ | deactivateDelegatedAuthorizationGrant _ => "DELETE"
  | _ => "GET"

/-! ## Reports

What a route does once its caller is known. -/

variable [Sha256]

/-- A report for callers the kernel lets see it. -/
def authorizedReport (principal : Principal) (participantId capability : String)
    (resource : Option String) (report : Int → Database → Except ApiError Mcp.Report) :
    Program World Answer := do
  let allowed ← statement fun now db =>
    (authorize now db principal participantId capability resource, db)
  if allowed then statement fun now db => (.ofReport (report now db), db)
  else return .error .forbidden

def databaseReport : Except SqlError Mcp.Report → Except ApiError Mcp.Report
  | .ok report => .ok report
  | .error _ => .error .database

def accessContext (resolved : Identity) (principal : Principal) : Program World Answer := do
  let role ← query fun db => getWebParticipantRole db resolved.inst
  let grants ←
    if role.isSome then
      statement fun now db => (effectiveGrants now db principal resolved.inst, db)
    else pure []
  return .context resolved principal (role.map fun _ => resolved.inst) (role.getD "user")
    (Mcp.capabilitiesOf grants) grants

/-- The intent id of a path. -/
def withIntent (intentId : String) (route : String → Program World Answer) :
    Program World Answer :=
  match normalizeIntentId intentId with
  | none => .done (.error (.badRequest "invalid_intent_id"))
  | some intentId => route intentId

/-- A receipt is the participant's own: the kernel is not asked. -/
def executionReceipt (intentId : String) (resolved : Identity) : Program World Answer :=
  withIntent intentId fun intentId =>
    query fun db =>
      match getExecutionReceipt db resolved.inst intentId with
      | some receipt => .report (.execution receipt)
      | none => .error (notFound "execution_not_found")

def executionAudit (intentId : String) (resolved : Identity) (principal : Principal) :
    Program World Answer :=
  withIntent intentId fun intentId =>
    authorizedReport principal resolved.inst readExecutionAudit (some intentId) fun _ db =>
      match getExecutionAuditBundle db resolved.inst intentId with
      | some audit => .ok (.audit audit)
      | none => .error (notFound "execution_not_found")

def executionAuditIntegrity (intentId : String) (resolved : Identity) (principal : Principal) :
    Program World Answer :=
  withIntent intentId fun intentId =>
    authorizedReport principal resolved.inst readExecutionAudit (some intentId) fun _ db =>
      .ok (.integrity (verifyExecutionAuditIntegrity db resolved.inst intentId))

def executionAuditSweep (resolved : Identity) (principal : Principal) : Program World Answer :=
  authorizedReport principal resolved.inst readExecutionAuditSweep
    (some executionAuditSweepResource) fun _ db => .ok (.sweep (sweepExecutionAuditIntegrity db))

def authorizationDecisionExplain (q : DecisionQuery) (resolved : Identity)
    (principal : Principal) : Program World Answer :=
  match normalizeAuthorizationDecisionTarget q.principalProvider q.principalSubject
      q.participantId q.capability q.resource q.intentId with
  | .error code => .done (.error (.badRequest code))
  | .ok target =>
      authorizedReport principal resolved.inst readAuthorizationDecision
        (some authorizationDecisionResource) fun now db =>
          .ok (.decision (.ofDecision (explainAuthorization now db target)))

def authorizationPolicy (q : PolicyQuery) (resolved : Identity) (principal : Principal) :
    Program World Answer :=
  match q.store.filter fun value => (AuthorizationPolicyStore.parse value).isSome with
  | none => .done (.error (.badRequest "invalid_policy_window"))
  | some store =>
      match q.window.check maxAuthorizationPolicyWindowSize "invalid_policy_window" with
      | .error e => .done (.error e)
      | .ok () =>
          authorizedReport principal resolved.inst readAuthorizationPolicy
            (some authorizationPolicyResource) fun _ db =>
              databaseReport ((readAuthorizationPolicyWindow db
                ⟨store, q.window.before, q.window.after, q.window.limit, q.window.order⟩).map
                  .policy)

def authorizationPolicyIntegrity (resolved : Identity) (principal : Principal) :
    Program World Answer :=
  authorizedReport principal resolved.inst readAuthorizationPolicyIntegrity
    (some authorizationPolicyIntegrityResource) fun _ db =>
      .ok (.policyIntegrity (auditAuthorizationIntegrity db))

/-- The participant a history is asked for. -/
def participantFilter (participantId : Option String) : Except ApiError (Option String) :=
  match participantId with
  | none => .ok none
  | some value =>
      match validateParticipantId value with
      | some participantId => .ok (some participantId)
      | none => .error (.badRequest "invalid_participant_id")

def authorizationAdministrationHistory (q : HistoryQuery) (resolved : Identity)
    (principal : Principal) : Program World Answer :=
  match participantFilter q.participantId with
  | .error e => .done (.error e)
  | .ok participantId =>
      match q.window.check maxAdministrationHistoryWindowSize "invalid_history_window" with
      | .error e => .done (.error e)
      | .ok () =>
          authorizedReport principal resolved.inst readAuthorizationAdministrationHistory
            (some authorizationAdministrationHistoryResource) fun _ db =>
              databaseReport ((readAdministrationEventWindow db
                ⟨participantId, q.window.before, q.window.after, q.window.limit,
                  q.window.order⟩).map .history)

/-! ## Administration -/

def adminSurface : String := "rest-authorization-admin"

/-- A change of grants by a remote administrator. A participant that signs is none, whatever the
policy says. -/
def administration {α : Type} (operation : Int → Principal → String → Administration α)
    (answer : α → Answer) (resolved : Identity) (principal : Principal) : Program World Answer :=
  if principal.provider = "participant-hmac" then
    .done (.error ⟨403, "unsupported_authentication"⟩)
  else
    statement fun now db =>
      let (result, db) := operation now principal resolved.inst db
      (match result with
        | .ok outcome => answer outcome
        | .error message => .error (mapAdministrationError message), db)

def DurableGrantCreateState.name : DurableGrantCreateState → String
  | .created => "created"
  | .existing => "existing"
  | .reactivated => "reactivated"

def createDurableAuthorizationGrant (body : DurableGrantCreateRequest) :
    Identity → Principal → Program World Answer :=
  administration
    (fun now principal participantId =>
      createDurableGrantAuthorized now adminSurface principal participantId body)
    fun outcome =>
      .grant (if outcome.state = .created then 201 else 200)
        ⟨"durable", outcome.id, DurableGrantCreateState.name outcome.state, none⟩

def createDelegatedAuthorizationGrant (body : DelegatedGrantCreateRequest) :
    Identity → Principal → Program World Answer :=
  administration
    (fun now principal participantId =>
      createDelegatedGrantAuthorized now adminSurface principal participantId body)
    fun outcome => .grant 201 ⟨"delegated", outcome.id, "created", none⟩

/-- What a deactivation answers. -/
def deactivated (store : String) (grantId : Int) : Option GrantDeactivateOutcome → Answer
  | some outcome => .grant 200 ⟨store, grantId, "inactive", some outcome.rowsChanged⟩
  | none => .error (notFound "grant_not_found")

def deactivateDurableAuthorizationGrant (grantId : Int) :
    Identity → Principal → Program World Answer :=
  administration
    (fun now principal participantId =>
      deactivateDurableGrantAuthorized now adminSurface principal participantId grantId)
    (deactivated "durable" grantId)

def deactivateDelegatedAuthorizationGrant (grantId : Int) :
    Identity → Principal → Program World Answer :=
  administration
    (fun now principal participantId =>
      deactivateDelegatedGrantAuthorized now adminSurface principal participantId grantId)
    (deactivated "delegated" grantId)

/-! ## Serving -/

/-- What a route does for its caller. -/
def Route.handle : Route → Identity → Principal → Program World Answer
  | .accessContext => AccessApi.accessContext
  | .executionReceipt intentId => fun resolved _ => AccessApi.executionReceipt intentId resolved
  | .executionAudit intentId => AccessApi.executionAudit intentId
  | .executionAuditIntegrity intentId => AccessApi.executionAuditIntegrity intentId
  | .executionAuditSweep => AccessApi.executionAuditSweep
  | .authorizationDecisionExplain q => AccessApi.authorizationDecisionExplain q
  | .authorizationPolicy q => AccessApi.authorizationPolicy q
  | .authorizationPolicyIntegrity => AccessApi.authorizationPolicyIntegrity
  | .authorizationAdministrationHistory q => AccessApi.authorizationAdministrationHistory q
  | .createDurableAuthorizationGrant body => AccessApi.createDurableAuthorizationGrant body
  | .createDelegatedAuthorizationGrant body => AccessApi.createDelegatedAuthorizationGrant body
  | .deactivateDurableAuthorizationGrant id => AccessApi.deactivateDurableAuthorizationGrant id
  | .deactivateDelegatedAuthorizationGrant id =>
      AccessApi.deactivateDelegatedAuthorizationGrant id

/-- A request of the access API. -/
def serveRoute [Hmac] [Base64Url] [JsonParser] (key : Bytes) (headers : Headers)
    (requestTarget : String) (route : Route) : Program World Answer := do
  match ← requireIdentityForTarget key headers route.method requestTarget with
  | .error e => return .error e
  | .ok resolved => route.handle resolved (principalForHeaders headers resolved)

end AccessApi

end Blackboard
