import Blackboard.Model.Db

/-!
# The authorization kernel (`authorization.rs`)

One cascade decides every request: the participant's lifecycle, then durable grants or,
where the principal has none for the capability, implicit authority, then delegated
grants for the request's intent. The decision carries the source and reason the audit
trail keeps, and the one-shot grant its commit has to consume.
-/

namespace Blackboard

open Relational (orderBy)

structure Principal where
  provider : String
  subject : String
  deriving DecidableEq, Repr

/-! ## Capabilities -/

def readMessages : String := "read_messages"
def postMessage : String := "post_message"
def reply : String := "reply"
def readExecutionReceipt : String := "read_execution_receipt"
def readExecutionAudit : String := "read_execution_audit"
def readExecutionAuditSweep : String := "read_execution_audit_sweep"
def executionAuditSweepResource : String := "execution-audit-sweep"
def readAuthorizationPolicyIntegrity : String := "read_authorization_policy_integrity"
def authorizationPolicyIntegrityResource : String := "authorization-policy-integrity"
def readAuthorizationPolicy : String := "read_authorization_policy"
def authorizationPolicyResource : String := "authorization-policy"
def readAuthorizationDecision : String := "read_authorization_decision"
def authorizationDecisionResource : String := "authorization-decision"
def manageAuthorizationPolicy : String := "manage_authorization_policy"
def authorizationPolicyAdminResource : String := "authorization-policy-administration"
def readAuthorizationAdministrationHistory : String := "read_authorization_administration_history"
def authorizationAdministrationHistoryResource : String := "authorization-administration-history"
def manageChannels : String := "manage_channels"

def knownCapabilities : List String :=
  [readMessages, postMessage, reply, readExecutionReceipt, readExecutionAudit,
    readExecutionAuditSweep, readAuthorizationPolicyIntegrity, readAuthorizationPolicy,
    readAuthorizationDecision, manageAuthorizationPolicy, readAuthorizationAdministrationHistory,
    manageChannels]

def isKnownCapability (capability : String) : Bool := knownCapabilities.contains capability

/-! ## Decisions -/

inductive DecisionSource where
  | participantLifecycle
  | principalGrants
  | implicitAuthority
  | delegatedGrants
  | policy
  deriving DecidableEq, Repr

namespace DecisionSource

def text : DecisionSource → String
  | participantLifecycle => "participant_lifecycle"
  | principalGrants => "principal_grants"
  | implicitAuthority => "implicit_authority"
  | delegatedGrants => "delegated_grants"
  | policy => "policy"

end DecisionSource

inductive DecisionReason where
  | participantMissing
  | participantInactive
  | explicitDurableGrantMatch
  | implicitHumanWebAdminAuthorizationPolicy
  | implicitHumanWebAdminAuthorizationPolicyIntegrity
  | implicitHumanWebAdminAuthorizationDecision
  | implicitHumanWebAdminAuthorizationAdministration
  | implicitHumanWebAdminAuthorizationAdministrationHistory
  | implicitHumanWebAdminAuditSweep
  | implicitHumanWebAdmin
  | implicitParticipantHmac
  | implicitHumanWeb
  | implicitGithubOwner
  | delegatedResourceMismatch
  | delegatedIntentMismatch
  | delegatedConsumedDifferentIntent
  | delegatedGrantExpired
  | delegatedCommittedReplay
  | delegatedConsumedWithoutCommittedReceipt
  | delegatedGrantMatch
  | explicitResourceScopeMismatch
  | noMatchingAuthority
  deriving DecidableEq, Repr

namespace DecisionReason

def text : DecisionReason → String
  | participantMissing => "participant_missing"
  | participantInactive => "participant_inactive"
  | explicitDurableGrantMatch => "explicit_durable_grant_match"
  | implicitHumanWebAdminAuthorizationPolicy => "implicit_human_web_admin_authorization_policy"
  | implicitHumanWebAdminAuthorizationPolicyIntegrity =>
      "implicit_human_web_admin_authorization_policy_integrity"
  | implicitHumanWebAdminAuthorizationDecision =>
      "implicit_human_web_admin_authorization_decision"
  | implicitHumanWebAdminAuthorizationAdministration =>
      "implicit_human_web_admin_authorization_administration"
  | implicitHumanWebAdminAuthorizationAdministrationHistory =>
      "implicit_human_web_admin_authorization_administration_history"
  | implicitHumanWebAdminAuditSweep => "implicit_human_web_admin_audit_sweep"
  | implicitHumanWebAdmin => "implicit_human_web_admin"
  | implicitParticipantHmac => "implicit_participant_hmac"
  | implicitHumanWeb => "implicit_human_web"
  | implicitGithubOwner => "implicit_github_owner"
  | delegatedResourceMismatch => "delegated_resource_mismatch"
  | delegatedIntentMismatch => "delegated_intent_mismatch"
  | delegatedConsumedDifferentIntent => "delegated_consumed_different_intent"
  | delegatedGrantExpired => "delegated_grant_expired"
  | delegatedCommittedReplay => "delegated_committed_replay"
  | delegatedConsumedWithoutCommittedReceipt => "delegated_consumed_without_committed_receipt"
  | delegatedGrantMatch => "delegated_grant_match"
  | explicitResourceScopeMismatch => "explicit_resource_scope_mismatch"
  | noMatchingAuthority => "no_matching_authority"

end DecisionReason

structure AuthorizationDecision where
  allowed : Bool
  source : DecisionSource
  reason : DecisionReason
  grantId : Option Int
  consumeGrantId : Option Int
  deriving DecidableEq, Repr

namespace AuthorizationDecision

def allow (source : DecisionSource) (reason : DecisionReason) (grantId consumeGrantId : Option Int) :
    AuthorizationDecision :=
  ⟨true, source, reason, grantId, consumeGrantId⟩

def deny (source : DecisionSource) (reason : DecisionReason) (grantId : Option Int) :
    AuthorizationDecision :=
  ⟨false, source, reason, grantId, none⟩

@[simp] theorem allow_allowed (source : DecisionSource) (reason : DecisionReason)
    (g c : Option Int) : (allow source reason g c).allowed = true := rfl

@[simp] theorem deny_allowed (source : DecisionSource) (reason : DecisionReason) (g : Option Int) :
    (deny source reason g).allowed = false := rfl

end AuthorizationDecision

/-! ## Implicit authority -/

/-- What the kernel reads of a participant. -/
structure ParticipantPolicyRow where
  status : String
  role : String
  ownerProvider : Option String
  ownerSubject : Option String

def participantPolicyRow (db : Database) (participantId : String) : Option ParticipantPolicyRow :=
  (db.webParticipants.find participantId).map fun row =>
    ⟨row.status, row.role, row.ownerProvider, row.ownerSubject⟩

/-- The capabilities a participant has over itself and its owner over it. -/
def ownCapabilities : List String :=
  [readMessages, postMessage, reply, readExecutionReceipt, readExecutionAudit]

/-- The capabilities only a human web session of an administrator has, each on one resource, in
the order the source tries them. -/
def humanWebAdminCapabilities : List (String × String × DecisionReason) :=
  [(readAuthorizationPolicy, authorizationPolicyResource,
      .implicitHumanWebAdminAuthorizationPolicy),
    (readAuthorizationPolicyIntegrity, authorizationPolicyIntegrityResource,
      .implicitHumanWebAdminAuthorizationPolicyIntegrity),
    (readAuthorizationDecision, authorizationDecisionResource,
      .implicitHumanWebAdminAuthorizationDecision),
    (manageAuthorizationPolicy, authorizationPolicyAdminResource,
      .implicitHumanWebAdminAuthorizationAdministration),
    (readAuthorizationAdministrationHistory, authorizationAdministrationHistoryResource,
      .implicitHumanWebAdminAuthorizationAdministrationHistory),
    (readExecutionAuditSweep, executionAuditSweepResource, .implicitHumanWebAdminAuditSweep)]

def implicitAuthorityReason (principal : Principal) (participantId capability : String)
    (resource : Option String) (participant : ParticipantPolicyRow) : Option DecisionReason :=
  let humanWebAdmin := principal.provider = "human-web" ∧ participant.role = "admin"
  let selfAuthenticated :=
    (principal.provider = "participant-hmac" ∨ principal.provider = "human-web")
      ∧ principal.subject = participantId
  if selfAuthenticated then
    match humanWebAdminCapabilities.lookup capability with
    | some (only, reason) => if humanWebAdmin ∧ resource = some only then some reason else none
    | none =>
        if capability = manageChannels then
          if humanWebAdmin then some .implicitHumanWebAdmin else none
        else if ownCapabilities.contains capability then
          if principal.provider = "participant-hmac" then some .implicitParticipantHmac
          else some .implicitHumanWeb
        else none
  else
    if principal.provider = "github" ∧ participant.ownerProvider = some "github"
        ∧ participant.ownerSubject = some principal.subject
        ∧ ownCapabilities.contains capability = true then
      some .implicitGithubOwner
    else none

/-! ## Durable grants -/

/-- The rows `principal_provider = ?1 AND principal_subject = ?2 AND participant_id = ?3 AND
capability = ?4 AND status = 'active'` selects. -/
def activeDurableGrants (db : Database) (principal : Principal)
    (participantId capability : String) : List DurableGrant :=
  db.principalGrants.rows.filter fun g =>
    decide (g.principalProvider = principal.provider ∧ g.principalSubject = principal.subject
      ∧ g.participantId = participantId ∧ g.capability = capability ∧ g.status = "active")

/-- Grants on the resource itself before grants on every resource, then by id. -/
def durableGrantOrder (g : DurableGrant) : List Int :=
  [if g.resource.isSome then 0 else 1, g.id]

def explicitMatch (db : Database) (principal : Principal) (participantId capability : String)
    (resource : Option String) : Option Int :=
  ((orderBy (fun a b => durableGrantOrder a ≤ durableGrantOrder b)
    ((activeDurableGrants db principal participantId capability).filter fun g =>
      decide (g.resource = none ∨ g.resource = resource))).head?).map DurableGrant.id

/-! ## Delegated grants -/

def activeDelegatedGrants (db : Database) (principal : Principal)
    (participantId capability : String) : List DelegatedGrant :=
  db.delegatedGrants.rows.filter fun g =>
    decide (g.principalProvider = principal.provider ∧ g.principalSubject = principal.subject
      ∧ g.participantId = participantId ∧ g.capability = capability ∧ g.status = "active")

/-- Grants bound to an intent first, then those bound to a resource, then one-shot grants. -/
def delegatedGrantOrder (g : DelegatedGrant) : List Int :=
  [if g.intentId.isSome then 0 else 1, if g.resource.isSome then 0 else 1, -g.oneShot, g.id]

/-- Why a delegated grant does not cover a request, if it does not. -/
def delegatedDenial (now : Int) (resource : Option String) (intentId : String)
    (g : DelegatedGrant) : Option DecisionReason :=
  if g.resource.isSome = true ∧ g.resource ≠ resource then some .delegatedResourceMismatch
  else if g.intentId.any (fun value => decide (value ≠ intentId)) then
    some .delegatedIntentMismatch
  else if g.oneShot ≠ 0 ∧ g.consumedAt.isSome = true ∧ g.consumedIntentId ≠ some intentId then
    some .delegatedConsumedDifferentIntent
  else if g.expiresAt.any (fun value => decide (value ≤ now))
      ∧ ¬ (g.oneShot ≠ 0 ∧ g.consumedIntentId = some intentId) then
    some .delegatedGrantExpired
  else none

def committedReceiptExists (db : Database) (participantId intentId : String) : Bool :=
  (db.receipts.find (participantId, intentId)).any fun r => decide (r.status = "committed")

/-- What the kernel decides on the first delegated grant that covers the request. -/
def delegatedDecision (db : Database) (participantId intentId : String) (g : DelegatedGrant) :
    AuthorizationDecision :=
  if g.oneShot ≠ 0 ∧ g.consumedAt.isSome = true then
    if committedReceiptExists db participantId intentId then
      .allow .delegatedGrants .delegatedCommittedReplay (some g.id) none
    else .deny .delegatedGrants .delegatedConsumedWithoutCommittedReceipt (some g.id)
  else
    .allow .delegatedGrants .delegatedGrantMatch (some g.id)
      (if g.oneShot ≠ 0 then some g.id else none)

/-- The loop over the delegated grants: the first one that covers the request decides; when none
does, the first denial does. -/
def delegatedLoop (now : Int) (db : Database) (participantId : String) (resource : Option String)
    (intentId : String) : List DelegatedGrant → Option AuthorizationDecision →
    Option AuthorizationDecision
  | [], firstDenial => firstDenial
  | g :: rest, firstDenial =>
      match delegatedDenial now resource intentId g with
      | some reason =>
          delegatedLoop now db participantId resource intentId rest
            (firstDenial.or (some (.deny .delegatedGrants reason (some g.id))))
      | none => some (delegatedDecision db participantId intentId g)

/-! ## The kernel -/

/-- Durable grants decide if there are any for the capability, implicit authority if not. -/
def durableOrImplicit (db : Database) (principal : Principal) (participantId capability : String)
    (resource : Option String) (participant : ParticipantPolicyRow) :
    Option AuthorizationDecision :=
  if (activeDurableGrants db principal participantId capability).length > 0 then
    (explicitMatch db principal participantId capability resource).map fun grantId =>
      .allow .principalGrants .explicitDurableGrantMatch (some grantId) none
  else
    (implicitAuthorityReason principal participantId capability resource participant).map
      fun reason => .allow .implicitAuthority reason none none

def evaluateAuthorizationCurrentSchema (now : Int) (db : Database) (principal : Principal)
    (participantId capability : String) (resource intentId : Option String) :
    AuthorizationDecision :=
  match participantPolicyRow db participantId with
  | none => .deny .participantLifecycle .participantMissing none
  | some participant =>
      if participant.status ≠ "active" then .deny .participantLifecycle .participantInactive none
      else
        match durableOrImplicit db principal participantId capability resource participant with
        | some decision => decision
        | none =>
            let delegated := intentId.bind fun intentId =>
              delegatedLoop now db participantId resource intentId
                (orderBy (fun a b => delegatedGrantOrder a ≤ delegatedGrantOrder b)
                  (activeDelegatedGrants db principal participantId capability)) none
            match delegated with
            | some decision => decision
            | none =>
                if (activeDurableGrants db principal participantId capability).length > 0 then
                  .deny .principalGrants .explicitResourceScopeMismatch none
                else .deny .policy .noMatchingAuthority none

/-- `evaluate_authorization` creates the grant tables when they are missing; here they are not. -/
def evaluateAuthorization (now : Int) (db : Database) (principal : Principal)
    (participantId capability : String) (resource intentId : Option String) :
    AuthorizationDecision :=
  evaluateAuthorizationCurrentSchema now db principal participantId capability resource intentId

def authorize (now : Int) (db : Database) (principal : Principal)
    (participantId capability : String) (resource : Option String) : Bool :=
  (evaluateAuthorization now db principal participantId capability resource none).allowed

/-- Consume a one-shot grant: exactly one active, unconsumed row has to change. -/
def consumeDelegatedGrantInTx (now : Int) (grantId : Int) (intentId : String) (db : Database) :
    Except SqlError Database :=
  let selected := fun g : DelegatedGrant =>
    decide (g.id = grantId ∧ g.status = "active" ∧ g.oneShot = 1 ∧ g.consumedAt = none)
  if db.delegatedGrants.count selected ≠ 1 then .error .invalidQuery
  else
    .ok { db with
      delegatedGrants := db.delegatedGrants.update selected
        (fun g => { g with consumedAt := some now, consumedIntentId := some intentId })
        fun _ => rfl }

end Blackboard
