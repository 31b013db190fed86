import Blackboard.Model.AuthorizationAdmin

/-!
# Questions to the kernel that change nothing (`authorization.rs`)

What a principal may do for a participant, as a list, and the decision on one request,
explained. The tables are as the current schema has them, so neither fails for want of a
column.
-/

namespace Blackboard

open Relational (orderBy)

/-! ## Effective grants -/

structure EffectiveGrant where
  capability : String
  resource : Option String
  origin : String
  deriving DecidableEq, Repr

/-- `Option::cmp`, and `ORDER BY` of a nullable column: nothing comes first. -/
def resourceLe (a b : Option String) : Prop :=
  match a, b with
  | none, _ => True
  | some _, none => False
  | some a, some b => a ≤ b

instance : DecidableRel resourceLe := fun a b =>
  match a, b with
  | none, _ => .isTrue trivial
  | some _, none => .isFalse id
  | some a, some b => inferInstanceAs (Decidable (a ≤ b))

def effectiveGrantLe (a b : EffectiveGrant) : Prop :=
  a.capability < b.capability ∨ a.capability = b.capability ∧ resourceLe a.resource b.resource

instance : DecidableRel effectiveGrantLe := fun _ _ => inferInstanceAs (Decidable (_ ∨ _ ∧ _))

def explicitGrants (db : Database) (principal : Principal) (participantId : String) :
    List EffectiveGrant :=
  orderBy effectiveGrantLe
    ((db.principalGrants.rows.filter fun g =>
      decide (g.principalProvider = principal.provider ∧ g.principalSubject = principal.subject
        ∧ g.participantId = participantId ∧ g.status = "active")).map fun g =>
      ⟨g.capability, g.resource, "explicit"⟩)

/-- The resource the listing asks the kernel about. -/
def implicitResource (capability : String) : Option String :=
  if capability = readExecutionAuditSweep then some executionAuditSweepResource
  else if capability = readAuthorizationPolicyIntegrity then
    some authorizationPolicyIntegrityResource
  else if capability = readAuthorizationPolicy then some authorizationPolicyResource
  else if capability = readAuthorizationDecision then some authorizationDecisionResource
  else if capability = manageAuthorizationPolicy then some authorizationPolicyAdminResource
  else if capability = readAuthorizationAdministrationHistory then
    some authorizationAdministrationHistoryResource
  else none

/-- The loop over the known capabilities: the ones no durable grant speaks about and the kernel
allows. -/
def implicitGrants (now : Int) (db : Database) (principal : Principal) (participantId : String)
    (explicit : List EffectiveGrant) : List EffectiveGrant :=
  knownCapabilities.filterMap fun capability =>
    if explicit.any fun grant => decide (grant.capability = capability) then none
    else if (evaluateAuthorizationCurrentSchema now db principal participantId capability
        (implicitResource capability) none).allowed then
      some ⟨capability, implicitResource capability, "implicit"⟩
    else none

def effectiveGrants (now : Int) (db : Database) (principal : Principal) (participantId : String) :
    List EffectiveGrant :=
  match participantPolicyRow db participantId with
  | none => []
  | some participant =>
      if participant.status ≠ "active" then []
      else
        let explicit := explicitGrants db principal participantId
        orderBy effectiveGrantLe
          (explicit ++ implicitGrants now db principal participantId explicit)

/-! ## Explanations -/

structure AuthorizationDecisionTarget where
  principal : Principal
  participantId : String
  capability : String
  resource : Option String
  intentId : Option String

/-- `ok_or(message)`. -/
def required {α : Type} (value : Option α) (message : String) : Except String α :=
  match value with
  | some value => .ok value
  | none => .error message

/-- `map(..).transpose()`. -/
def optional {α β : Type} (value : Option α) (f : α → Except String β) :
    Except String (Option β) :=
  match value with
  | none => .ok none
  | some value => (f value).map some

def normalizeAuthorizationDecisionTarget (principalProvider principalSubject participantId
    capability : String) (resource intentId : Option String) :
    Except String AuthorizationDecisionTarget := do
  let provider ← required (normalizeText principalProvider 256) "invalid_principal_provider"
  let subject ← required (normalizeText principalSubject 256) "invalid_principal_subject"
  let participantId ← required (validateParticipantId participantId) "invalid_participant_id"
  let capability ← required (normalizeText capability 128) "invalid_capability"
  if isKnownCapability capability = false then .error "unsupported_capability"
  let resource ← optional resource fun value => required (normalizeText value 256) "invalid_resource"
  let intentId ← optional intentId fun value => required (normalizeIntentId value) "invalid_intent_id"
  return { principal := ⟨provider, subject⟩, participantId, capability, resource, intentId }

/-- `explain_authorization` is the kernel on tables it may not create. -/
def explainAuthorization (now : Int) (db : Database) (target : AuthorizationDecisionTarget) :
    AuthorizationDecision :=
  evaluateAuthorizationCurrentSchema now db target.principal target.participantId
    target.capability target.resource target.intentId

/-- A decision as a caller is told it. -/
structure AuthorizationDecisionExplanation where
  allowed : Bool
  source : String
  reason : String
  grantId : Option Int
  consumeOnCommit : Bool
  deriving DecidableEq, Repr

def AuthorizationDecisionExplanation.ofDecision (decision : AuthorizationDecision) :
    AuthorizationDecisionExplanation :=
  ⟨decision.allowed, decision.source.text, decision.reason.text, decision.grantId,
    decision.consumeGrantId.isSome⟩

end Blackboard
