import Blackboard.Model.Authorization

/-!
# What the policy says

The authorization policy as a relation between a store and a request, with no order in
it: who may act for a participant, on what. The kernel is a cascade of ordered queries;
`Proof/Kernel.lean` shows that it decides this relation.
-/

namespace Blackboard

/-- Somebody asks to use a capability of a participant, perhaps on a resource and for an intent. -/
structure AccessRequest where
  principal : Principal
  participantId : String
  capability : String
  resource : Option String
  intentId : Option String

namespace AccessRequest

variable (q : AccessRequest)

/-- An active durable grant for exactly this principal, participant and capability. -/
def HoldsDurable (g : DurableGrant) : Prop :=
  g.principalProvider = q.principal.provider ∧ g.principalSubject = q.principal.subject
    ∧ g.participantId = q.participantId ∧ g.capability = q.capability ∧ g.status = "active"

/-- An active delegated grant for exactly this principal, participant and capability. -/
def HoldsDelegated (g : DelegatedGrant) : Prop :=
  g.principalProvider = q.principal.provider ∧ g.principalSubject = q.principal.subject
    ∧ g.participantId = q.participantId ∧ g.capability = q.capability ∧ g.status = "active"

/-- The participant exists and is active. -/
def ParticipantActive (db : Database) : Prop :=
  ∃ p ∈ db.webParticipants, p.participantId = q.participantId ∧ p.status = "active"

/-- A durable grant covers the resource. -/
def DurableAuthority (db : Database) : Prop :=
  ∃ g ∈ db.principalGrants, q.HoldsDurable g ∧ (g.resource = none ∨ g.resource = q.resource)

/-- No durable grant speaks about this capability, and the principal has it by what it is. -/
def ImplicitAuthority (db : Database) : Prop :=
  (∀ g ∈ db.principalGrants, ¬ q.HoldsDurable g)
    ∧ ∃ row, participantPolicyRow db q.participantId = some row
      ∧ (implicitAuthorityReason q.principal q.participantId q.capability q.resource row).isSome

/-- A one-shot grant that some intent has consumed belongs to that intent alone. -/
def ConsumedByOther (g : DelegatedGrant) (intentId : String) : Prop :=
  g.oneShot ≠ 0 ∧ ∃ consumer, g.consumedIntentId = some consumer ∧ consumer ≠ intentId

/-- A grant is good until it expires, and for the intent that consumed it even after. -/
def Unexpired (g : DelegatedGrant) (intentId : String) (now : Int) : Prop :=
  (∀ expiresAt, g.expiresAt = some expiresAt → now < expiresAt)
    ∨ g.oneShot ≠ 0 ∧ g.consumedIntentId = some intentId

/-- A delegated grant covers the resource and the intent. -/
def DelegatedAuthority (now : Int) (db : Database) : Prop :=
  ∃ intentId, q.intentId = some intentId
    ∧ ∃ g ∈ db.delegatedGrants, q.HoldsDelegated g
      ∧ (g.resource = none ∨ g.resource = q.resource)
      ∧ (g.intentId = none ∨ g.intentId = some intentId)
      ∧ ¬ ConsumedByOther g intentId ∧ Unexpired g intentId now

/-- **The policy.** -/
def Permitted (now : Int) (db : Database) : Prop :=
  q.ParticipantActive db
    ∧ (q.DurableAuthority db ∨ q.ImplicitAuthority db ∨ q.DelegatedAuthority now db)

/-- What the kernel decides on this request. -/
def decision (now : Int) (db : Database) : AuthorizationDecision :=
  evaluateAuthorizationCurrentSchema now db q.principal q.participantId q.capability q.resource
    q.intentId

end AccessRequest

/-- Consumption is recorded whole, and a consumed one-shot grant has the committed receipt of the
intent that consumed it. -/
structure GrantsConsistent (db : Database) : Prop where
  /-- `consumed_at` and `consumed_intent_id` are both set or both null. -/
  paired : ∀ g ∈ db.delegatedGrants, g.oneShot ≠ 0 →
    (g.consumedAt = none ↔ g.consumedIntentId = none)
  /-- The intent that consumed a grant was committed. -/
  committed : ∀ g ∈ db.delegatedGrants, g.oneShot ≠ 0 → ∀ intentId,
    g.consumedIntentId = some intentId →
      ∃ r ∈ db.receipts, r.participantId = g.participantId ∧ r.intentId = intentId
        ∧ r.status = "committed"

end Blackboard
