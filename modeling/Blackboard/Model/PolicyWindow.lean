import Blackboard.Model.AuthorizationAdmin

/-!
# Windows over the policy and its history (`authorization.rs`, `authorization_admin.rs`)

The grants and the administration events are listed window by window. A window fetches one
row more than it shows, and that row says whether there is more.
-/

namespace Blackboard

open Relational (orderBy)

def defaultAuthorizationPolicyWindowSize : Nat := 20
def maxAuthorizationPolicyWindowSize : Nat := 200
def defaultAdministrationHistoryWindowSize : Nat := 20
def maxAdministrationHistoryWindowSize : Nat := 200

inductive AuthorizationPolicyStore where
  | durable
  | delegated
  deriving DecidableEq, Repr

namespace AuthorizationPolicyStore

def parse (value : String) : Option AuthorizationPolicyStore :=
  if value = "durable" then some durable
  else if value = "delegated" then some delegated
  else none

def asStr : AuthorizationPolicyStore → String
  | durable => "durable"
  | delegated => "delegated"

end AuthorizationPolicyStore

/-- `AuthorizationPolicyWindowOrder` and `AdministrationHistoryOrder`. -/
inductive WindowOrder where
  | desc
  | asc
  deriving DecidableEq, Repr

namespace WindowOrder

def parse (value : Option String) : Option WindowOrder :=
  if value.getD "desc" = "desc" then some desc
  else if value.getD "desc" = "asc" then some asc
  else none

def asStr : WindowOrder → String
  | desc => "desc"
  | asc => "asc"

end WindowOrder

/-- The checks every window makes of its cursors, its order and its limit. -/
def validateWindow (before after : Option Int) (limit : Option Nat) (order : Option String)
    (default max : Nat) : Except SqlError (WindowOrder × Nat) :=
  match WindowOrder.parse order with
  | none => .error .invalidQuery
  | some order =>
      if before.any (fun value => decide (value ≤ 0)) || after.any (fun value => decide (value ≤ 0))
          || (before.isSome && after.isSome) || (decide (order = .desc) && after.isSome)
          || (decide (order = .asc) && before.isSome) then .error .invalidQuery
      else if ¬ (1 ≤ limit.getD default ∧ limit.getD default ≤ max) then .error .invalidQuery
      else .ok (order, limit.getD default)

/-- The rows a window fetches: those it keeps beyond the cursor of its order, in that order. -/
def fetchWindow {ρ : Type} (id : ρ → Int) (rows : List ρ) (keep : ρ → Bool) (order : WindowOrder)
    (before after : Option Int) (fetchLimit : Nat) : List ρ :=
  match order with
  | .desc =>
      (orderBy (fun a b => id b ≤ id a)
        (rows.filter fun r => keep r && before.all fun before => decide (id r < before))).take
          fetchLimit
  | .asc =>
      (orderBy (fun a b => id a ≤ id b)
        (rows.filter fun r => keep r && after.all fun after => decide (id r > after))).take
          fetchLimit

/-! ## The policy -/

/-- A durable grant as it is shown: every column. -/
abbrev DurableGrantSnapshot := DurableGrant

structure DelegatedGrantSnapshot where
  id : Int
  principalProvider : String
  principalSubject : String
  participantId : String
  capability : String
  resource : Option String
  intentId : Option String
  expiresAt : Option Int
  oneShot : Bool
  consumedAt : Option Int
  consumedIntentId : Option String
  status : String
  deriving DecidableEq, Repr

def delegatedGrantSnapshot (g : DelegatedGrant) : DelegatedGrantSnapshot :=
  ⟨g.id, g.principalProvider, g.principalSubject, g.participantId, g.capability, g.resource,
    g.intentId, g.expiresAt, decide (g.oneShot ≠ 0), g.consumedAt, g.consumedIntentId, g.status⟩

structure AuthorizationPolicyWindowRequest where
  store : String
  before : Option Int
  after : Option Int
  limit : Option Nat
  order : Option String

structure AuthorizationPolicyWindow where
  store : String
  durableGrants : List DurableGrantSnapshot
  delegatedGrants : List DelegatedGrantSnapshot
  order : String
  hasMore : Bool
  deriving DecidableEq, Repr

def validatePolicyWindowRequest (request : AuthorizationPolicyWindowRequest) :
    Except SqlError (AuthorizationPolicyStore × WindowOrder × Nat) :=
  match AuthorizationPolicyStore.parse request.store with
  | none => .error .invalidQuery
  | some store =>
      (validateWindow request.before request.after request.limit request.order
        defaultAuthorizationPolicyWindowSize maxAuthorizationPolicyWindowSize).map (store, ·)

def readDurableGrantWindow (db : Database) (order : WindowOrder) (before after : Option Int)
    (fetchLimit : Nat) : List DurableGrantSnapshot :=
  fetchWindow DurableGrant.id db.principalGrants.rows (fun _ => true) order before after fetchLimit

def readDelegatedGrantWindow (db : Database) (order : WindowOrder) (before after : Option Int)
    (fetchLimit : Nat) : List DelegatedGrantSnapshot :=
  (fetchWindow DelegatedGrant.id db.delegatedGrants.rows (fun _ => true) order before after
    fetchLimit).map delegatedGrantSnapshot

def readAuthorizationPolicyWindow (db : Database) (request : AuthorizationPolicyWindowRequest) :
    Except SqlError AuthorizationPolicyWindow := do
  let (store, order, limit) ← validatePolicyWindowRequest request
  match store with
  | .durable =>
      let grants := readDurableGrantWindow db order request.before request.after (limit + 1)
      return ⟨store.asStr, grants.take limit, [], order.asStr, decide (grants.length > limit)⟩
  | .delegated =>
      let grants := readDelegatedGrantWindow db order request.before request.after (limit + 1)
      return ⟨store.asStr, [], grants.take limit, order.asStr, decide (grants.length > limit)⟩

/-! ## The administration history -/

/-- An administration event as it is shown: its one-shot flag is a truth value. -/
structure AdministrationEventSnapshot where
  id : Int
  grantStore : String
  grantId : Int
  operation : String
  actorSurface : String
  actorProvider : Option String
  actorSubject : Option String
  actorParticipantId : Option String
  targetPrincipalProvider : String
  targetPrincipalSubject : String
  participantId : String
  capability : String
  resource : Option String
  intentId : Option String
  expiresAt : Option Int
  oneShot : Bool
  beforeStatus : Option String
  afterStatus : String
  createdAt : Int
  deriving DecidableEq, Repr

def administrationEventSnapshot (event : AuthorizationAdministrationEvent) :
    AdministrationEventSnapshot :=
  ⟨event.id, event.grantStore, event.grantId, event.operation, event.actorSurface,
    event.actorProvider, event.actorSubject, event.actorParticipantId,
    event.targetPrincipalProvider, event.targetPrincipalSubject, event.participantId,
    event.capability, event.resource, event.intentId, event.expiresAt,
    decide (event.oneShot ≠ 0), event.beforeStatus, event.afterStatus, event.createdAt⟩

structure AuthorizationAdministrationHistoryWindowRequest where
  participantId : Option String
  before : Option Int
  after : Option Int
  limit : Option Nat
  order : Option String

structure AuthorizationAdministrationHistoryWindow where
  events : List AdministrationEventSnapshot
  order : String
  hasMore : Bool
  deriving DecidableEq, Repr

/-- The participant a history is filtered by. -/
def historyParticipant (participantId : Option String) : Except SqlError (Option String) :=
  match participantId with
  | none => .ok none
  | some value =>
      match validateParticipantId value with
      | none => .error .invalidQuery
      | some participantId => .ok (some participantId)

def readAdministrationEventWindow (db : Database)
    (request : AuthorizationAdministrationHistoryWindowRequest) :
    Except SqlError AuthorizationAdministrationHistoryWindow := do
  let (order, limit) ← validateWindow request.before request.after request.limit request.order
    defaultAdministrationHistoryWindowSize maxAdministrationHistoryWindowSize
  let participantId ← historyParticipant request.participantId
  let rows := fetchWindow AuthorizationAdministrationEvent.id db.adminEvents.rows
    (fun event => participantId.all fun participantId =>
      decide (event.participantId = participantId))
    order request.before request.after (limit + 1)
  let events := rows.map administrationEventSnapshot
  return ⟨events.take limit, order.asStr, decide (events.length > limit)⟩

end Blackboard
