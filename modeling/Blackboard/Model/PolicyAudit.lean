import Blackboard.Lib.Grouping
import Blackboard.Model.Authorization

/-!
# The policy audit (`authorization.rs`)

`auditAuthorizationIntegrity` looks at every row of the two grant tables and reports what
is wrong with it, and which durable grants share a scope. The source pushes its findings on
one list and sorts it at the end; here every row gives its own.
-/

namespace Blackboard

open Relational (orderBy)

structure AuthorizationIntegrityViolation where
  kind : String
  store : String
  grantId : Option Int
  participantId : Option String
  detail : String
  deriving DecidableEq, Repr

structure AuthorizationIntegrityReport where
  valid : Bool
  durableGrantsScanned : Nat
  delegatedGrantsScanned : Nat
  violations : List AuthorizationIntegrityViolation
  deriving DecidableEq, Repr

/-- A finding about one grant, when there is something to find. -/
def pushViolation (found : Prop) [Decidable found] (kind store : String) (grantId : Int)
    (participantId detail : String) : List AuthorizationIntegrityViolation :=
  if found then [⟨kind, store, some grantId, some participantId, detail⟩] else []

@[simp] theorem pushViolation_eq_nil {found : Prop} [Decidable found]
    {kind store participantId detail : String} {grantId : Int} :
    pushViolation found kind store grantId participantId detail = [] ↔ ¬ found := by
  unfold pushViolation
  split
  · rename_i h; simp [h]
  · rename_i h; simp [h]

def auditRequiredText (store : String) (grantId : Int) (participantId kind value : String) :
    List AuthorizationIntegrityViolation :=
  pushViolation (Text.isBlank value = true ∨ Text.anyControl value = true) kind store grantId
    participantId "value is blank or contains control characters"

/-- A text that may be missing. -/
def auditOptionalText (store : String) (grantId : Int) (participantId kind : String)
    (value : Option String) : List AuthorizationIntegrityViolation :=
  match value with
  | some value => auditRequiredText store grantId participantId kind value
  | none => []

/-- What the audit asks of a grant in either table. -/
def auditGrant (db : Database) (store : String) (id : Int)
    (provider subject participantId capability : String) (resource : Option String)
    (status : String) (texts : List AuthorizationIntegrityViolation) :
    List AuthorizationIntegrityViolation :=
  auditRequiredText store id participantId "malformed_principal_provider" provider
    ++ auditRequiredText store id participantId "malformed_principal_subject" subject
    ++ auditRequiredText store id participantId "malformed_participant_id" participantId
    ++ auditRequiredText store id participantId "malformed_capability" capability
    ++ auditOptionalText store id participantId "malformed_resource" resource
    ++ texts
    ++ pushViolation ((db.webParticipants.find participantId).isNone) "missing_participant" store id
      participantId "grant references no durable participant"
    ++ pushViolation (isKnownCapability capability = false) "unsupported_capability" store id
      participantId capability
    ++ pushViolation (¬ (status = "active" ∨ status = "inactive")) "invalid_status" store id
      participantId status

def auditDurableGrant (db : Database) (g : DurableGrant) : List AuthorizationIntegrityViolation :=
  auditGrant db "principal_grants" g.id g.principalProvider g.principalSubject g.participantId
    g.capability g.resource g.status []

/-- A consumed one-shot grant needs the committed receipt of the intent that consumed it. -/
def auditConsumption (db : Database) (g : DelegatedGrant) : List AuthorizationIntegrityViolation :=
  let store := "delegated_grants"
  pushViolation (g.consumedAt.isSome ≠ g.consumedIntentId.isSome) "partial_consumption_metadata"
      store g.id g.participantId "consumed_at and consumed_intent_id must appear together"
    ++ pushViolation (g.oneShot = 0 ∧ (g.consumedAt.isSome ∨ g.consumedIntentId.isSome))
      "non_one_shot_consumption_metadata" store g.id g.participantId
      "only one-shot grants may carry consumption metadata"
    ++ (match g.intentId, g.consumedIntentId with
        | some bound, some consumed =>
            pushViolation (bound ≠ consumed) "consumed_intent_conflicts_with_binding" store g.id
              g.participantId ("bound=" ++ bound ++ ";consumed=" ++ consumed)
        | _, _ => [])
    ++ (match g.consumedIntentId with
        | some consumed =>
            pushViolation (g.oneShot = 1 ∧ g.consumedAt.isSome
                ∧ committedReceiptExists db g.participantId consumed = false)
              "consumed_one_shot_without_committed_receipt" store g.id g.participantId consumed
        | none => [])

def auditDelegatedGrant (db : Database) (g : DelegatedGrant) :
    List AuthorizationIntegrityViolation :=
  auditGrant db "delegated_grants" g.id g.principalProvider g.principalSubject g.participantId
      g.capability g.resource g.status
      (auditOptionalText "delegated_grants" g.id g.participantId "malformed_intent_id" g.intentId)
    ++ pushViolation (¬ (g.oneShot = 0 ∨ g.oneShot = 1)) "invalid_one_shot_flag" "delegated_grants"
      g.id g.participantId (toString g.oneShot)
    ++ auditConsumption db g

/-- The scope two durable grants must not share. -/
structure DurableScopeKey where
  provider : String
  subject : String
  participantId : String
  capability : String
  resource : Option String
  deriving DecidableEq, Repr

def durableScopeKey (g : DurableGrant) : DurableScopeKey :=
  ⟨g.principalProvider, g.principalSubject, g.participantId, g.capability, g.resource⟩

/-- What is wrong with a scope: more than one grant. -/
def auditDurableScope (rows : List DurableGrant) (key : DurableScopeKey) :
    List AuthorizationIntegrityViolation :=
  let ids := (rows.filter fun g => decide (durableScopeKey g = key)).map DurableGrant.id
  if ids.length > 1 then
    [⟨"duplicate_durable_scope", "principal_grants", ids.head?, some key.participantId,
      "principal=" ++ key.provider ++ ":" ++ key.subject ++ ";capability=" ++ key.capability
        ++ ";resource=" ++ key.resource.getD "*"
        ++ ";grant_ids=" ++ ",".intercalate (ids.map toString)⟩]
  else []

/-- `Option::cmp` on row ids: nothing comes before something. -/
def grantIdLt (a b : Option Int) : Prop :=
  match a, b with
  | none, some _ => True
  | some a, some b => a < b
  | _, none => False

instance : DecidableRel grantIdLt := fun a b =>
  match a, b with
  | none, some _ => .isTrue trivial
  | some a, some b => inferInstanceAs (Decidable (a < b))
  | none, none => .isFalse id
  | some _, none => .isFalse id

/-- Violations are sorted by store, grant, kind and detail. -/
def violationLe (a b : AuthorizationIntegrityViolation) : Prop :=
  a.store < b.store ∨ a.store = b.store ∧ (grantIdLt a.grantId b.grantId
    ∨ a.grantId = b.grantId ∧ (a.kind < b.kind ∨ a.kind = b.kind ∧ ¬ b.detail < a.detail))

instance : DecidableRel violationLe := fun _ _ => inferInstanceAs (Decidable (_ ∨ _ ∧ _))

def auditAuthorizationIntegrity (db : Database) : AuthorizationIntegrityReport :=
  let durableRows := orderBy (fun a b : DurableGrant => a.id ≤ b.id) db.principalGrants.rows
  let delegatedRows := orderBy (fun a b : DelegatedGrant => a.id ≤ b.id) db.delegatedGrants.rows
  let violations := orderBy violationLe
    (durableRows.flatMap (auditDurableGrant db)
      ++ (durableRows.map durableScopeKey).dedup.flatMap (auditDurableScope durableRows)
      ++ delegatedRows.flatMap (auditDelegatedGrant db))
  ⟨violations.isEmpty, durableRows.length, delegatedRows.length, violations⟩

/-! ## The map of scopes

The source collects the ids of the durable grants in a hash map under their scopes, and
goes through it in an order nobody knows. -/

def durableScopes (db : Database) : List (DurableScopeKey × List Int) :=
  Grouping.collect durableScopeKey DurableGrant.id
    (orderBy (fun a b : DurableGrant => a.id ≤ b.id) db.principalGrants.rows)

/-- What is wrong with an entry of the map. -/
def auditScopeEntry (entry : DurableScopeKey × List Int) : List AuthorizationIntegrityViolation :=
  let (key, ids) := entry
  if ids.length > 1 then
    [⟨"duplicate_durable_scope", "principal_grants", ids.head?, some key.participantId,
      "principal=" ++ key.provider ++ ":" ++ key.subject ++ ";capability=" ++ key.capability
        ++ ";resource=" ++ key.resource.getD "*"
        ++ ";grant_ids=" ++ ",".intercalate (ids.map toString)⟩]
  else []

/-- The audit when the map gives its entries in the order of `scopes`. -/
def auditAuthorizationIntegrityIn (scopes : List (DurableScopeKey × List Int)) (db : Database) :
    AuthorizationIntegrityReport :=
  let durableRows := orderBy (fun a b : DurableGrant => a.id ≤ b.id) db.principalGrants.rows
  let delegatedRows := orderBy (fun a b : DelegatedGrant => a.id ≤ b.id) db.delegatedGrants.rows
  let violations := orderBy violationLe
    (durableRows.flatMap (auditDurableGrant db) ++ scopes.flatMap auditScopeEntry
      ++ delegatedRows.flatMap (auditDelegatedGrant db))
  ⟨violations.isEmpty, durableRows.length, delegatedRows.length, violations⟩

end Blackboard
