import Blackboard.Model.Authorization

/-!
# Grant administration (`authorization_admin.rs`)

Every operation normalises its actor and its request, then reads, changes the grants and
records an event in one transaction. The authorized form of an operation asks the kernel
first, in the same transaction.
-/

namespace Blackboard

open Relational (TxEnd transaction orderBy)

def maxProviderBytes : Nat := 256
def maxSubjectBytes : Nat := 256
def maxCapabilityBytes : Nat := 128
def maxResourceBytes : Nat := 256
def maxSurfaceBytes : Nat := 64
def maxIntentIdBytes : Nat := 256

/-- What an administration operation answers and the database it leaves. Its errors are texts. -/
abbrev Administration (α : Type) := Database → Except String α × Database

structure AuthorizationAdministrationActor where
  surface : String
  principal : Option Principal
  participantId : Option String

def AuthorizationAdministrationActor.localCli : AuthorizationAdministrationActor :=
  ⟨"local-cli", none, none⟩

structure DurableGrantCreateRequest where
  principalProvider : String
  principalSubject : String
  participantId : String
  capability : String
  resource : Option String

structure DelegatedGrantCreateRequest where
  principalProvider : String
  principalSubject : String
  participantId : String
  capability : String
  resource : Option String
  intentId : Option String
  expiresAt : Option Int
  oneShot : Bool

inductive DurableGrantCreateState where
  | created
  | existing
  | reactivated
  deriving DecidableEq, Repr

structure DurableGrantCreateOutcome where
  id : Int
  state : DurableGrantCreateState
  deriving DecidableEq, Repr

structure DelegatedGrantCreateOutcome where
  id : Int
  deriving DecidableEq, Repr

structure GrantDeactivateOutcome where
  rowsChanged : Nat
  deriving DecidableEq, Repr

structure NormalizedActor where
  surface : String
  provider : Option String
  subject : Option String
  participantId : Option String

structure GrantScope where
  principalProvider : String
  principalSubject : String
  participantId : String
  capability : String
  resource : Option String
  intentId : Option String
  expiresAt : Option Int
  oneShot : Bool

structure AdministrationEvent where
  grantStore : String
  grantId : Int
  operation : String
  scope : GrantScope
  beforeStatus : Option String
  afterStatus : String

/-! ## Normalising -/

/-- `normalize`, also the shape of `normalize_intent_id`: trimmed, not empty, not too long, without
control characters. -/
def normalizeText (value : String) (maxBytes : Nat) : Option String :=
  let value := Text.trim value
  if value = "" ∨ value.utf8ByteSize > maxBytes ∨ Text.anyControl value = true then none
  else some value

def normalizeIntentId (value : String) : Option String := normalizeText value maxIntentIdBytes

def normalize (value : String) (maxBytes : Nat) (field : String) : Except String String :=
  match normalizeText value maxBytes with
  | some value => .ok value
  | none => .error ("invalid " ++ field)

def normalizeOptional (value : Option String) (maxBytes : Nat) (field : String) :
    Except String (Option String) :=
  match value with
  | none => .ok none
  | some value => (normalize value maxBytes field).map some

/-- `validate_participant_id(..).ok_or(message)`. -/
def requireParticipantId (participantId message : String) : Except String String :=
  match validateParticipantId participantId with
  | some participantId => .ok participantId
  | none => .error message

def normalizeActor (actor : AuthorizationAdministrationActor) : Except String NormalizedActor := do
  let surface ← normalize actor.surface maxSurfaceBytes "actor_surface"
  let (provider, subject) ← match actor.principal with
    | some principal => do
        let provider ← normalize principal.provider maxProviderBytes "actor_provider"
        let subject ← normalize principal.subject maxSubjectBytes "actor_subject"
        pure (some provider, some subject)
    | none => pure (none, none)
  let participantId ← match actor.participantId with
    | some value => (requireParticipantId value "invalid actor_participant_id").map some
    | none => pure none
  return { surface, provider, subject, participantId }

/-- The request as it is stored: the same record with normalised fields. -/
def normalizeDurableGrantCreateRequest (request : DurableGrantCreateRequest) :
    Except String DurableGrantCreateRequest := do
  let principalProvider ←
    normalize request.principalProvider maxProviderBytes "principal_provider"
  let principalSubject ← normalize request.principalSubject maxSubjectBytes "principal_subject"
  let participantId ← requireParticipantId request.participantId "invalid participant_id"
  let capability ← normalize request.capability maxCapabilityBytes "capability"
  if isKnownCapability capability = false then .error ("unsupported capability: " ++ capability)
  let resource ← normalizeOptional request.resource maxResourceBytes "resource"
  return { principalProvider, principalSubject, participantId, capability, resource }

/-- Unlike a durable grant, a delegated one may name a capability the kernel does not know. -/
def normalizeDelegatedGrantCreateRequest (request : DelegatedGrantCreateRequest) :
    Except String DelegatedGrantCreateRequest := do
  let principalProvider ←
    normalize request.principalProvider maxProviderBytes "principal_provider"
  let principalSubject ← normalize request.principalSubject maxSubjectBytes "principal_subject"
  let participantId ← requireParticipantId request.participantId "invalid participant_id"
  let capability ← normalize request.capability maxCapabilityBytes "capability"
  let resource ← normalizeOptional request.resource maxResourceBytes "resource"
  let intentId ← match request.intentId with
    | none => pure none
    | some value =>
        match normalizeIntentId value with
        | some value => pure (some value)
        | none => .error "invalid intent_id"
  return { request with
    principalProvider, principalSubject, participantId, capability, resource, intentId }

/-! ## Events -/

def recordEvent (now : Int) (actor : NormalizedActor) (event : AdministrationEvent)
    (db : Database) : Database :=
  let row := fun id =>
    ({ id
       grantStore := event.grantStore
       grantId := event.grantId
       operation := event.operation
       actorSurface := actor.surface
       actorProvider := actor.provider
       actorSubject := actor.subject
       actorParticipantId := actor.participantId
       targetPrincipalProvider := event.scope.principalProvider
       targetPrincipalSubject := event.scope.principalSubject
       participantId := event.scope.participantId
       capability := event.scope.capability
       resource := event.scope.resource
       intentId := event.scope.intentId
       expiresAt := event.scope.expiresAt
       oneShot := if event.scope.oneShot then 1 else 0
       beforeStatus := event.beforeStatus
       afterStatus := event.afterStatus
       createdAt := now } : AuthorizationAdministrationEvent)
  { db with adminEvents := db.adminEvents.append row fun _ => rfl }

def requireActiveParticipant (db : Database) (participantId : String) : Except String Unit :=
  match db.webParticipants.find participantId with
  | none => .error ("unknown participant: " ++ participantId)
  | some row =>
      if row.status = "active" then .ok ()
      else .error ("participant is not active: " ++ participantId)

/-! ## Durable grants -/

/-- The rows of exactly this scope, whatever their status. -/
def durableGrantsOfScope (db : Database) (provider subject participantId capability : String)
    (resource : Option String) : List DurableGrant :=
  orderBy (fun a b => a.id ≤ b.id) (db.principalGrants.rows.filter fun g =>
    decide (g.principalProvider = provider ∧ g.principalSubject = subject
      ∧ g.participantId = participantId ∧ g.capability = capability ∧ g.resource = resource))

def durableScope (request : DurableGrantCreateRequest) : GrantScope :=
  ⟨request.principalProvider, request.principalSubject, request.participantId,
    request.capability, request.resource, none, none, false⟩

/-- The new row. No row of its scope exists, so the table's unique constraint holds. -/
def insertDurableGrant (now : Int) (request : DurableGrantCreateRequest) (db : Database) :
    Int × Database :=
  let row := fun id =>
    (⟨id, request.principalProvider, request.principalSubject, request.participantId,
      request.capability, request.resource, "active", now, now⟩ : DurableGrant)
  (db.principalGrants.nextId,
    { db with principalGrants := db.principalGrants.append row fun _ => rfl })

def createDurableGrantInTx (now : Int) (actor : NormalizedActor)
    (request : DurableGrantCreateRequest) (db : Database) :
    Except String (TxEnd Database DurableGrantCreateOutcome) := do
  requireActiveParticipant db request.participantId
  let rows := durableGrantsOfScope db request.principalProvider request.principalSubject
    request.participantId request.capability request.resource
  match rows.find? fun g => decide (g.status = "active") with
  | some g => .ok (.commit ⟨g.id, .existing⟩ db)
  | none =>
      match rows.head? with
      | some g =>
          let db := { db with
            principalGrants := db.principalGrants.update (fun row => decide (row.id = g.id))
              (fun row => { row with status := "active", updatedAt := now }) fun _ => rfl }
          let db := recordEvent now actor
            ⟨"durable", g.id, "reactivate", durableScope request, some "inactive", "active"⟩ db
          .ok (.commit ⟨g.id, .reactivated⟩ db)
      | none =>
          let (id, db) := insertDurableGrant now request db
          let db := recordEvent now actor
            ⟨"durable", id, "create", durableScope request, none, "active"⟩ db
          .ok (.commit ⟨id, .created⟩ db)

/-- Record one event for each id. -/
def recordEvents (now : Int) (actor : NormalizedActor) (event : Int → AdministrationEvent) :
    List Int → Database → Database
  | [], db => db
  | id :: ids, db => recordEvents now actor event ids (recordEvent now actor (event id) db)

/-- Deactivates every row of the grant's scope that is not inactive yet. -/
def deactivateDurableGrantInTx (now : Int) (actor : NormalizedActor) (grantId : Int)
    (db : Database) : Except String (TxEnd Database (Option GrantDeactivateOutcome)) :=
  if grantId ≤ 0 then .error "grant_id must be positive"
  else
    match db.principalGrants.find grantId with
    | none => .ok (.commit none db)
    | some scope =>
        let sameScope := fun g : DurableGrant =>
          decide (g.principalProvider = scope.principalProvider
            ∧ g.principalSubject = scope.principalSubject
            ∧ g.participantId = scope.participantId ∧ g.capability = scope.capability
            ∧ g.resource = scope.resource ∧ g.status ≠ "inactive")
        let activeIds := (orderBy (fun a b => a.id ≤ b.id)
          (db.principalGrants.rows.filter sameScope)).map DurableGrant.id
        let updated := db.principalGrants.count sameScope
        let db := { db with
          principalGrants := db.principalGrants.update sameScope
            (fun row => { row with status := "inactive", updatedAt := now }) fun _ => rfl }
        let db := recordEvents now actor
          (fun id => ⟨"durable", id, "deactivate",
            ⟨scope.principalProvider, scope.principalSubject, scope.participantId,
              scope.capability, scope.resource, none, none, false⟩, some "active", "inactive"⟩)
          activeIds db
        .ok (.commit (some ⟨updated⟩) db)

/-! ## Delegated grants -/

def insertDelegatedGrant (request : DelegatedGrantCreateRequest) (db : Database) :
    Int × Database :=
  let row := fun id =>
    (⟨id, request.principalProvider, request.principalSubject, request.participantId,
      request.capability, request.resource, request.intentId, request.expiresAt,
      if request.oneShot then 1 else 0, none, none, "active"⟩ : DelegatedGrant)
  (db.delegatedGrants.nextId,
    { db with delegatedGrants := db.delegatedGrants.append row fun _ => rfl })

def createDelegatedGrantInTx (now : Int) (actor : NormalizedActor)
    (request : DelegatedGrantCreateRequest) (db : Database) :
    Except String (TxEnd Database DelegatedGrantCreateOutcome) := do
  requireActiveParticipant db request.participantId
  if request.expiresAt.any fun expiresAt => decide (expiresAt ≤ now) then
    .error "expires_at must be a future Unix timestamp"
  let (id, db) := insertDelegatedGrant request db
  let db := recordEvent now actor
    ⟨"delegated", id, "create",
      ⟨request.principalProvider, request.principalSubject, request.participantId,
        request.capability, request.resource, request.intentId, request.expiresAt,
        request.oneShot⟩, none, "active"⟩ db
  .ok (.commit ⟨id⟩ db)

def deactivateDelegatedGrantInTx (now : Int) (actor : NormalizedActor) (grantId : Int)
    (db : Database) : Except String (TxEnd Database (Option GrantDeactivateOutcome)) :=
  if grantId ≤ 0 then .error "grant_id must be positive"
  else
    match db.delegatedGrants.find grantId with
    | none => .ok (.commit none db)
    | some scope =>
        let selected := fun g : DelegatedGrant => decide (g.id = grantId ∧ g.status ≠ "inactive")
        let updated := db.delegatedGrants.count selected
        let db := { db with
          delegatedGrants := db.delegatedGrants.update selected
            (fun row => { row with status := "inactive" }) fun _ => rfl }
        if updated = 1 then
          let db := recordEvent now actor
            ⟨"delegated", grantId, "deactivate",
              ⟨scope.principalProvider, scope.principalSubject, scope.participantId,
                scope.capability, scope.resource, scope.intentId, scope.expiresAt,
                decide (scope.oneShot ≠ 0)⟩, some scope.status, "inactive"⟩ db
          .ok (.commit (some ⟨updated⟩) db)
        else .ok (.commit (some ⟨updated⟩) db)

/-! ## Operations -/

/-- An operation of the local command line: the actor it names, no question to the kernel. -/
def administer {α : Type} (actor : AuthorizationAdministrationActor)
    (body : NormalizedActor → Database → Except String (TxEnd Database α)) : Administration α :=
  transaction fun db => do
    let actor ← normalizeActor actor
    body actor db

/-- An operation of a remote administrator: the kernel decides in the same transaction. -/
def administerAuthorized {α : Type} (now : Int) (surface : String) (callerPrincipal : Principal)
    (callerParticipantId : String)
    (body : NormalizedActor → Database → Except String (TxEnd Database α)) : Administration α :=
  transaction fun db => do
    let actor ← normalizeActor ⟨surface, some callerPrincipal, some callerParticipantId⟩
    let decision := evaluateAuthorizationCurrentSchema now db callerPrincipal callerParticipantId
      manageAuthorizationPolicy (some authorizationPolicyAdminResource) none
    if decision.allowed = false then .error "authorization denied"
    body actor db

/-- The actor is normalised first, then the request, and only then the transaction opens. -/
def createDurableGrantBody (now : Int) (request : DurableGrantCreateRequest)
    (actor : NormalizedActor) (db : Database) :
    Except String (TxEnd Database DurableGrantCreateOutcome) := do
  let request ← normalizeDurableGrantCreateRequest request
  createDurableGrantInTx now actor request db

def createDelegatedGrantBody (now : Int) (request : DelegatedGrantCreateRequest)
    (actor : NormalizedActor) (db : Database) :
    Except String (TxEnd Database DelegatedGrantCreateOutcome) := do
  let request ← normalizeDelegatedGrantCreateRequest request
  createDelegatedGrantInTx now actor request db

def createDurableGrant (now : Int) (actor : AuthorizationAdministrationActor)
    (request : DurableGrantCreateRequest) : Administration DurableGrantCreateOutcome :=
  administer actor (createDurableGrantBody now request)

def deactivateDurableGrant (now : Int) (actor : AuthorizationAdministrationActor)
    (grantId : Int) : Administration (Option GrantDeactivateOutcome) :=
  administer actor fun actor => deactivateDurableGrantInTx now actor grantId

def createDelegatedGrant (now : Int) (actor : AuthorizationAdministrationActor)
    (request : DelegatedGrantCreateRequest) : Administration DelegatedGrantCreateOutcome :=
  administer actor (createDelegatedGrantBody now request)

def deactivateDelegatedGrant (now : Int) (actor : AuthorizationAdministrationActor)
    (grantId : Int) : Administration (Option GrantDeactivateOutcome) :=
  administer actor fun actor => deactivateDelegatedGrantInTx now actor grantId

/-- The authorized creation normalises the request before it asks the kernel, so a malformed
request is reported as such whoever sends it. -/
def createDurableGrantAuthorized (now : Int) (surface : String) (callerPrincipal : Principal)
    (callerParticipantId : String) (request : DurableGrantCreateRequest) :
    Administration DurableGrantCreateOutcome := fun db =>
  match normalizeActor ⟨surface, some callerPrincipal, some callerParticipantId⟩,
      normalizeDurableGrantCreateRequest request with
  | .error e, _ => (.error e, db)
  | .ok _, .error e => (.error e, db)
  | .ok _, .ok request =>
      administerAuthorized now surface callerPrincipal callerParticipantId
        (fun actor => createDurableGrantInTx now actor request) db

def deactivateDurableGrantAuthorized (now : Int) (surface : String) (callerPrincipal : Principal)
    (callerParticipantId : String) (grantId : Int) :
    Administration (Option GrantDeactivateOutcome) :=
  administerAuthorized now surface callerPrincipal callerParticipantId
    fun actor => deactivateDurableGrantInTx now actor grantId

def createDelegatedGrantAuthorized (now : Int) (surface : String) (callerPrincipal : Principal)
    (callerParticipantId : String) (request : DelegatedGrantCreateRequest) :
    Administration DelegatedGrantCreateOutcome := fun db =>
  match normalizeActor ⟨surface, some callerPrincipal, some callerParticipantId⟩,
      normalizeDelegatedGrantCreateRequest request with
  | .error e, _ => (.error e, db)
  | .ok _, .error e => (.error e, db)
  | .ok _, .ok request =>
      administerAuthorized now surface callerPrincipal callerParticipantId
        (fun actor => createDelegatedGrantInTx now actor request) db

def deactivateDelegatedGrantAuthorized (now : Int) (surface : String)
    (callerPrincipal : Principal) (callerParticipantId : String) (grantId : Int) :
    Administration (Option GrantDeactivateOutcome) :=
  administerAuthorized now surface callerPrincipal callerParticipantId
    fun actor => deactivateDelegatedGrantInTx now actor grantId

end Blackboard
