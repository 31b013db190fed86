import Blackboard.Lib.Table

/-!
# The database

The tables of `schema.sql`, one row type each, with the columns some query of the program
reads. A `TEXT` column is a `String`, an `INTEGER` column an `Int`, a nullable column an
`Option`; a status stays the text the table holds. Row ids are unbounded: SQLite stops
handing them out at `2 ^ 63 - 1`.

The primary keys are the key functions of the tables, so a `Database` that breaks one of
them does not exist.
-/

namespace Blackboard

open Relational (Table)

/-- The failures of a statement that the program tells apart. -/
inductive SqlError where
  | invalidQuery
  | queryReturnedNoRows
  | constraintViolation
  deriving DecidableEq, Repr

/-- A row of `messages`. The column `instance` is the participant the message is attributed to. -/
structure Message where
  id : Int
  createdAt : Int
  channel : String
  source : String
  inst : String
  conversationRef : Option String
  kind : String
  body : String
  replyTo : Option Int
  deriving DecidableEq, Repr

/-- A row of `identities`: a client that authenticates with a bearer token. -/
structure ClientIdentity where
  inst : String
  source : String
  label : Option String
  tokenHash : Option String
  deriving DecidableEq, Repr

/-- A row of `web_participants`. -/
structure WebParticipant where
  participantId : String
  source : String
  label : Option String
  role : String
  status : String
  authScheme : Option String
  authSecret : Option String
  totpSecret : Option String
  totpLastStep : Option Int
  totpFailCount : Int
  totpLockedUntil : Option Int
  ownerProvider : Option String
  ownerSubject : Option String
  ownerLogin : Option String
  deriving DecidableEq, Repr

/-- A row of `principal_grants`. -/
structure DurableGrant where
  id : Int
  principalProvider : String
  principalSubject : String
  participantId : String
  capability : String
  resource : Option String
  status : String
  createdAt : Int
  updatedAt : Int
  deriving DecidableEq, Repr

/-- A row of `delegated_grants`. -/
structure DelegatedGrant where
  id : Int
  principalProvider : String
  principalSubject : String
  participantId : String
  capability : String
  resource : Option String
  intentId : Option String
  expiresAt : Option Int
  oneShot : Int
  consumedAt : Option Int
  consumedIntentId : Option String
  status : String
  deriving DecidableEq, Repr

/-- A row of `authorization_admin_events`. -/
structure AuthorizationAdministrationEvent where
  id : Int
  grantStore : String
  grantId : Int
  operation : String
  actorSurface : String
  actorProvider : Option String
  actorSubject : Option String
  actorParticipantId : Option String
  targetPrincipalProvider : String
  targetPrincipalSubject : String
  participantId : String
  capability : String
  resource : Option String
  intentId : Option String
  expiresAt : Option Int
  oneShot : Int
  beforeStatus : Option String
  afterStatus : String
  createdAt : Int
  deriving DecidableEq, Repr

/-- A row of `channels`. -/
structure Channel where
  name : String
  visibility : String
  status : String
  createdAt : Int
  updatedAt : Int
  createdBy : Option String
  deriving DecidableEq, Repr

/-- A row of `navigation_writes`: the reservation of a nonce for one message. -/
structure NavigationWrite where
  inst : String
  nonce : String
  requestHash : String
  messageId : Int
  createdAt : Int
  deriving DecidableEq, Repr

/-- A row of `ingress_provenance`. -/
structure Ingress where
  deliveryId : String
  participantId : Option String
  intentId : String
  transport : String
  externalRef : String
  principalProvider : String
  principalSubject : String
  createdAt : Int
  deriving DecidableEq, Repr

/-- A row of `execution_receipts`. -/
structure ExecutionReceipt where
  participantId : String
  intentId : String
  intentHash : String
  capability : String
  messageId : Int
  status : String
  deriving DecidableEq, Repr

/-- A row of `execution_authorization_provenance`. -/
structure Provenance where
  participantId : String
  intentId : String
  principalProvider : Option String
  principalSubject : Option String
  capability : Option String
  resource : Option String
  source : String
  reason : String
  grantId : Option Int
  deriving DecidableEq, Repr

/-- A participant and one of its intents or nonces. -/
abbrev Pair := String × String

def NavigationWrite.pair (n : NavigationWrite) : Pair := (n.inst, n.nonce)
def ExecutionReceipt.pair (r : ExecutionReceipt) : Pair := (r.participantId, r.intentId)
def Provenance.pair (a : Provenance) : Pair := (a.participantId, a.intentId)

/-- `SET message_id = ?`. -/
def NavigationWrite.setMessage (messageId : Int) (n : NavigationWrite) : NavigationWrite :=
  { n with messageId }

@[simp] theorem NavigationWrite.pair_setMessage (messageId : Int) (n : NavigationWrite) :
    (n.setMessage messageId).pair = n.pair := rfl

structure Database where
  messages : Table Message.id
  identities : Table ClientIdentity.inst
  webParticipants : Table WebParticipant.participantId
  principalGrants : Table DurableGrant.id
  delegatedGrants : Table DelegatedGrant.id
  adminEvents : Table AuthorizationAdministrationEvent.id
  channels : Table Channel.name
  navigationWrites : Table NavigationWrite.pair
  ingress : Table Ingress.deliveryId
  receipts : Table ExecutionReceipt.pair
  provenance : Table Provenance.pair

namespace Database

/-- The database `db init` leaves behind on a new file. -/
def initial : Database where
  messages := .empty
  identities := .empty
  webParticipants := .empty
  principalGrants := .empty
  delegatedGrants := .empty
  adminEvents := .empty
  channels := .empty
  navigationWrites := .empty
  ingress := .empty
  receipts := .empty
  provenance := .empty

end Database

/-- A statement or a transaction: what it answers, and the database it leaves. -/
abbrev Statement (α : Type) := Database → Except SqlError α × Database

end Blackboard
