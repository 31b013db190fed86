import Blackboard.Lib.Transition
import Blackboard.Model.Audit

/-!
# The store and everything that writes to it

One state machine: the actions are the operations that reach the database, each with the
clock it ran at, and a run is a list of them. The transports are not here. What they add
is in the requests they build, and a request may be anything.
-/

namespace Blackboard

/-- Grants created and deactivated, on the command line or for a remote administrator. -/
inductive GrantOp where
  | createDurable (actor : AuthorizationAdministrationActor) (request : DurableGrantCreateRequest)
  | deactivateDurable (actor : AuthorizationAdministrationActor) (grantId : Int)
  | createDelegated (actor : AuthorizationAdministrationActor)
      (request : DelegatedGrantCreateRequest)
  | deactivateDelegated (actor : AuthorizationAdministrationActor) (grantId : Int)
  | createDurableAuthorized (surface : String) (caller : Principal) (callerParticipantId : String)
      (request : DurableGrantCreateRequest)
  | deactivateDurableAuthorized (surface : String) (caller : Principal)
      (callerParticipantId : String) (grantId : Int)
  | createDelegatedAuthorized (surface : String) (caller : Principal)
      (callerParticipantId : String) (request : DelegatedGrantCreateRequest)
  | deactivateDelegatedAuthorized (surface : String) (caller : Principal)
      (callerParticipantId : String) (grantId : Int)

/-- Participants created and changed. -/
inductive ParticipantOp where
  | provision (participantId source : String) (label : Option String)
  | setRole (participantId role : String)
  | setStatus (participantId status : String)
  | setOwner (participantId provider subject : String) (login : Option String)
  | clearOwner (participantId : String)

/-- Channels created and changed. -/
inductive ChannelOp where
  | create (channel visibility : String) (createdBy : Option String)
  | update (channel : String) (visibility status : Option String)

inductive Op where
  | grant (op : GrantOp)
  | participant (op : ParticipantOp)
  | channel (op : ChannelOp)
  /-- A message of an identity, with no intent. -/
  | append (identity : Identity) (channel kind body : String) (replyTo : Option Int)
  /-- A navigation write of a participant, under the hash `navigation_write` computes. -/
  | navigate (participantId channel kind body : String) (replyTo : Option Int) (nonce : String)
  /-- An execution for a participant. -/
  | execute (participantId : String) (request : MessageExecutionRequest)

/-- Navigation writes share their reservations with executions. -/
def Op.isNavigation : Op → Bool
  | navigate .. => true
  | _ => false

/-- An operation and the clock it runs at. -/
structure Action where
  now : Int
  op : Op

inductive Outcome where
  | administered
  | appended
  | unknownParticipant
  | navigated (result : Except SqlError NavigationAppendResult)
  | executed (result : Except SqlError MessageExecutionResult)

namespace Outcome

/-- The message an execution has just appended. -/
def created : Outcome → Option Message
  | executed (.ok (.created message)) => some message
  | _ => none

/-- The message an execution answered with, whether it appended it or found it. -/
def accepted : Outcome → Option Message
  | executed (.ok (.created message)) => some message
  | executed (.ok (.existing message)) => some message
  | _ => none

end Outcome

namespace GrantOp

def apply (now : Int) : GrantOp → Database → Database
  | createDurable actor request, db => (Blackboard.createDurableGrant now actor request db).2
  | deactivateDurable actor grantId, db =>
      (Blackboard.deactivateDurableGrant now actor grantId db).2
  | createDelegated actor request, db => (Blackboard.createDelegatedGrant now actor request db).2
  | deactivateDelegated actor grantId, db =>
      (Blackboard.deactivateDelegatedGrant now actor grantId db).2
  | createDurableAuthorized surface caller participantId request, db =>
      (Blackboard.createDurableGrantAuthorized now surface caller participantId request db).2
  | deactivateDurableAuthorized surface caller participantId grantId, db =>
      (Blackboard.deactivateDurableGrantAuthorized now surface caller participantId grantId db).2
  | createDelegatedAuthorized surface caller participantId request, db =>
      (Blackboard.createDelegatedGrantAuthorized now surface caller participantId request db).2
  | deactivateDelegatedAuthorized surface caller participantId grantId, db =>
      (Blackboard.deactivateDelegatedGrantAuthorized now surface caller participantId grantId db).2

end GrantOp

namespace ParticipantOp

def apply : ParticipantOp → Database → Database
  | provision participantId source label, db =>
      (provisionWebParticipantIdentity participantId source label db).2
  | setRole participantId role, db => (setWebParticipantRole participantId role db).2
  | setStatus participantId status, db => (setWebParticipantStatus participantId status db).2
  | setOwner participantId provider subject login, db =>
      (setParticipantOwner participantId provider subject login db).2
  | clearOwner participantId, db => (clearParticipantOwner participantId db).2

end ParticipantOp

namespace ChannelOp

def apply (now : Int) : ChannelOp → Database → Database
  | create channel visibility createdBy, db => (createChannel now channel visibility createdBy db).2
  | update channel visibility status, db => (updateChannel now channel visibility status db).2

end ChannelOp

section System

variable [Sha256]

def navigationInput (channel kind body : String) (replyTo : Option Int) (nonce : String) :
    NavigationMessageInput where
  channel
  kind
  body
  replyTo
  nonce
  requestHash := navigationRequestHash channel kind body replyTo

namespace Action

def step (a : Action) (db : Database) : Outcome × Database :=
  match a.op with
  | .grant op => (.administered, op.apply a.now db)
  | .participant op => (.administered, op.apply db)
  | .channel op => (.administered, op.apply a.now db)
  | .append identity channel kind body replyTo =>
      (.appended, ((appendMessage identity channel kind body replyTo).run ⟨db, a.now⟩).2.db)
  | .navigate participantId channel kind body replyTo nonce =>
      match getWebParticipant db participantId with
      | none => (.unknownParticipant, db)
      | some identity =>
          let r := appendNavigationMessage a.now identity
            (navigationInput channel kind body replyTo nonce) db
          (.navigated r.1, r.2)
  | .execute participantId request =>
      match getWebParticipant db participantId with
      | none => (.unknownParticipant, db)
      | some identity =>
          let r := executeMessageIntent a.now identity request db
          (.executed r.1, r.2)

end Action

/-- The state a list of actions reaches from a new database. -/
def stateAfter (actions : List Action) : Database :=
  Transition.run Action.step Database.initial actions

/-- What happened on the way. -/
abbrev Happening := Transition.Event Database Action Outcome

def happenings (actions : List Action) : List Happening :=
  Transition.history Action.step Database.initial actions

/-- An execution for a participant. -/
def IsExecution (e : Happening) (participantId : String) (request : MessageExecutionRequest) : Prop :=
  e.act.op = .execute participantId request

end System

/-! ## A small system

One participant who says hello or goodbye in one channel, and the digests of the texts this
takes. -/

section Sample

@[reducible] def sampleSha256 : Sha256 := .ofTable
  [(Text.utf8 (messageRequestText "general" "message" "hello" none none),
      [87, 38, 159, 214, 174, 234, 0, 83, 236, 20, 141, 234, 140, 99, 107, 37,
        236, 224, 93, 83, 68, 188, 29, 183, 157, 230, 250, 70, 71, 154, 6, 79]),
    (Text.utf8 (navigationRequestText "general" "message" "hello" none),
      [135, 254, 222, 17, 214, 17, 197, 69, 106, 175, 119, 176, 143, 176, 121, 21,
        50, 66, 73, 184, 111, 33, 216, 161, 53, 52, 162, 223, 177, 3, 146, 232]),
    (Text.utf8 (messageRequestText "general" "message" "goodbye" none none),
      [44, 85, 238, 242, 188, 79, 132, 210, 249, 219, 123, 170, 210, 161, 149, 60,
        157, 150, 42, 38, 71, 253, 42, 99, 116, 124, 2, 150, 172, 157, 250, 202])]

attribute [local instance] sampleSha256

def sampleIntentId : String := "intent-00000001"

def samplePrincipal : Principal := ⟨"participant-hmac", "alice"⟩

/-- Alice says something, delivered under this id. -/
def sampleRequest (body deliveryId : String) : MessageExecutionRequest where
  authority := ⟨samplePrincipal, "hmac-sha256-v1"⟩
  ingress := ⟨deliveryId, sampleIntentId, "rest", deliveryId, samplePrincipal⟩
  intent := ⟨sampleIntentId, "alice", none, postMessageCapability, "general",
    messageRequestHash "general" "message" body none none⟩
  channel := "general"
  kind := "message"
  body
  replyTo := none

def sampleProvision : Action := ⟨0, .participant (.provision "alice" "chatgpt" none)⟩

def sampleExecution (now : Int) (body deliveryId : String) : Action :=
  ⟨now, .execute "alice" (sampleRequest body deliveryId)⟩

/-- A navigation write of the same words, whose nonce is the intent id. -/
def sampleNavigation (now : Int) : Action :=
  ⟨now, .navigate "alice" "general" "message" "hello" none sampleIntentId⟩

end Sample

end Blackboard
