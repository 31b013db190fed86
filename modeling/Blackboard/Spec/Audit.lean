import Blackboard.Model.Audit

/-!
# What an execution leaves behind

The evidence of one committed execution, as a relation between a store and three of its rows:
the receipt, the message and the authority on record. It has no order in it and no second
guesses; the verifier has both, and `Proof/Verifier.lean` shows that it decides this relation.

The last part says when a row of the evidence tables is accounted for by a receipt; the
sweep looks for the others.
-/

namespace Blackboard

/-- A delivery says where it came from, and on whose behalf. -/
structure Described (i : Ingress) : Prop where
  deliveryId : Text.isBlank i.deliveryId = false
  transport : Text.isBlank i.transport = false
  externalRef : Text.isBlank i.externalRef = false
  principalProvider : Text.isBlank i.principalProvider = false
  principalSubject : Text.isBlank i.principalSubject = false

/-- The delegated grant an execution was decided on: it is for the participant and the
capability of the receipt, and when it is good for one intent only, this intent consumed it. -/
structure DecidedOn (g : DelegatedGrant) (r : ExecutionReceipt) : Prop where
  participantId : g.participantId = r.participantId
  capability : g.capability = r.capability
  consumed : g.oneShot ≠ 0 → g.consumedAt ≠ none ∧ g.consumedIntentId = some r.intentId

/-- The evidence of the execution of `intentId` by `participantId`. -/
structure ExecutionEvidence [Sha256] (db : Database) (participantId intentId : String)
    (r : ExecutionReceipt) (m : Message) (a : Provenance) : Prop where
  /-- The receipt is committed. -/
  receipt : r ∈ db.receipts ∧ r.pair = (participantId, intentId) ∧ r.status = "committed"
  /-- Its message is the participant's, and the receipt has its hash. -/
  message : m ∈ db.messages ∧ m.id = r.messageId ∧ m.inst = participantId
    ∧ messageRequestHash m.channel m.kind m.body m.conversationRef m.replyTo = r.intentHash
  /-- The nonce is reserved for that message under that hash. -/
  navigation : ∃ n ∈ db.navigationWrites, n.pair = (participantId, intentId)
    ∧ n.messageId = r.messageId ∧ n.requestHash = r.intentHash
  /-- Authority is on record. -/
  authority : a ∈ db.provenance ∧ a.pair = (participantId, intentId)
  /-- It is somebody's. -/
  principal : ∃ provider subject, a.principalProvider = some provider
    ∧ a.principalSubject = some subject ∧ Text.isBlank provider = false
    ∧ Text.isBlank subject = false
  /-- It is for the receipt's capability on the message's channel. -/
  scope : a.capability = some r.capability ∧ a.resource = some m.channel
    ∧ Text.isBlank m.channel = false
  /-- Delegated authority cites its grant. -/
  delegated : a.source = "delegated_grants" →
    ∃ g ∈ db.delegatedGrants, a.grantId = some g.id ∧ DecidedOn g r
  /-- Some delivery brought the intent. -/
  delivered : ∃ i ∈ db.ingress, i.participantId = some participantId ∧ i.intentId = intentId
  /-- Every delivery the participant made of it is described. -/
  described : ∀ i ∈ db.ingress, i.participantId = some participantId → i.intentId = intentId →
    Described i
  /-- No delivery of an intent of this name is without a participant. -/
  bound : ∀ i ∈ db.ingress, i.intentId = intentId →
    i.participantId ≠ none ∧ i.participantId ≠ some ""

/-! ## Accounted for -/

/-- Every piece of evidence belongs to a receipt, and every receipt verifies. -/
structure AccountedFor [Sha256] (db : Database) : Prop where
  receipts : ∀ r ∈ db.receipts,
    (verifyExecutionAuditIntegrity db r.participantId r.intentId).valid = true
  provenance : ∀ a ∈ db.provenance, ∃ r ∈ db.receipts, r.pair = a.pair
  navigation : ∀ n ∈ db.navigationWrites, ∃ r ∈ db.receipts, r.pair = n.pair
  ingress : ∀ i ∈ db.ingress, ∃ participantId, i.participantId = some participantId
    ∧ Text.isBlank participantId = false ∧ ∃ r ∈ db.receipts, r.pair = (participantId, i.intentId)

/-- A row of one of the tables of evidence. -/
inductive EvidenceRow where
  | provenance (row : Provenance)
  | ingress (row : Ingress)
  | navigation (row : NavigationWrite)

/-- What is to be reported of a row that no receipt accounts for. -/
inductive Offence (db : Database) : EvidenceRow → ExecutionAuditOrphanEvidence → Prop where
  | provenance {a : Provenance} (hmem : a ∈ db.provenance)
      (horphan : ∀ r ∈ db.receipts, r.pair ≠ a.pair) :
      Offence db (.provenance a) ⟨"orphan_authorization_provenance", some a.participantId,
        a.intentId, a.grantId.map fun id => "grant_id=" ++ toString id⟩
  | unbound {i : Ingress} (hmem : i ∈ db.ingress)
      (hunbound : ∀ participantId, i.participantId = some participantId →
        Text.isBlank participantId = true) :
      Offence db (.ingress i) ⟨"unbound_legacy_ingress", none, i.intentId, some i.deliveryId⟩
  | ingress {i : Ingress} {participantId : String} (hmem : i ∈ db.ingress)
      (hbound : i.participantId = some participantId) (hblank : Text.isBlank participantId = false)
      (horphan : ∀ r ∈ db.receipts, r.pair ≠ (participantId, i.intentId)) :
      Offence db (.ingress i) ⟨"orphan_ingress_provenance", some participantId, i.intentId,
        some i.deliveryId⟩
  | navigation {n : NavigationWrite} (hmem : n ∈ db.navigationWrites)
      (horphan : ∀ r ∈ db.receipts, r.pair ≠ n.pair) :
      Offence db (.navigation n) ⟨"orphan_navigation_reservation", some n.inst, n.nonce,
        some ("message_id=" ++ toString n.messageId)⟩

/-- Two stores whose evidence is the same, row for row, but perhaps stored in another order. -/
structure SameEvidence (db db' : Database) : Prop where
  receipts : ∀ r, r ∈ db.receipts ↔ r ∈ db'.receipts
  messages : ∀ m, m ∈ db.messages ↔ m ∈ db'.messages
  navigation : ∀ n, n ∈ db.navigationWrites ↔ n ∈ db'.navigationWrites
  provenance : ∀ a, a ∈ db.provenance ↔ a ∈ db'.provenance
  delegated : ∀ g, g ∈ db.delegatedGrants ↔ g ∈ db'.delegatedGrants
  ingress : ∀ i, i ∈ db.ingress ↔ i ∈ db'.ingress

end Blackboard
