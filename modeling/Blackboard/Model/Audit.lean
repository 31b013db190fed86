import Blackboard.Model.Execution

/-!
# The execution audit (`execution.rs`)

`verifyExecutionAuditIntegrity` looks at everything an execution should have left behind and
reports what it found and what is wrong; `sweepExecutionAuditIntegrity` verifies every
receipt and lists the evidence no receipt accounts for. The parts of the verifier each
give their findings, in the order in which the source pushes them.
-/

namespace Blackboard

open Relational (orderBy)

structure AuthorizationProvenance where
  participantId : String
  intentId : String
  principal : Option Principal
  capability : Option String
  resource : Option String
  source : String
  reason : String
  grantId : Option Int

structure ExecutionAuditIntegrityReport where
  participantId : String
  intentId : String
  valid : Bool
  checks : List String
  violations : List String
  deriving DecidableEq, Repr

structure ExecutionAuditOrphanEvidence where
  kind : String
  participantId : Option String
  intentId : String
  reference : Option String
  deriving DecidableEq, Repr

structure ExecutionAuditSweepReport where
  valid : Bool
  executionsScanned : Nat
  invalidExecutions : List ExecutionAuditIntegrityReport
  orphanEvidence : List ExecutionAuditOrphanEvidence
  deriving DecidableEq, Repr

/-! ## Look-ups -/

def getExecutionReceipt (db : Database) (participantId intentId : String) :
    Option ExecutionReceipt :=
  db.receipts.find (participantId, intentId)

def getAuthorizationProvenance (db : Database) (participantId intentId : String) :
    Option AuthorizationProvenance :=
  (db.provenance.find (participantId, intentId)).map fun row =>
    { participantId := row.participantId
      intentId := row.intentId
      principal := match row.principalProvider, row.principalSubject with
        | some provider, some subject => some ⟨provider, subject⟩
        | _, _ => none
      capability := row.capability
      resource := row.resource
      source := row.source
      reason := row.reason
      grantId := row.grantId }

/-- A delivery as the audit shows it. -/
structure IngressAuditRecord where
  participantId : String
  deliveryId : String
  intentId : String
  transport : String
  externalRef : String
  principal : Principal
  deriving DecidableEq, Repr

structure ExecutionAuditBundle where
  receipt : ExecutionReceipt
  authorization : Option AuthorizationProvenance
  ingress : List IngressAuditRecord

/-- A row of the deliveries of an intent: they are selected by their participant, so there is
one. -/
def ingressAuditRecord (participantId : String) (row : Ingress) : IngressAuditRecord :=
  ⟨participantId, row.deliveryId, row.intentId, row.transport, row.externalRef,
    ⟨row.principalProvider, row.principalSubject⟩⟩

def getExecutionAuditBundle (db : Database) (participantId intentId : String) :
    Option ExecutionAuditBundle :=
  (getExecutionReceipt db participantId intentId).map fun receipt =>
    { receipt
      authorization := getAuthorizationProvenance db participantId intentId
      ingress :=
        (orderBy
          (fun a b : Ingress => a.createdAt < b.createdAt
            ∨ a.createdAt = b.createdAt ∧ a.deliveryId ≤ b.deliveryId)
          (db.ingress.rows.filter fun row =>
            decide (row.participantId = some participantId ∧ row.intentId = intentId))).map
          (ingressAuditRecord participantId) }

/-! ## Findings -/

/-- What a part of the verifier pushes on its two lists. -/
structure Findings where
  checks : List String
  violations : List String
  deriving DecidableEq, Repr

namespace Findings

def none : Findings := ⟨[], []⟩
def check (text : String) : Findings := ⟨[text], []⟩
def violation (text : String) : Findings := ⟨[], [text]⟩

instance : Append Findings :=
  ⟨fun a b => ⟨a.checks ++ b.checks, a.violations ++ b.violations⟩⟩

/-- One text when the condition holds, the other when it does not. -/
def expect (condition : Prop) [Decidable condition] (good bad : String) : Findings :=
  if condition then check good else violation bad

@[simp] theorem violations_append (a b : Findings) :
    (a ++ b).violations = a.violations ++ b.violations := rfl

@[simp] theorem violations_none : none.violations = [] := rfl

@[simp] theorem violations_check (text : String) : (check text).violations = [] := rfl

@[simp] theorem violations_violation (text : String) : (violation text).violations = [text] := rfl

@[simp] theorem violations_expect_eq_nil {condition : Prop} [Decidable condition]
    {good bad : String} : (expect condition good bad).violations = [] ↔ condition := by
  unfold expect
  split
  · rename_i h; simp [h]
  · rename_i h; simp [h]

end Findings

open Findings (check violation expect)

/-! ## The parts of the verifier -/

def verifyReceipt (receipt : ExecutionReceipt) (participantId intentId : String) : Findings :=
  check "receipt_present"
    ++ (if receipt.participantId ≠ participantId ∨ receipt.intentId ≠ intentId then
          violation "receipt_binding_mismatch"
        else .none)
    ++ expect (receipt.status = "committed") "receipt_status_committed" "invalid_receipt_status"

def verifyMessage [Sha256] (db : Database) (receipt : ExecutionReceipt)
    (participantId : String) : Findings :=
  match db.messages.find receipt.messageId with
  | some message =>
      check "message_effect_present"
        ++ expect (message.inst = participantId) "message_effect_binding_valid"
          "message_effect_binding_mismatch"
        ++ expect
          (receipt.intentHash = messageRequestHash message.channel message.kind message.body
            message.conversationRef message.replyTo)
          "intent_hash_matches_effect" "intent_hash_mismatch"
  | none => violation "message_effect_missing"

/-- The reservation of the intent, or else one that shares the nonce or the message. -/
def navigationForReceipt (db : Database) (receipt : ExecutionReceipt)
    (participantId intentId : String) : Option NavigationWrite :=
  match db.navigationWrites.find (participantId, intentId) with
  | some row => some row
  | none =>
      (orderBy
        (fun a b : NavigationWrite =>
          [if a.nonce = intentId then 0 else 1, a.createdAt]
            ≤ [if b.nonce = intentId then 0 else 1, b.createdAt])
        (db.navigationWrites.rows.filter fun row =>
          decide (row.nonce = intentId ∨ row.messageId = receipt.messageId))).head?

def verifyNavigation (db : Database) (receipt : ExecutionReceipt)
    (participantId intentId : String) : Findings :=
  match navigationForReceipt db receipt participantId intentId with
  | none => violation "navigation_reservation_missing"
  | some row =>
      check "navigation_reservation_present"
        ++ expect
          (row.inst = receipt.participantId ∧ row.nonce = receipt.intentId
            ∧ row.messageId = receipt.messageId)
          "navigation_binding_valid" "navigation_binding_mismatch"
        ++ expect (row.requestHash = receipt.intentHash) "navigation_hash_matches_receipt"
          "navigation_hash_mismatch"

def verifyPrincipal (principal : Option Principal) : Findings :=
  match principal with
  | some principal =>
      expect (Text.isBlank principal.provider = false ∧ Text.isBlank principal.subject = false)
        "authorization_principal_bound" "authorization_metadata_invalid"
  | none => violation "authorization_principal_unbound"

def verifyCapability (receipt : ExecutionReceipt) (capability : Option String) : Findings :=
  match capability with
  | some capability =>
      expect (capability = receipt.capability) "authorization_capability_matches_receipt"
        "authorization_capability_mismatch"
  | none => violation "authorization_scope_unbound"

/-- The resource has to be the channel of the message, when there is one. -/
def verifyResource (expected : Option String) (resource : Option String) : Findings :=
  match resource with
  | some resource =>
      if Text.isBlank resource then violation "authorization_metadata_invalid"
      else
        expect (expected = some resource) "authorization_resource_matches_effect"
          "authorization_resource_mismatch"
  | none => violation "authorization_scope_unbound"

def verifyAuthorization (db : Database) (receipt : ExecutionReceipt)
    (participantId intentId : String) : Findings :=
  match db.provenance.count fun row => decide (row.pair = (participantId, intentId)) with
  | 0 => violation "authorization_provenance_missing"
  | 1 =>
      check "authorization_provenance_present"
        ++ match getAuthorizationProvenance db participantId intentId with
          | none => .none
          | some auth =>
              (if auth.participantId ≠ participantId ∨ auth.intentId ≠ intentId then
                  violation "authorization_binding_mismatch"
                else .none)
                ++ verifyPrincipal auth.principal
                ++ verifyCapability receipt auth.capability
                ++ verifyResource ((db.messages.find receipt.messageId).map Message.channel)
                  auth.resource
  | _ => violation "authorization_provenance_duplicate"

def verifyOneShot (receipt : ExecutionReceipt) (grant : DelegatedGrant) : Findings :=
  if grant.oneShot ≠ 0 then
    if grant.consumedAt.isNone then violation "delegated_one_shot_consumption_missing"
    else
      expect (grant.consumedIntentId = some receipt.intentId)
        "delegated_one_shot_consumption_valid" "delegated_one_shot_consumption_mismatch"
  else check "delegated_grant_non_one_shot"

def verifyDelegatedGrant (db : Database) (receipt : ExecutionReceipt)
    (participantId intentId : String) : Findings :=
  match getAuthorizationProvenance db participantId intentId with
  | none => .none
  | some auth =>
      if auth.source ≠ DecisionSource.delegatedGrants.text then .none
      else
        match auth.grantId with
        | none => violation "delegated_grant_reference_missing"
        | some grantId =>
            match db.delegatedGrants.find grantId with
            | none => violation "delegated_grant_missing"
            | some grant =>
                check "delegated_grant_present"
                  ++ expect
                    (grant.participantId = receipt.participantId
                      ∧ grant.capability = receipt.capability)
                    "delegated_grant_binding_valid" "delegated_grant_binding_mismatch"
                  ++ verifyOneShot receipt grant

def ingressOfIntent (db : Database) (intentId : String) : List Ingress :=
  orderBy
    (fun a b : Ingress => a.createdAt < b.createdAt
      ∨ a.createdAt = b.createdAt ∧ a.deliveryId ≤ b.deliveryId)
    (db.ingress.rows.filter fun row => decide (row.intentId = intentId))

def ingressUnbound (row : Ingress) : Bool :=
  decide (row.participantId = none ∨ row.participantId = some "")

def ingressMetadataInvalid (row : Ingress) : Bool :=
  Text.isBlank row.deliveryId || Text.isBlank row.transport || Text.isBlank row.externalRef
    || Text.isBlank row.principalProvider || Text.isBlank row.principalSubject

def verifyIngress (db : Database) (participantId intentId : String) : Findings :=
  let ingress := ingressOfIntent db intentId
  let target := ingress.filter fun row =>
    !ingressUnbound row && decide (row.participantId = some participantId)
  let mismatches := (target.filter fun row =>
    decide (row.intentId ≠ intentId ∨ row.participantId.getD "" ≠ participantId)).map
      fun _ => "ingress_binding_mismatch"
  ⟨[], mismatches⟩
    ++ (if ingress.any ingressUnbound then violation "ingress_participant_unbound" else .none)
    ++ (if target.length = 0 then violation "ingress_missing"
        else if mismatches = [] then check "ingress_binding_valid" else .none)
    ++ (if target.any ingressMetadataInvalid then violation "ingress_metadata_invalid"
        else if target.length > 0 then check "ingress_metadata_valid" else .none)

/-! ## The verifier -/

section Verifier

variable [Sha256]

def verifyCommitted (db : Database) (receipt : ExecutionReceipt)
    (participantId intentId : String) : Findings :=
  verifyReceipt receipt participantId intentId
    ++ verifyMessage db receipt participantId
    ++ verifyNavigation db receipt participantId intentId
    ++ verifyAuthorization db receipt participantId intentId
    ++ verifyDelegatedGrant db receipt participantId intentId
    ++ verifyIngress db participantId intentId

def verifyExecutionAuditIntegrity (db : Database) (participantId intentId : String) :
    ExecutionAuditIntegrityReport :=
  match getExecutionReceipt db participantId intentId with
  | none => ⟨participantId, intentId, false, [], ["receipt_missing"]⟩
  | some receipt =>
      let findings := verifyCommitted db receipt participantId intentId
      let valid := findings.violations.isEmpty
      ⟨participantId, intentId, valid,
        findings.checks ++ (if valid then ["valid_committed_audit"] else []), findings.violations⟩

end Verifier

/-! ## The sweep -/

def receiptExists (db : Database) (pair : Pair) : Bool := (db.receipts.find pair).isSome

def pairLe (a b : Pair) : Prop := a.1 < b.1 ∨ a.1 = b.1 ∧ a.2 ≤ b.2

instance : DecidableRel pairLe := fun _ _ => inferInstanceAs (Decidable (_ ∨ _ ∧ _))

def orphanProvenance (db : Database) : List ExecutionAuditOrphanEvidence :=
  (orderBy (fun a b : Provenance => pairLe a.pair b.pair)
    (db.provenance.rows.filter fun row => !receiptExists db row.pair)).map fun row =>
      ⟨"orphan_authorization_provenance", some row.participantId, row.intentId,
        row.grantId.map fun id => "grant_id=" ++ toString id⟩

/-- What a row of `ingress_provenance` is evidence of when no receipt accounts for it. -/
def orphanIngressRow (db : Database) (row : Ingress) : Option ExecutionAuditOrphanEvidence :=
  match row.participantId with
  | none => some ⟨"unbound_legacy_ingress", none, row.intentId, some row.deliveryId⟩
  | some participantId =>
      if Text.isBlank participantId then
        some ⟨"unbound_legacy_ingress", none, row.intentId, some row.deliveryId⟩
      else if receiptExists db (participantId, row.intentId) = false then
        some ⟨"orphan_ingress_provenance", some participantId, row.intentId, some row.deliveryId⟩
      else none

def orphanIngress (db : Database) : List ExecutionAuditOrphanEvidence :=
  (orderBy (fun a b : Ingress => pairLe (a.intentId, a.deliveryId) (b.intentId, b.deliveryId))
    db.ingress.rows).filterMap (orphanIngressRow db)

def orphanNavigation (db : Database) : List ExecutionAuditOrphanEvidence :=
  (orderBy (fun a b : NavigationWrite => pairLe a.pair b.pair)
    (db.navigationWrites.rows.filter fun row => !receiptExists db row.pair)).map fun row =>
      ⟨"orphan_navigation_reservation", some row.inst, row.nonce,
        some ("message_id=" ++ toString row.messageId)⟩

/-- `Option::cmp`: nothing comes before something. -/
def optionLt (a b : Option String) : Prop :=
  match a, b with
  | none, some _ => True
  | some a, some b => a < b
  | _, none => False

instance : DecidableRel optionLt := fun a b =>
  match a, b with
  | none, some _ => .isTrue trivial
  | some a, some b => inferInstanceAs (Decidable (a < b))
  | none, none => .isFalse id
  | some _, none => .isFalse id

/-- Evidence is sorted by kind, participant, intent and reference. -/
def evidenceLe (a b : ExecutionAuditOrphanEvidence) : Prop :=
  a.kind < b.kind ∨ a.kind = b.kind ∧ (optionLt a.participantId b.participantId
    ∨ a.participantId = b.participantId ∧ (a.intentId < b.intentId
      ∨ a.intentId = b.intentId ∧ ¬ optionLt b.reference a.reference))

instance : DecidableRel evidenceLe := fun _ _ => inferInstanceAs (Decidable (_ ∨ _ ∧ _))

def sweepExecutionAuditIntegrity [Sha256] (db : Database) : ExecutionAuditSweepReport :=
  let identities := orderBy pairLe (db.receipts.rows.map ExecutionReceipt.pair)
  let invalidExecutions :=
    (identities.map fun pair => verifyExecutionAuditIntegrity db pair.1 pair.2).filter
      fun report => !report.valid
  let orphanEvidence :=
    orderBy evidenceLe (orphanProvenance db ++ orphanIngress db ++ orphanNavigation db)
  ⟨invalidExecutions.isEmpty && orphanEvidence.isEmpty, identities.length, invalidExecutions,
    orphanEvidence⟩

end Blackboard
