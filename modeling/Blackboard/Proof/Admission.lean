import Blackboard.Proof.Channels

/-!
# Exactly when a write is accepted

`Execute` says what an accepted write has done. Here is the other half: what the database
has to be like for a write to be accepted at all, once its channel is active. The
conditions are about the database before the write and look at one row of each table.
-/

namespace Blackboard

open Relational (Table TxEnd transaction)

/-! ## Recording -/

section Recording

variable {now : Int} {ingress : IngressProvenance} {receipt : ExecutionReceipt}

/-- The delivery is new, or it is the one recorded under its id. -/
def DeliveryFits (row : Ingress) (t : Table Ingress.deliveryId) : Prop :=
  ∀ i, t.find row.deliveryId = some i → sameDelivery i row

/-- The pair has no receipt, or one for the same message. -/
def ReceiptFits (receipt : ExecutionReceipt) (t : Table ExecutionReceipt.pair) : Prop :=
  ∀ r, t.find receipt.pair = some r → r.capability = receipt.capability
    ∧ r.messageId = receipt.messageId ∧ r.status = receipt.status

theorem recordIngress_of_fits {db : Database}
    (h : DeliveryFits (ingressRow now ingress receipt) db.ingress) :
    ∃ db', recordIngress now ingress receipt db = .ok db' := by
  unfold recordIngress
  cases hfind : db.ingress.find ingress.deliveryId with
  | some existing =>
      simp only
      rw [if_pos (h existing hfind)]
      exact ⟨db, rfl⟩
  | none =>
      have hkey : db.ingress.find (ingressRow now ingress receipt).deliveryId = none := hfind
      simp only [Table.tryInsert_of_none hkey]
      exact ⟨_, rfl⟩

theorem recordReceipt_of_fits {db : Database} (h : ReceiptFits receipt db.receipts) :
    ∃ db', recordReceipt receipt db = .ok db' := by
  unfold recordReceipt
  cases hfind : db.receipts.find receipt.pair with
  | some existing =>
      obtain ⟨hcap, hid, hstatus⟩ := h existing hfind
      simp only
      rw [if_neg (by simp [hcap, hid, hstatus])]
      exact ⟨db, rfl⟩
  | none =>
      simp only [Table.tryInsert_of_none hfind]
      exact ⟨_, rfl⟩

theorem recordExecutionInTx_of_fits {db : Database}
    (hing : DeliveryFits (ingressRow now ingress receipt) db.ingress)
    (hrec : ReceiptFits receipt db.receipts) :
    ∃ db', recordExecutionInTx now ingress receipt db = .ok db' := by
  obtain ⟨db₁, hi⟩ := recordIngress_of_fits hing
  obtain ⟨deliveries, hframe, -⟩ := recordIngress_ok hi
  have hreceipts : db₁.receipts = db.receipts := by rw [hframe]
  rw [← hreceipts] at hrec
  obtain ⟨db₂, hr⟩ := recordReceipt_of_fits hrec
  refine ⟨db₂, ?_⟩
  unfold recordExecutionInTx
  rw [hi]
  exact hr

/-- What was recorded had fitted. -/
theorem IngressRecorded.fits {row : Ingress} {t t' : Table Ingress.deliveryId}
    (h : IngressRecorded row t t') : DeliveryFits row t := by
  intro i hi
  obtain ⟨i', hi', hid, hsame⟩ := h.present
  have heq : i = i' := Table.eq_of_key (h.kept i (Table.mem_of_find hi)) hi'
    ((Table.key_of_find hi).trans hid.symm)
  rw [heq]
  exact hsame

theorem ReceiptRecorded.fits {t t' : Table ExecutionReceipt.pair}
    (h : ReceiptRecorded receipt t t') : ReceiptFits receipt t := by
  intro r hr
  obtain ⟨r', hr', hid, hsame⟩ := h.present
  have heq : r = r' := Table.eq_of_key (h.kept r (Table.mem_of_find hr)) hr'
    ((Table.key_of_find hr).trans hid.symm)
  rw [heq]
  exact hsame

theorem recordAuthorizationProvenanceInTx_of_none {principal : Principal} {resource : String}
    {decision : AuthorizationDecision} {db : Database} (hallowed : decision.allowed = true)
    (hnone : db.provenance.find receipt.pair = none) :
    ∃ db', recordAuthorizationProvenanceInTx receipt principal resource decision db = .ok db' := by
  unfold recordAuthorizationProvenanceInTx
  rw [if_neg (by simp [hallowed])]
  have hkey : db.provenance.find (provenanceRow receipt principal resource decision).pair = none :=
    hnone
  simp only [Table.tryInsert_of_none hkey]
  exact ⟨_, rfl⟩

/-- The grant a decision asks to consume is there to be consumed. -/
def Consumable (decision : AuthorizationDecision) (t : Table DelegatedGrant.id) : Prop :=
  ∀ id, decision.consumeGrantId = some id →
    ∃ g ∈ t, g.id = id ∧ g.status = "active" ∧ g.oneShot = 1 ∧ g.consumedAt = none

theorem consumeGrant_of_consumable {decision : AuthorizationDecision} {intentId : String}
    {db : Database} (h : Consumable decision db.delegatedGrants) :
    ∃ db', consumeGrant now decision intentId db = .ok db' := by
  unfold consumeGrant
  cases hid : decision.consumeGrantId with
  | none => exact ⟨db, rfl⟩
  | some id =>
      obtain ⟨g, hg, hgid, hrest⟩ := h id hid
      -- one row has the id, and it is selected
      have hcount : db.delegatedGrants.count (fun g => decide (g.id = id ∧ g.status = "active"
          ∧ g.oneShot = 1 ∧ g.consumedAt = none)) = 1 := by
        have hrows : db.delegatedGrants.rows.filter (fun r => decide (r.id = id ∧ r.status = "active"
            ∧ r.oneShot = 1 ∧ r.consumedAt = none)) = [g] := by
          rw [← Table.filter_key_of_mem hg]
          refine List.filter_congr fun r hr => ?_
          by_cases hrid : r.id = g.id
          · have : r = g := Table.eq_of_key hr hg hrid
            subst this
            simp [hgid, hrest]
          · simp [hrid, ← hgid]
        rw [Table.count, List.countP_eq_length_filter, hrows]
        rfl
      simp only [consumeDelegatedGrantInTx]
      rw [if_neg (not_not.mpr hcount)]
      exact ⟨_, rfl⟩

end Recording

/-! ## Executions -/

section Execution

variable {now : Int} {identity : Identity} {request : MessageExecutionRequest} {db : Database}

/-- What the tables have to say about an intent id for its execution to be accepted. -/
inductive IntentFits (now : Int) (identity : Identity) (request : MessageExecutionRequest)
    (db : Database) : Prop
  /-- It is taken, by the same request, and the delivery can be recorded. -/
  | taken (n : NavigationWrite) (m : Message)
      (stored : db.navigationWrites.find (executionPair identity request) = some n)
      (found : db.messages.find n.messageId = some m)
      (same : n.requestHash = request.intent.requestHash ∨ sameContent m request)
      (delivery : DeliveryFits (ingressRow now request.ingress (executionReceipt request m.id))
        db.ingress)
      (receipt : ReceiptFits (executionReceipt request m.id) db.receipts)
  /-- It is free, the message replied to is there, and the whole trail can be recorded. -/
  | free (reserved : db.navigationWrites.find (executionPair identity request) = none)
      (replyTarget : replyTargetMissing db request.replyTo = false)
      (delivery : DeliveryFits
        (ingressRow now request.ingress (executionReceipt request db.messages.nextId)) db.ingress)
      (receipt : ReceiptFits (executionReceipt request db.messages.nextId) db.receipts)
      (provenance : db.provenance.find (executionReceipt request db.messages.nextId).pair = none)
      (grant : Consumable (executionDecision now db request) db.delegatedGrants)

/-- The kernel allows the execution and the tables have room for it. -/
structure ExecutionAdmitted (now : Int) (identity : Identity) (request : MessageExecutionRequest)
    (db : Database) : Prop where
  allowed : (executionDecision now db request).allowed = true
  fits : IntentFits now identity request db

theorem delegatedLoop_of_receipts {db' : Database} (h : db'.receipts = db.receipts)
    (participantId : String) (resource : Option String) (intentId : String)
    (grants : List DelegatedGrant) (firstDenial : Option AuthorizationDecision) :
    delegatedLoop now db' participantId resource intentId grants firstDenial
      = delegatedLoop now db participantId resource intentId grants firstDenial := by
  induction grants generalizing firstDenial with
  | nil => rfl
  | cons g rest ih =>
      have hdecision : delegatedDecision db' participantId intentId g
          = delegatedDecision db participantId intentId g := by
        unfold delegatedDecision committedReceiptExists
        rw [h]
      simp only [delegatedLoop, hdecision, ih]

/-- The tables the kernel reads. -/
structure SameAuthority (db db' : Database) : Prop where
  participants : db'.webParticipants = db.webParticipants
  durable : db'.principalGrants = db.principalGrants
  delegated : db'.delegatedGrants = db.delegatedGrants
  receipts : db'.receipts = db.receipts

theorem SameAuthority.evaluateAuthorization {db' : Database} (h : SameAuthority db db') (now : Int)
    (principal : Principal) (participantId capability : String)
    (resource intentId : Option String) :
    evaluateAuthorization now db' principal participantId capability resource intentId
      = evaluateAuthorization now db principal participantId capability resource intentId := by
  unfold Blackboard.evaluateAuthorization evaluateAuthorizationCurrentSchema durableOrImplicit
    participantPolicyRow explicitMatch activeDurableGrants activeDelegatedGrants
  simp only [h.participants, h.durable, h.delegated, delegatedLoop_of_receipts h.receipts]

theorem SameAuthority.executionDecision {db' : Database} (h : SameAuthority db db') (now : Int)
    (request : MessageExecutionRequest) :
    executionDecision now db' request = executionDecision now db request :=
  h.evaluateAuthorization now _ _ _ _ _

/-- None of this is about channels. -/
theorem ExecutionAdmitted.of_channels {channels : Table Channel.name}
    (h : ExecutionAdmitted now identity request { db with channels }) :
    ExecutionAdmitted now identity request db := by
  have hsame : SameAuthority db { db with channels } := ⟨rfl, rfl, rfl, rfl⟩
  obtain ⟨allowed, fits⟩ := h
  rw [hsame.executionDecision] at allowed
  refine ⟨allowed, ?_⟩
  cases fits with
  | taken n m stored found same delivery receipt =>
      exact .taken n m stored found same delivery receipt
  | free reserved replyTarget delivery receipt provenance grant =>
      rw [hsame.executionDecision] at grant
      exact .free reserved replyTarget delivery receipt provenance grant

theorem executionAdmitted_ensureChannel {now' : Int} {channel : String}
    {createdBy : Option String} :
    ExecutionAdmitted now identity request (ensureChannel now' channel createdBy db)
      ↔ ExecutionAdmitted now identity request db := by
  obtain ⟨channels, hens⟩ := ensureChannel_frame now' channel createdBy db
  rw [hens]
  exact ⟨fun h => h.of_channels,
    fun h => @ExecutionAdmitted.of_channels now identity request { db with channels } db.channels h⟩

theorem replayExecution_of_fits {n : NavigationWrite} {m : Message}
    (stored : db.navigationWrites.find (identity.inst, request.intent.intentId) = some n)
    (found : db.messages.find n.messageId = some m)
    (same : n.requestHash = request.intent.requestHash ∨ sameContent m request)
    (delivery : DeliveryFits (ingressRow now request.ingress (executionReceipt request m.id))
      db.ingress)
    (receipt : ReceiptFits (executionReceipt request m.id) db.receipts) :
    ∃ db', replayExecution now identity request db = .ok (.commit (.existing m) db') := by
  obtain ⟨db', hrec⟩ := recordExecutionInTx_of_fits delivery receipt
  unfold replayExecution
  rw [stored]
  simp only [messageById, found]
  rw [if_neg (fun hno => same.elim hno.1 hno.2), hrec]
  exact ⟨_, rfl⟩

theorem firstExecution_of_fits {decision : AuthorizationDecision}
    (allowed : decision.allowed = true)
    (delivery : DeliveryFits
      (ingressRow now request.ingress (executionReceipt request db.messages.nextId)) db.ingress)
    (receipt : ReceiptFits (executionReceipt request db.messages.nextId) db.receipts)
    (provenance : db.provenance.find (executionReceipt request db.messages.nextId).pair = none)
    (grant : Consumable decision db.delegatedGrants) :
    ∃ m db', firstExecution now identity request decision db = .ok (.commit (.created m) db') := by
  unfold firstExecution
  rw [insertReservedMessage_eq]
  simp only [bind, Except.bind, messageRow_id]
  -- the message and its reservation leave the other tables as they were
  generalize hdb₀ : setNavigationMessage identity.inst request.intent.intentId db.messages.nextId
    (insertMessage now identity request.channel request.intent.conversationRef request.kind
      request.body request.replyTo db).2 = db₀
  have hing : db₀.ingress = db.ingress := by rw [← hdb₀]; rfl
  have hrcp : db₀.receipts = db.receipts := by rw [← hdb₀]; rfl
  have hprv : db₀.provenance = db.provenance := by rw [← hdb₀]; rfl
  have hgrants : db₀.delegatedGrants = db.delegatedGrants := by rw [← hdb₀]; rfl
  rw [← hing] at delivery
  rw [← hrcp] at receipt
  obtain ⟨db₁, hrec⟩ := recordExecutionInTx_of_fits delivery receipt
  obtain ⟨deliveries, rows, hframe₁, -⟩ := recordExecutionInTx_ok hrec
  have hprv₁ : db₁.provenance.find (executionReceipt request db.messages.nextId).pair = none := by
    rw [hframe₁]
    rw [← hprv] at provenance
    exact provenance
  have hauth : ∃ db₂, recordAuthorizationProvenanceInTx
      (executionReceipt request db.messages.nextId) request.authority.principal
      request.intent.resource decision db₁ = .ok db₂ :=
    recordAuthorizationProvenanceInTx_of_none allowed hprv₁
  obtain ⟨db₂, hauth⟩ := hauth
  obtain ⟨provenances, hframe₂, -⟩ := recordAuthorizationProvenanceInTx_ok hauth
  have hgrants₂ : Consumable decision db₂.delegatedGrants := by
    rw [hframe₂, hframe₁]
    rw [← hgrants] at grant
    exact grant
  have hcon : ∃ db₃, consumeGrant now decision request.intent.intentId db₂ = .ok db₃ :=
    consumeGrant_of_consumable hgrants₂
  obtain ⟨db₃, hcon⟩ := hcon
  simp only [hrec, hauth, hcon]
  exact ⟨_, _, rfl⟩

variable [Sha256]

/-- The execution answers with a message. -/
def ExecutionAccepted (now : Int) (identity : Identity) (request : MessageExecutionRequest)
    (db : Database) : Prop :=
  ∃ m, (executeMessageIntent now identity request db).1 = .ok (.created m)
    ∨ (executeMessageIntent now identity request db).1 = .ok (.existing m)

/-- **An execution whose channel is active is accepted exactly when it is admitted.** -/
theorem executionAccepted_iff (hcons : requestConsistent identity request)
    (hactive : channelIsActive (ensureChannel now request.channel (some identity.inst) db)
      request.channel = true) :
    ExecutionAccepted now identity request db ↔ ExecutionAdmitted now identity request db := by
  constructor
  · intro ⟨m, hout⟩
    rcases executeMessageIntent_cases now identity request db with
      ⟨m, -, hf⟩ | ⟨m, -, hr⟩ | ⟨-, hno⟩
    · obtain rfl := hf.effects.message
      exact ⟨hf.toAccepted.allowed, .free hf.free hf.replyTarget hf.effects.ingress.fits
        hf.effects.receipts.fits hf.effects.noProvenance hf.effects.grants.free⟩
    · obtain ⟨n, hn, hm, hsame⟩ := hr.stored
      exact ⟨hr.toAccepted.allowed, .taken n m hn hm hsame hr.ingress.fits hr.receipts.fits⟩
    · exact absurd hout (not_or.mpr (hno m))
  · intro h
    have hexec : executeMessageIntent now identity request db
        = transaction (executeMessageIntentInTx now identity request) db := if_pos hcons
    obtain ⟨channels, hens⟩ := ensureChannel_frame now request.channel (some identity.inst) db
    have hbody := executeMessageIntentInTx_of_allowed h.allowed hens
    rw [hens] at hactive
    rw [if_neg (by simp [hactive])] at hbody
    unfold ExecutionAccepted
    rw [hexec]
    cases h.fits with
    | taken n m stored found same delivery receipt =>
        have hfind : ({ db with channels } : Database).navigationWrites.find
            (identity.inst, request.intent.intentId) = some n := stored
        rw [reserveNavigation_of_some hfind, if_pos rfl] at hbody
        have hrun : ∃ db', replayExecution now identity request { db with channels }
            = .ok (.commit (.existing m) db') :=
          replayExecution_of_fits hfind found same delivery receipt
        obtain ⟨db', hrun⟩ := hrun
        rw [Relational.transaction_of_commit (hbody.trans hrun)]
        exact ⟨m, Or.inr rfl⟩
    | free reserved replyTarget delivery receipt provenance grant =>
        have hfind : ({ db with channels } : Database).navigationWrites.find
            (identity.inst, request.intent.intentId) = none := reserved
        rw [reserveNavigation_of_none hfind, if_neg (by simp), if_neg (by simp [replyTarget])]
          at hbody
        have hrun : ∃ m db', firstExecution now identity request (executionDecision now db request)
            { db with
              channels
              navigationWrites := db.navigationWrites.insertOrIgnore
                ⟨identity.inst, request.intent.intentId, request.intent.requestHash, 0, now⟩ }
            = .ok (.commit (.created m) db') :=
          firstExecution_of_fits h.allowed delivery receipt provenance grant
        obtain ⟨m, db', hrun⟩ := hrun
        rw [Relational.transaction_of_commit (hbody.trans hrun)]
        exact ⟨m, Or.inl rfl⟩

end Execution

/-! ## Navigation writes -/

section Navigation

variable {now : Int} {identity : Identity} {input : NavigationMessageInput} {db : Database}

/-- What the tables have to say about a nonce for its navigation write to be accepted. -/
inductive NavigationAdmitted (identity : Identity) (input : NavigationMessageInput)
    (db : Database) : Prop
  /-- It is taken, by the same request. -/
  | taken (n : NavigationWrite) (m : Message)
      (stored : db.navigationWrites.find (identity.inst, input.nonce) = some n)
      (found : db.messages.find n.messageId = some m)
      (same : n.requestHash = input.requestHash)
  /-- It is free, and the message replied to is there. -/
  | free (reserved : db.navigationWrites.find (identity.inst, input.nonce) = none)
      (replyTarget : replyTargetMissing db input.replyTo = false)

theorem NavigationAdmitted.of_channels {channels : Table Channel.name}
    (h : NavigationAdmitted identity input { db with channels }) :
    NavigationAdmitted identity input db := by
  cases h with
  | taken n m stored found same => exact .taken n m stored found same
  | free reserved replyTarget => exact .free reserved replyTarget

theorem navigationAdmitted_ensureChannel {channel : String} {createdBy : Option String} :
    NavigationAdmitted identity input (ensureChannel now channel createdBy db)
      ↔ NavigationAdmitted identity input db := by
  obtain ⟨channels, hens⟩ := ensureChannel_frame now channel createdBy db
  rw [hens]
  exact ⟨fun h => h.of_channels,
    fun h => @NavigationAdmitted.of_channels identity input { db with channels } db.channels h⟩

/-- The navigation write answers with a message. -/
def NavigationAccepted (now : Int) (identity : Identity) (input : NavigationMessageInput)
    (db : Database) : Prop :=
  ∃ m, (appendNavigationMessage now identity input db).1 = .ok (.created m)
    ∨ (appendNavigationMessage now identity input db).1 = .ok (.existing m)

/-- **A navigation write is accepted exactly when it is admitted.** -/
theorem navigationAccepted_iff :
    NavigationAccepted now identity input db ↔ NavigationAdmitted identity input db := by
  have hrun : appendNavigationMessage now identity input db
      = transaction (appendNavigationMessageInTx now identity input none) db := rfl
  obtain ⟨channels, hens⟩ := ensureChannel_frame now input.channel (some identity.inst) db
  have hbody := appendNavigationMessageInTx_eq hens
  unfold NavigationAccepted
  rw [hrun]
  cases hfind : db.navigationWrites.find (identity.inst, input.nonce) with
  | some n =>
      have hfind' : ({ db with channels } : Database).navigationWrites.find
          (identity.inst, input.nonce) = some n := hfind
      rw [reserveNavigation_of_some hfind', if_pos rfl] at hbody
      -- the stored hash and the stored message decide
      by_cases hsame : n.requestHash = input.requestHash
      · cases hm : db.messages.find n.messageId with
        | none =>
            have hend : existingNavigation { db with channels } identity.inst input.nonce
                input.requestHash = .error .queryReturnedNoRows := by
              unfold existingNavigation
              simp [hfind, hsame, messageById, hm]
            rw [Relational.transaction_of_error (hbody.trans hend)]
            refine iff_of_false (by simp) fun h => ?_
            cases h with
            | taken n' m stored found same =>
                rw [hfind, Option.some.injEq] at stored
                rw [← stored, hm] at found
                exact absurd found (by simp)
            | free reserved replyTarget => exact absurd (hfind.symm.trans reserved) (by simp)
        | some m =>
            have hend : existingNavigation { db with channels } identity.inst input.nonce
                input.requestHash = .ok (.rollback (.existing m)) := by
              unfold existingNavigation
              simp [hfind, hsame, messageById, hm]
            rw [Relational.transaction_of_rollback (hbody.trans hend)]
            exact iff_of_true ⟨m, Or.inr rfl⟩ (.taken n m hfind hm hsame)
      · have hend : existingNavigation { db with channels } identity.inst input.nonce
            input.requestHash = .ok (.rollback .nonceConflict) := by
          unfold existingNavigation
          simp [hfind, hsame]
        rw [Relational.transaction_of_rollback (hbody.trans hend)]
        refine iff_of_false (by simp) fun h => ?_
        cases h with
        | taken n' m stored found same =>
            rw [hfind, Option.some.injEq] at stored
            rw [stored] at hsame
            exact hsame same
        | free reserved replyTarget => exact absurd (hfind.symm.trans reserved) (by simp)
  | none =>
      have hfind' : ({ db with channels } : Database).navigationWrites.find
          (identity.inst, input.nonce) = none := hfind
      rw [reserveNavigation_of_none hfind', if_neg (by simp)] at hbody
      cases hreply : replyTargetMissing db input.replyTo with
      | true =>
          rw [if_pos hreply] at hbody
          rw [Relational.transaction_of_rollback hbody]
          refine iff_of_false (by simp) fun h => ?_
          cases h with
          | taken n m stored found same => exact absurd (hfind.symm.trans stored) (by simp)
          | free reserved replyTarget => exact absurd (hreply.symm.trans replyTarget) (by simp)
      | false =>
          rw [if_neg (by simp [hreply]), insertReservedMessage_eq] at hbody
          rw [Relational.transaction_of_commit hbody]
          exact iff_of_true ⟨_, Or.inl rfl⟩ (.free hfind hreply)

/-- A navigation write that inserted a message has found the one it replies to. -/
theorem NavigationWritten.replyTarget {m : Message} {db' : Database}
    (h : NavigationWritten now identity input db m db')
    (hcreated : (appendNavigationMessage now identity input db).1 = .ok (.created m)) :
    replyTargetMissing db input.replyTo = false := by
  cases navigationAccepted_iff.mp ⟨m, Or.inl hcreated⟩ with
  | taken n m' stored found same => exact absurd (h.free.symm.trans stored) (by simp)
  | free reserved replyTarget => exact replyTarget

end Navigation

end Blackboard
