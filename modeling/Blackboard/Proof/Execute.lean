import Blackboard.Model.Audit
import Blackboard.Proof.Kernel

/-!
# What an execution can do

The transaction of `executeMessageIntent` has a dozen ways out. Three of them matter: it
appends a message and leaves a whole audit trail (`FirstExecuted`), it finds the message
of an earlier reservation and records the delivery (`Replayed`), or it leaves the
database exactly as it was. `executeMessageIntent_cases` says so once; no later proof
unfolds the transaction again. The same for the navigation write.
-/

namespace Blackboard

open Relational (Table TxEnd transaction)

/-! ## Statements -/

theorem reserveNavigation_of_some {now : Int} {inst nonce requestHash : String} {db : Database}
    {n : NavigationWrite} (h : db.navigationWrites.find (inst, nonce) = some n) :
    reserveNavigation now inst nonce requestHash db = (false, db) := by
  have hrow : db.navigationWrites.insertOrIgnore ⟨inst, nonce, requestHash, 0, now⟩
      = db.navigationWrites := Table.insertOrIgnore_of_some h
  simp only [reserveNavigation, hrow, h, Option.isNone_some]

theorem reserveNavigation_of_none {now : Int} {inst nonce requestHash : String} {db : Database}
    (h : db.navigationWrites.find (inst, nonce) = none) :
    reserveNavigation now inst nonce requestHash db
      = (true, { db with
          navigationWrites :=
            db.navigationWrites.insertOrIgnore ⟨inst, nonce, requestHash, 0, now⟩ }) := by
  simp only [reserveNavigation, h, Option.isNone_none]

/-- The reservation after the message was inserted: it points at the message. -/
theorem find_setNavigationMessage {inst nonce : String} {messageId : Int} {db : Database}
    (p : Pair) :
    (setNavigationMessage inst nonce messageId db).navigationWrites.find p
      = (db.navigationWrites.find p).map fun n =>
          if p = (inst, nonce) then n.setMessage messageId else n := by
  simp only [setNavigationMessage, Table.find_update]
  cases h : db.navigationWrites.find p with
  | none => rfl
  | some n =>
      have hk : n.pair = p := Table.key_of_find h
      simp only [Option.map_some, hk, decide_eq_true_eq]

theorem ensureChannel_frame (now : Int) (channel : String) (createdBy : Option String)
    (db : Database) :
    ∃ channels, ensureChannel now channel createdBy db = { db with channels } := by
  unfold ensureChannel insertChannel
  split
  · exact ⟨_, rfl⟩
  · exact ⟨db.channels, rfl⟩

/-- The messages after `INSERT INTO messages`. -/
theorem mem_append_messageRow {t : Table Message.id} {now : Int} {identity : Identity}
    {channel : String} {conversationRef : Option String} {kind body : String} {replyTo : Option Int}
    {m : Message} :
    m ∈ t.append (messageRow now identity channel conversationRef kind body replyTo)
        (messageRow_id now identity channel conversationRef kind body replyTo)
      ↔ m ∈ t ∨ m = messageRow now identity channel conversationRef kind body replyTo t.nextId :=
  Table.mem_append

/-- The message a reserved nonce gets, the id it is given and the two tables it touches. -/
theorem insertReservedMessage_eq {now : Int} {identity : Identity} {channel : String}
    {conversationRef : Option String} {kind body : String} {replyTo : Option Int} {nonce : String}
    {db : Database} :
    insertReservedMessage now identity channel conversationRef kind body replyTo nonce db
      = .ok (messageRow now identity channel conversationRef kind body replyTo db.messages.nextId,
          setNavigationMessage identity.inst nonce db.messages.nextId
            (insertMessage now identity channel conversationRef kind body replyTo db).2) := by
  have hfind : (insertMessage now identity channel conversationRef kind body replyTo
      db).2.messages.find db.messages.nextId
        = some (messageRow now identity channel conversationRef kind body replyTo
            db.messages.nextId) := by
    simp only [insertMessage]
    rw [Table.find_append, if_pos rfl]
  unfold insertReservedMessage
  simp only [messageById]
  have hmsg : (setNavigationMessage identity.inst nonce
      (insertMessage now identity channel conversationRef kind body replyTo db).1
      (insertMessage now identity channel conversationRef kind body replyTo db).2).messages
        = (insertMessage now identity channel conversationRef kind body replyTo db).2.messages :=
    rfl
  have hid : (insertMessage now identity channel conversationRef kind body replyTo db).1
      = db.messages.nextId := rfl
  rw [hmsg, hid, hfind]

/-! ## Recording -/

section Recording

variable {now : Int} {ingress : IngressProvenance} {receipt : ExecutionReceipt}

/-- A delivery is in the table afterwards, and nothing else is new. -/
structure IngressRecorded (row : Ingress) (t t' : Table Ingress.deliveryId) : Prop where
  kept : ∀ i ∈ t, i ∈ t'
  new : ∀ i ∈ t', i ∈ t ∨ i = row
  present : ∃ i ∈ t', i.deliveryId = row.deliveryId ∧ sameDelivery i row

/-- Other deliveries are looked up as before. -/
theorem IngressRecorded.find_of_ne {row : Ingress} {t t' : Table Ingress.deliveryId}
    (h : IngressRecorded row t t') {deliveryId : String} (hne : row.deliveryId ≠ deliveryId) :
    t'.find deliveryId = t.find deliveryId := by
  cases hfind : t.find deliveryId with
  | some i =>
      have hmem := h.kept i (Table.mem_of_find hfind)
      rw [← Table.key_of_find hfind]
      exact Table.find_of_mem hmem
  | none =>
      rw [Table.find_eq_none_iff] at hfind ⊢
      intro i hi
      rcases h.new i hi with hold | rfl
      · exact hfind i hold
      · exact hne

/-- A receipt is in the table afterwards, perhaps with the hash of an earlier request, and nothing
else is new. -/
structure ReceiptRecorded (receipt : ExecutionReceipt) (t t' : Table ExecutionReceipt.pair) :
    Prop where
  kept : ∀ r ∈ t, r ∈ t'
  new : ∀ r ∈ t', r ∈ t ∨ r = receipt ∧ t.find receipt.pair = none
  present : ∃ r ∈ t', r.pair = receipt.pair ∧ r.capability = receipt.capability
    ∧ r.messageId = receipt.messageId ∧ r.status = receipt.status

theorem recordIngress_ok {db db' : Database} (h : recordIngress now ingress receipt db = .ok db') :
    ∃ rows, db' = { db with ingress := rows }
      ∧ IngressRecorded (ingressRow now ingress receipt) db.ingress rows := by
  unfold recordIngress at h
  split at h
  · rename_i existing hfind
    split at h
    · rename_i hsame
      rw [Except.ok.injEq] at h
      subst h
      exact ⟨db.ingress, rfl, fun _ hi => hi, fun _ hi => Or.inl hi, existing,
        Table.mem_of_find hfind, Table.key_of_find hfind, hsame⟩
    · exact absurd h (by simp)
  · split at h
    · rename_i rows hrows
      rw [Except.ok.injEq] at h
      subst h
      obtain ⟨-, hmem, -⟩ := Table.of_tryInsert hrows
      exact ⟨rows, rfl, fun i hi => (hmem i).mpr (Or.inl hi), fun i hi => (hmem i).mp hi, _,
        (hmem _).mpr (Or.inr rfl), rfl, ⟨rfl, rfl, rfl, rfl, rfl, rfl⟩⟩
    · exact absurd h (by simp)

theorem recordReceipt_ok {db db' : Database} (h : recordReceipt receipt db = .ok db') :
    ∃ rows, db' = { db with receipts := rows } ∧ ReceiptRecorded receipt db.receipts rows := by
  unfold recordReceipt at h
  split at h
  · rename_i existing hfind
    split at h
    · exact absurd h (by simp)
    · rename_i hsame
      rw [Except.ok.injEq] at h
      subst h
      simp only [not_or, not_not] at hsame
      exact ⟨db.receipts, rfl, fun _ hr => hr, fun _ hr => Or.inl hr, existing,
        Table.mem_of_find hfind, Table.key_of_find hfind, hsame⟩
  · rename_i hnone
    split at h
    · rename_i receipts hreceipts
      rw [Except.ok.injEq] at h
      subst h
      obtain ⟨-, hmem, -⟩ := Table.of_tryInsert hreceipts
      refine ⟨receipts, rfl, fun r hr => (hmem r).mpr (Or.inl hr), fun r hr => ?_, _,
        (hmem _).mpr (Or.inr rfl), rfl, rfl, rfl, rfl⟩
      exact ((hmem r).mp hr).imp_right fun heq => ⟨heq, hnone⟩
    · exact absurd h (by simp)

theorem recordExecutionInTx_ok {db db' : Database}
    (h : recordExecutionInTx now ingress receipt db = .ok db') :
    ∃ deliveries rows, db' = { db with ingress := deliveries, receipts := rows }
      ∧ IngressRecorded (ingressRow now ingress receipt) db.ingress deliveries
      ∧ ReceiptRecorded receipt db.receipts rows := by
  unfold recordExecutionInTx at h
  cases hi : recordIngress now ingress receipt db with
  | error e => rw [hi] at h; exact absurd h (by simp [Except.bind])
  | ok mid =>
      rw [hi] at h
      obtain ⟨deliveries, rfl, hing⟩ := recordIngress_ok hi
      obtain ⟨rows, rfl, hrec⟩ := recordReceipt_ok h
      exact ⟨deliveries, rows, rfl, hing, hrec⟩

theorem recordAuthorizationProvenanceInTx_ok {principal : Principal} {resource : String}
    {decision : AuthorizationDecision} {db db' : Database}
    (h : recordAuthorizationProvenanceInTx receipt principal resource decision db = .ok db') :
    ∃ rows, db' = { db with provenance := rows }
      ∧ db.provenance.find receipt.pair = none
      ∧ ∀ p, rows.find p
        = if receipt.pair = p then some (provenanceRow receipt principal resource decision)
          else db.provenance.find p := by
  unfold recordAuthorizationProvenanceInTx at h
  split at h
  · exact absurd h (by simp)
  · split at h
    · rename_i provenance hprov
      rw [Except.ok.injEq] at h
      subst h
      obtain ⟨hnone, -, hfind⟩ := Table.of_tryInsert hprov
      exact ⟨provenance, rfl, hnone, hfind⟩
    · exact absurd h (by simp)

end Recording

/-! ## Consuming -/

/-- The delegated grants after a commit: the grant the decision named is consumed by the intent,
the others are as they were. -/
structure GrantConsumed (now : Int) (consumed : Option Int) (intentId : String)
    (t t' : Table DelegatedGrant.id) : Prop where
  mem : ∀ g', g' ∈ t' ↔ ∃ g ∈ t, g' = if consumed = some g.id then
    { g with consumedAt := some now, consumedIntentId := some intentId } else g
  free : ∀ id, consumed = some id →
    ∃ g ∈ t, g.id = id ∧ g.status = "active" ∧ g.oneShot = 1 ∧ g.consumedAt = none

theorem consumeGrant_ok {now : Int} {decision : AuthorizationDecision} {intentId : String}
    {db db' : Database} (h : consumeGrant now decision intentId db = .ok db') :
    ∃ rows, db' = { db with delegatedGrants := rows }
      ∧ GrantConsumed now decision.consumeGrantId intentId db.delegatedGrants rows := by
  unfold consumeGrant at h
  cases hc : decision.consumeGrantId with
  | none =>
      rw [hc] at h
      have h' : db = db' := by simpa using h
      subst h'
      refine ⟨db.delegatedGrants, rfl, fun g' => ?_, fun id hid => absurd hid (by simp)⟩
      simp
  | some grantId =>
      rw [hc] at h
      simp only [consumeDelegatedGrantInTx] at h
      split at h
      · exact absurd h (by simp)
      · rename_i hcount
        rw [Except.ok.injEq] at h
        subst h
        -- exactly one row is selected, and ids are unique: it is the grant
        have hpos : 0 < db.delegatedGrants.rows.countP fun g =>
            decide (g.id = grantId ∧ g.status = "active" ∧ g.oneShot = 1 ∧ g.consumedAt = none) := by
          have := not_not.mp hcount
          unfold Table.count at this
          omega
        obtain ⟨g₀, hg₀, hsel⟩ := List.countP_pos_iff.mp hpos
        obtain ⟨hid, hrest⟩ := of_decide_eq_true hsel
        have hset : ∀ g ∈ db.delegatedGrants,
            (if decide (g.id = grantId ∧ g.status = "active" ∧ g.oneShot = 1
                ∧ g.consumedAt = none) = true then
              { g with consumedAt := some now, consumedIntentId := some intentId } else g)
            = if some grantId = some g.id then
              { g with consumedAt := some now, consumedIntentId := some intentId } else g := by
          intro g hg
          by_cases hgid : g.id = grantId
          · have : g = g₀ := Table.eq_of_key hg hg₀ (hgid.trans hid.symm)
            subst this
            rw [if_pos hsel, if_pos (congrArg some hgid.symm)]
          · have hneg : ¬ some grantId = some g.id := fun heq => hgid (Option.some.inj heq).symm
            rw [if_neg hneg, if_neg fun h => hgid (of_decide_eq_true h).1]
        refine ⟨_, rfl, fun g' => ?_, fun id hid' => ?_⟩
        · rw [Table.mem_update]
          constructor
          · rintro ⟨g, hg, rfl⟩; exact ⟨g, hg, hset g hg⟩
          · rintro ⟨g, hg, rfl⟩; exact ⟨g, hg, (hset g hg).symm⟩
        · rw [Option.some.injEq] at hid'
          subst hid'
          exact ⟨g₀, hg₀, hid, hrest⟩

/-! ## Executions -/

variable [Sha256]

/-- What the kernel decides for an execution. -/
def executionDecision (now : Int) (db : Database) (request : MessageExecutionRequest) :
    AuthorizationDecision :=
  evaluateAuthorization now db request.authority.principal request.intent.participantId
    request.intent.capability (some request.intent.resource) (some request.intent.intentId)

/-- The pair an execution is for. -/
def executionPair (identity : Identity) (request : MessageExecutionRequest) : Pair :=
  (identity.inst, request.intent.intentId)

/-- What every accepted execution went through. -/
structure Accepted (now : Int) (identity : Identity) (request : MessageExecutionRequest)
    (db db' : Database) : Prop where
  consistent : requestConsistent identity request
  allowed : (executionDecision now db request).allowed = true
  /-- The channel is active once the execution has made sure it exists. -/
  active : channelIsActive (ensureChannel now request.channel (some identity.inst) db)
    request.channel = true
  channels : db'.channels = (ensureChannel now request.channel (some identity.inst) db).channels

/-- The execution found its intent id reserved and answered with the message it was reserved for. -/
structure Replayed (now : Int) (identity : Identity) (request : MessageExecutionRequest)
    (db : Database) (m : Message) (db' : Database) : Prop
    extends Accepted now identity request db db' where
  /-- The reservation, and why it counts as the same request. -/
  stored : ∃ n, db.navigationWrites.find (executionPair identity request) = some n
    ∧ db.messages.find n.messageId = some m
    ∧ (n.requestHash = request.intent.requestHash ∨ sameContent m request)
  ingress : IngressRecorded (ingressRow now request.ingress (executionReceipt request m.id))
    db.ingress db'.ingress
  receipts : ReceiptRecorded (executionReceipt request m.id) db.receipts db'.receipts
  frame : db' = { db with
    channels := db'.channels, ingress := db'.ingress, receipts := db'.receipts }

/-- What an execution that commits its intent for the first time adds to the tables: the message,
the delivery, the receipt, the authority it had, and the consumption of a one-shot grant. -/
structure Effects (now : Int) (identity : Identity) (request : MessageExecutionRequest)
    (decision : AuthorizationDecision) (db : Database) (m : Message) (db' : Database) : Prop where
  message : m = messageRow now identity request.channel request.intent.conversationRef
    request.kind request.body request.replyTo db.messages.nextId
  messages : db'.messages = db.messages.append
    (messageRow now identity request.channel request.intent.conversationRef request.kind
      request.body request.replyTo)
    (messageRow_id now identity request.channel request.intent.conversationRef request.kind
      request.body request.replyTo)
  ingress : IngressRecorded (ingressRow now request.ingress (executionReceipt request m.id))
    db.ingress db'.ingress
  receipts : ReceiptRecorded (executionReceipt request m.id) db.receipts db'.receipts
  noProvenance : db.provenance.find (executionReceipt request m.id).pair = none
  provenance : ∀ p, db'.provenance.find p
    = if (executionReceipt request m.id).pair = p then
        some (provenanceRow (executionReceipt request m.id) request.authority.principal
          request.intent.resource decision)
      else db.provenance.find p
  grants : GrantConsumed now decision.consumeGrantId request.intent.intentId db.delegatedGrants
    db'.delegatedGrants

/-- The execution reserved its intent id, appended the message and left its audit trail. -/
structure FirstExecuted (now : Int) (identity : Identity) (request : MessageExecutionRequest)
    (db : Database) (m : Message) (db' : Database) : Prop
    extends Accepted now identity request db db' where
  free : db.navigationWrites.find (executionPair identity request) = none
  replyTarget : replyTargetMissing db request.replyTo = false
  effects : Effects now identity request (executionDecision now db request) db m db'
  navigation : ∀ p, db'.navigationWrites.find p
    = if executionPair identity request = p then
        some ⟨identity.inst, request.intent.intentId, request.intent.requestHash, m.id, now⟩
      else db.navigationWrites.find p
  frame : db' = { db with
    channels := db'.channels, messages := db'.messages, ingress := db'.ingress
    navigationWrites := db'.navigationWrites, receipts := db'.receipts
    provenance := db'.provenance, delegatedGrants := db'.delegatedGrants }

variable {now : Int} {identity : Identity} {request : MessageExecutionRequest} {db : Database}

omit [Sha256] in
theorem replayExecution_cases (now : Int) {n : NavigationWrite}
    (hn : db.navigationWrites.find (identity.inst, request.intent.intentId) = some n) :
    (∃ m db', replayExecution now identity request db = .ok (.commit (.existing m) db')
      ∧ db.messages.find n.messageId = some m
      ∧ (n.requestHash = request.intent.requestHash ∨ sameContent m request)
      ∧ recordExecutionInTx now request.ingress (executionReceipt request m.id) db = .ok db')
    ∨ replayExecution now identity request db = .ok (.rollback .intentConflict)
    ∨ ∃ e, replayExecution now identity request db = .error e := by
  unfold replayExecution
  rw [hn]
  simp only [messageById]
  cases hm : db.messages.find n.messageId with
  | none => exact Or.inr (Or.inr ⟨_, rfl⟩)
  | some m =>
      simp only
      split
      · exact Or.inr (Or.inl rfl)
      · rename_i hagree
        rw [not_and_or, not_not, not_not] at hagree
        cases hr : recordExecutionInTx now request.ingress (executionReceipt request m.id) db with
        | error e => exact Or.inr (Or.inr ⟨e, rfl⟩)
        | ok db' => exact Or.inl ⟨m, db', rfl, rfl, hagree, hr⟩

omit [Sha256] in
theorem firstExecution_cases {decision : AuthorizationDecision} :
    (∃ m db', firstExecution now identity request decision db = .ok (.commit (.created m) db')
      ∧ Effects now identity request decision db m db'
      ∧ db'.navigationWrites = (setNavigationMessage identity.inst request.intent.intentId
          db.messages.nextId db).navigationWrites
      ∧ db' = { db with
          messages := db'.messages, ingress := db'.ingress
          navigationWrites := db'.navigationWrites, receipts := db'.receipts
          provenance := db'.provenance, delegatedGrants := db'.delegatedGrants })
    ∨ ∃ e, firstExecution now identity request decision db = .error e := by
  unfold firstExecution
  rw [insertReservedMessage_eq]
  simp only [bind, Except.bind]
  split
  · exact Or.inr ⟨_, rfl⟩
  · rename_i db₁ hrec
    obtain ⟨deliveries, receipts, rfl, hing, hrcp⟩ := recordExecutionInTx_ok hrec
    split
    · exact Or.inr ⟨_, rfl⟩
    · rename_i db₂ hprov
      obtain ⟨provenance, rfl, hnone, hfind⟩ := recordAuthorizationProvenanceInTx_ok hprov
      split
      · exact Or.inr ⟨_, rfl⟩
      · rename_i db₃ hcon
        obtain ⟨grants, rfl, hgrants⟩ := consumeGrant_ok hcon
        exact Or.inl ⟨_, _, rfl, ⟨rfl, rfl, hing, hrcp, hnone, hfind, hgrants⟩, rfl, rfl⟩

omit [Sha256] in
/-- A reservation that was just made, once it points at the message. -/
theorem find_reserved (now : Int) {inst nonce : String} (requestHash : String) (messageId : Int)
    {db : Database}
    (hnone : db.navigationWrites.find (inst, nonce) = none) (p : Pair) :
    (setNavigationMessage inst nonce messageId
        (reserveNavigation now inst nonce requestHash db).2).navigationWrites.find p
      = if (inst, nonce) = p then some ⟨inst, nonce, requestHash, messageId, now⟩
        else db.navigationWrites.find p := by
  rw [find_setNavigationMessage, reserveNavigation_of_none hnone]
  simp only [Table.find_insertOrIgnore]
  have hkey : NavigationWrite.pair ⟨inst, nonce, requestHash, 0, now⟩ = (inst, nonce) := rfl
  rw [hkey]
  by_cases hp : (inst, nonce) = p
  · subst hp
    simp only [hnone, if_true, Option.none_or, Option.map_some]
    rfl
  · simp only [if_neg hp, if_neg (Ne.symm hp), Option.or_none, Option.map_id']

omit [Sha256] in
/-- The transaction once the kernel has allowed the execution, in the store with the channel made
sure of. -/
theorem executeMessageIntentInTx_of_allowed {channels : Table Channel.name}
    (hallowed : (executionDecision now db request).allowed = true)
    (hens : ensureChannel now request.channel (some identity.inst) db = { db with channels }) :
    executeMessageIntentInTx now identity request db
      = if channelIsActive { db with channels } request.channel = false then
          .ok (.rollback .channelArchived)
        else if (reserveNavigation now identity.inst request.intent.intentId
            request.intent.requestHash { db with channels }).1 = false then
          replayExecution now identity request (reserveNavigation now identity.inst
            request.intent.intentId request.intent.requestHash { db with channels }).2
        else if replyTargetMissing db request.replyTo then .ok (.rollback .replyTargetNotFound)
        else firstExecution now identity request (executionDecision now db request)
          (reserveNavigation now identity.inst request.intent.intentId
            request.intent.requestHash { db with channels }).2 := by
  have hd : ¬ (executionDecision now db request).allowed = false := by simp [hallowed]
  rw [← hens]
  refine (if_neg hd).trans ?_
  rw [hens]
  rfl

/-- **Every way the transaction of an execution can end.** -/
theorem executeMessageIntentInTx_cases (now : Int) (db : Database)
    (hcons : requestConsistent identity request) :
    (∃ m db', executeMessageIntentInTx now identity request db = .ok (.commit (.created m) db')
      ∧ FirstExecuted now identity request db m db')
    ∨ (∃ m db', executeMessageIntentInTx now identity request db = .ok (.commit (.existing m) db')
      ∧ Replayed now identity request db m db')
    ∨ (∃ r, executeMessageIntentInTx now identity request db = .ok (.rollback r)
      ∧ ∀ m, r ≠ .created m ∧ r ≠ .existing m)
    ∨ ∃ e, executeMessageIntentInTx now identity request db = .error e := by
  cases hallowed : (executionDecision now db request).allowed with
  | false =>
      exact Or.inr (Or.inr (Or.inl ⟨.authorizationDenied, if_pos hallowed, by simp⟩))
  | true =>
      obtain ⟨channels, hens⟩ := ensureChannel_frame now request.channel (some identity.inst) db
      have hbody := executeMessageIntentInTx_of_allowed hallowed hens
      have hacc : ∀ db' : Database, db'.channels = channels →
          channelIsActive { db with channels } request.channel = true →
          Accepted now identity request db db' := fun db' hch hactive =>
        ⟨hcons, hallowed, by rw [hens]; exact hactive, by rw [hens]; exact hch⟩
      cases hactive : channelIsActive { db with channels } request.channel with
      | false =>
          exact Or.inr (Or.inr (Or.inl ⟨.channelArchived, hbody.trans (if_pos hactive), by simp⟩))
      | true =>
          rw [if_neg (by simp [hactive])] at hbody
          cases hfind : db.navigationWrites.find (executionPair identity request) with
          | some n =>
              have hfind' : ({ db with channels } : Database).navigationWrites.find
                  (identity.inst, request.intent.intentId) = some n := hfind
              rw [reserveNavigation_of_some hfind', if_pos rfl] at hbody
              rcases replayExecution_cases now hfind' with
                ⟨m, db', hrun, hm, hagree, hrec⟩ | hrun | ⟨e, hrun⟩
              · obtain ⟨deliveries, receipts, rfl, hing, hrcp⟩ := recordExecutionInTx_ok hrec
                exact Or.inr (Or.inl ⟨m, _, hbody.trans hrun, hacc _ rfl hactive,
                  ⟨n, hfind, hm, hagree⟩, hing, hrcp, rfl⟩)
              · exact Or.inr (Or.inr (Or.inl ⟨_, hbody.trans hrun, by simp⟩))
              · exact Or.inr (Or.inr (Or.inr ⟨e, hbody.trans hrun⟩))
          | none =>
              have hfind' : ({ db with channels } : Database).navigationWrites.find
                  (identity.inst, request.intent.intentId) = none := hfind
              have hnav := find_reserved now request.intent.requestHash db.messages.nextId hfind'
              rw [reserveNavigation_of_none hfind', if_neg (by simp)] at hbody
              rw [reserveNavigation_of_none hfind'] at hnav
              cases hreply : replyTargetMissing db request.replyTo with
              | true =>
                  rw [if_pos hreply] at hbody
                  exact Or.inr (Or.inr (Or.inl ⟨_, hbody, by simp⟩))
              | false =>
                  rw [if_neg (by simp [hreply])] at hbody
                  rcases firstExecution_cases with ⟨m, db', hrun, heff, hnavs, hframe⟩ | ⟨e, hrun⟩
                  · refine Or.inl ⟨m, db', hbody.trans hrun, hacc db' (by rw [hframe]) hactive,
                      hfind, hreply, ?_, fun p => ?_, by rw [hframe]⟩
                    · exact ⟨heff.message, heff.messages, heff.ingress, heff.receipts,
                        heff.noProvenance, heff.provenance, heff.grants⟩
                    · rw [hnavs, heff.message]
                      exact hnav p
                  · exact Or.inr (Or.inr (Or.inr ⟨e, hbody.trans hrun⟩))

/-- **Every way an execution can end.** -/
theorem executeMessageIntent_cases (now : Int) (identity : Identity)
    (request : MessageExecutionRequest) (db : Database) :
    (∃ m, (executeMessageIntent now identity request db).1 = .ok (.created m)
      ∧ FirstExecuted now identity request db m (executeMessageIntent now identity request db).2)
    ∨ (∃ m, (executeMessageIntent now identity request db).1 = .ok (.existing m)
      ∧ Replayed now identity request db m (executeMessageIntent now identity request db).2)
    ∨ (executeMessageIntent now identity request db).2 = db
      ∧ ∀ m, (executeMessageIntent now identity request db).1 ≠ .ok (.created m)
        ∧ (executeMessageIntent now identity request db).1 ≠ .ok (.existing m) := by
  by_cases hcons : requestConsistent identity request
  · have hexec : executeMessageIntent now identity request db
        = transaction (executeMessageIntentInTx now identity request) db := if_pos hcons
    rw [hexec]
    rcases executeMessageIntentInTx_cases now db hcons with
      ⟨m, db', hbody, hfirst⟩ | ⟨m, db', hbody, hreplay⟩ | ⟨r, hbody, hr⟩ | ⟨e, hbody⟩
    · rw [Relational.transaction_of_commit hbody]
      exact Or.inl ⟨m, rfl, hfirst⟩
    · rw [Relational.transaction_of_commit hbody]
      exact Or.inr (Or.inl ⟨m, rfl, hreplay⟩)
    · rw [Relational.transaction_of_rollback hbody]
      exact Or.inr (Or.inr ⟨rfl, fun m =>
        ⟨fun h => (hr m).1 (Except.ok.inj h), fun h => (hr m).2 (Except.ok.inj h)⟩⟩)
    · rw [Relational.transaction_of_error hbody]
      exact Or.inr (Or.inr ⟨rfl, fun m => ⟨by simp, by simp⟩⟩)
  · have hexec : executeMessageIntent now identity request db = (.error .invalidQuery, db) :=
      if_neg hcons
    rw [hexec]
    exact Or.inr (Or.inr ⟨rfl, fun m => ⟨by simp, by simp⟩⟩)

/-! ## Navigation writes -/

/-- A navigation write reserved its nonce and appended the message. -/
structure NavigationWritten (now : Int) (identity : Identity) (input : NavigationMessageInput)
    (db : Database) (m : Message) (db' : Database) : Prop where
  free : db.navigationWrites.find (identity.inst, input.nonce) = none
  message : m = messageRow now identity input.channel none input.kind input.body input.replyTo
    db.messages.nextId
  messages : db'.messages = db.messages.append
    (messageRow now identity input.channel none input.kind input.body input.replyTo)
    (messageRow_id now identity input.channel none input.kind input.body input.replyTo)
  navigation : ∀ p, db'.navigationWrites.find p
    = if (identity.inst, input.nonce) = p then
        some ⟨identity.inst, input.nonce, input.requestHash, m.id, now⟩
      else db.navigationWrites.find p
  channels : db'.channels = (ensureChannel now input.channel (some identity.inst) db).channels
  frame : db' = { db with
    channels := db'.channels, messages := db'.messages, navigationWrites := db'.navigationWrites }

/-- A navigation write found its nonce reserved under the same hash. It changes nothing. -/
structure NavigationFound (identity : Identity) (input : NavigationMessageInput) (db : Database)
    (m : Message) : Prop where
  stored : ∃ n, db.navigationWrites.find (identity.inst, input.nonce) = some n
    ∧ db.messages.find n.messageId = some m ∧ n.requestHash = input.requestHash

omit [Sha256] in
theorem existingNavigation_cases {inst nonce requestHash : String} {n : NavigationWrite}
    (hn : db.navigationWrites.find (inst, nonce) = some n) :
    (∃ m, existingNavigation db inst nonce requestHash = .ok (.rollback (.existing m))
      ∧ db.messages.find n.messageId = some m ∧ n.requestHash = requestHash)
    ∨ existingNavigation db inst nonce requestHash = .ok (.rollback .nonceConflict)
    ∨ ∃ e, existingNavigation db inst nonce requestHash = .error e := by
  unfold existingNavigation
  rw [hn]
  simp only [messageById]
  split
  · exact Or.inr (Or.inl rfl)
  · rename_i hhash
    cases hm : db.messages.find n.messageId with
    | none => exact Or.inr (Or.inr ⟨_, rfl⟩)
    | some m => exact Or.inl ⟨m, rfl, rfl, not_not.mp hhash⟩

omit [Sha256] in
/-- The transaction of a navigation write, in the store with the channel made sure of. -/
theorem appendNavigationMessageInTx_eq {input : NavigationMessageInput}
    {channels : Table Channel.name}
    (hens : ensureChannel now input.channel (some identity.inst) db = { db with channels }) :
    appendNavigationMessageInTx now identity input none db
      = if (reserveNavigation now identity.inst input.nonce input.requestHash
            { db with channels }).1 = false then
          existingNavigation (reserveNavigation now identity.inst input.nonce input.requestHash
            { db with channels }).2 identity.inst input.nonce input.requestHash
        else if replyTargetMissing db input.replyTo then .ok (.rollback .replyTargetNotFound)
        else
          match insertReservedMessage now identity input.channel none input.kind input.body
              input.replyTo input.nonce (reserveNavigation now identity.inst input.nonce
                input.requestHash { db with channels }).2 with
          | .error e => .error e
          | .ok (message, db) => .ok (.commit (.created message) db) := by
  unfold appendNavigationMessageInTx
  rw [hens]
  rfl

omit [Sha256] in
/-- **Every way a navigation write can end.** -/
theorem appendNavigationMessage_cases (now : Int) (identity : Identity)
    (input : NavigationMessageInput) (db : Database) :
    (∃ m, (appendNavigationMessage now identity input db).1 = .ok (.created m)
      ∧ NavigationWritten now identity input db m (appendNavigationMessage now identity input db).2)
    ∨ (∃ m, (appendNavigationMessage now identity input db).1 = .ok (.existing m)
      ∧ NavigationFound identity input db m
      ∧ (appendNavigationMessage now identity input db).2 = db)
    ∨ (appendNavigationMessage now identity input db).2 = db
      ∧ ∀ m, (appendNavigationMessage now identity input db).1 ≠ .ok (.created m)
        ∧ (appendNavigationMessage now identity input db).1 ≠ .ok (.existing m) := by
  obtain ⟨channels, hens⟩ := ensureChannel_frame now input.channel (some identity.inst) db
  have hbody := appendNavigationMessageInTx_eq hens
  have hrun : appendNavigationMessage now identity input db
      = transaction (appendNavigationMessageInTx now identity input none) db := rfl
  rw [hrun]
  cases hfind : db.navigationWrites.find (identity.inst, input.nonce) with
  | some n =>
      have hfind' : ({ db with channels } : Database).navigationWrites.find
          (identity.inst, input.nonce) = some n := hfind
      rw [reserveNavigation_of_some hfind', if_pos rfl] at hbody
      rcases existingNavigation_cases hfind' with ⟨m, hend, hm, hhash⟩ | hend | ⟨e, hend⟩
      · rw [Relational.transaction_of_rollback (hbody.trans hend)]
        exact Or.inr (Or.inl ⟨m, rfl, ⟨n, hfind, hm, hhash⟩, rfl⟩)
      · rw [Relational.transaction_of_rollback (hbody.trans hend)]
        exact Or.inr (Or.inr ⟨rfl, fun m => ⟨by simp, by simp⟩⟩)
      · rw [Relational.transaction_of_error (hbody.trans hend)]
        exact Or.inr (Or.inr ⟨rfl, fun m => ⟨by simp, by simp⟩⟩)
  | none =>
      have hfind' : ({ db with channels } : Database).navigationWrites.find
          (identity.inst, input.nonce) = none := hfind
      have hnav := find_reserved now input.requestHash db.messages.nextId hfind'
      rw [reserveNavigation_of_none hfind'] at hbody hnav
      rw [if_neg (by simp)] at hbody
      cases hreply : replyTargetMissing db input.replyTo with
      | true =>
          rw [if_pos hreply] at hbody
          rw [Relational.transaction_of_rollback hbody]
          exact Or.inr (Or.inr ⟨rfl, fun m => ⟨by simp, by simp⟩⟩)
      | false =>
          rw [if_neg (by simp [hreply]), insertReservedMessage_eq] at hbody
          rw [Relational.transaction_of_commit hbody]
          exact Or.inl ⟨_, rfl, hfind, rfl, rfl, hnav, by rw [hens]; rfl, rfl⟩

end Blackboard
