import Blackboard.Proof.Ledger

/-!
# What every reachable store satisfies

`StoreInv` puts the four invariants together: it holds of a new database and every step
keeps it, so it holds after every run (`storeInv_stateAfter`), whatever mixture of
executions, navigation writes, plain appends and administration the run is.

Only two steps have anything to show. A first execution adds one row to each table of the
trail, and no row of the trail was there for its intent: a receipt needs a reservation,
and the reservation was free. A replay adds a delivery, and a receipt where the
reservation had none.
-/

namespace Blackboard

open Relational (Table)

variable [Sha256]

/-! ## The invariants -/

/-- The hash an execution of this message's content carries. -/
def Message.requestHash (m : Message) : String :=
  messageRequestHash m.channel m.kind m.body m.conversationRef m.replyTo

/-- Every reservation points at a message of its participant. -/
def ReservedInv (db : Database) : Prop :=
  ∀ n ∈ db.navigationWrites, ∃ m ∈ db.messages, m.id = n.messageId ∧ m.inst = n.inst

/-- The recorded authority stands on this delegated grant. -/
def Cites (a : Provenance) (g : DelegatedGrant) : Prop :=
  a.source = DecisionSource.delegatedGrants.text ∧ a.grantId = some g.id

/-- A delegated grant is one the recorded authority could stand on: it is for the participant and
the capability, and if it is good for one intent only, for this one. -/
structure Covers (g : DelegatedGrant) (a : Provenance) : Prop where
  id : a.grantId = some g.id
  participantId : g.participantId = a.participantId
  capability : a.capability = some g.capability
  consumed : g.oneShot ≠ 0 → g.consumedAt ≠ none ∧ g.consumedIntentId = some a.intentId

/-- Recorded authority belongs to an intent that was executed: its reservation, its receipt, its
message and the authority itself say the same. -/
structure Accounted (db : Database) (a : Provenance) (n : NavigationWrite) (r : ExecutionReceipt)
    (m : Message) : Prop where
  navigation : n ∈ db.navigationWrites ∧ n.pair = a.pair ∧ n.messageId = m.id
  receipt : r ∈ db.receipts ∧ r.pair = a.pair ∧ r.messageId = m.id
  message : m ∈ db.messages ∧ m.inst = a.participantId
  hash : n.requestHash = m.requestHash ∧ r.intentHash = m.requestHash
  capability : a.capability = some r.capability
  resource : a.resource = some m.channel
  principal : ∃ provider subject, a.principalProvider = some provider
    ∧ a.principalSubject = some subject ∧ Named provider subject
  delegated : a.source = DecisionSource.delegatedGrants.text →
    ∃ g ∈ db.delegatedGrants, Covers g a

/-- What the audit trail says, it says of executed intents. -/
structure LedgerInv (db : Database) : Prop where
  /-- A receipt is committed, has a reservation with the same message, and a delivery. -/
  receipts : ∀ r ∈ db.receipts, r.status = "committed" ∧ r.capability = postMessageCapability
    ∧ (∃ n ∈ db.navigationWrites, n.pair = r.pair ∧ n.messageId = r.messageId)
    ∧ ∃ i ∈ db.ingress, i.participantId = some r.participantId ∧ i.intentId = r.intentId
  /-- A delivery is bound to a participant, comes from somebody with a name, and has a receipt. -/
  ingress : ∀ i ∈ db.ingress, Named i.principalProvider i.principalSubject
    ∧ ∃ participantId, i.participantId = some participantId
      ∧ Text.isBlank participantId = false
      ∧ ∃ r ∈ db.receipts, r.pair = (participantId, i.intentId)
  provenance : ∀ a ∈ db.provenance, ∃ n r m, Accounted db a n r m

/-- Consumption is recorded whole, for one-shot grants only, and for an intent whose recorded
authority cites the grant. -/
structure ConsumedInv (db : Database) : Prop where
  paired : ∀ g ∈ db.delegatedGrants, g.consumedAt = none ↔ g.consumedIntentId = none
  oneShot : ∀ g ∈ db.delegatedGrants, g.consumedAt ≠ none → g.oneShot ≠ 0
  cited : ∀ g ∈ db.delegatedGrants, ∀ intentId, g.consumedIntentId = some intentId →
    ∃ a ∈ db.provenance, a.pair = (g.participantId, intentId) ∧ Cites a g

/-- **The invariant of every run.** -/
structure StoreInv (db : Database) : Prop where
  texts : TextsInv db
  reserved : ReservedInv db
  ledger : LedgerInv db
  consumed : ConsumedInv db

theorem storeInv_initial : StoreInv Database.initial where
  texts := ⟨fun _ h => absurd h (Table.not_mem_empty _), fun _ h => absurd h (Table.not_mem_empty _),
    fun _ h => absurd h (Table.not_mem_empty _), fun _ h => absurd h (Table.not_mem_empty _)⟩
  reserved := fun _ h => absurd h (Table.not_mem_empty _)
  ledger := ⟨fun _ h => absurd h (Table.not_mem_empty _),
    fun _ h => absurd h (Table.not_mem_empty _), fun _ h => absurd h (Table.not_mem_empty _)⟩
  consumed := ⟨fun _ h => absurd h (Table.not_mem_empty _),
    fun _ h => absurd h (Table.not_mem_empty _), fun _ h => absurd h (Table.not_mem_empty _)⟩

/-! ## Rows that were there before -/

section Kept

variable {db db' : Database}

omit [Sha256] in
theorem ReservedInv.of_mem (h : ReservedInv db) (hg : Grows db db') {n : NavigationWrite}
    (hn : n ∈ db.navigationWrites) : ∃ m ∈ db'.messages, m.id = n.messageId ∧ m.inst = n.inst := by
  obtain ⟨m, hm, hmid⟩ := h n hn
  exact ⟨m, hg.messages m hm, hmid⟩

omit [Sha256] in
theorem Covers.kept {g g' : DelegatedGrant} {a : Provenance} (h : Covers g a)
    (hk : GrantKept g g') : Covers g' a := by
  refine ⟨by rw [hk.id]; exact h.id, hk.participantId.trans h.participantId,
    by rw [hk.capability]; exact h.capability, fun hone => ?_⟩
  rw [hk.oneShot] at hone
  obtain ⟨hat, hby⟩ := h.consumed hone
  obtain ⟨hat', hby'⟩ := hk.consumed hat
  exact ⟨by rw [hat']; exact hat, hby'.trans hby⟩

theorem Accounted.kept {a : Provenance} {n : NavigationWrite} {r : ExecutionReceipt} {m : Message}
    (h : Accounted db a n r m) (hg : Grows db db') : Accounted db' a n r m := by
  refine ⟨⟨hg.navigation n h.navigation.1, h.navigation.2⟩,
    ⟨hg.receipts r h.receipt.1, h.receipt.2⟩, ⟨hg.messages m h.message.1, h.message.2⟩,
    h.hash, h.capability, h.resource, h.principal, fun hsource => ?_⟩
  obtain ⟨g, hgm, hc⟩ := h.delegated hsource
  obtain ⟨g', hgm', hk⟩ := hg.grants g hgm
  exact ⟨g', hgm', hc.kept hk⟩

/-- A receipt that was there still has all it needs. -/
theorem LedgerInv.receipt_of_mem (h : LedgerInv db) (hg : Grows db db') {r : ExecutionReceipt}
    (hr : r ∈ db.receipts) : r.status = "committed" ∧ r.capability = postMessageCapability
      ∧ (∃ n ∈ db'.navigationWrites, n.pair = r.pair ∧ n.messageId = r.messageId)
      ∧ ∃ i ∈ db'.ingress, i.participantId = some r.participantId ∧ i.intentId = r.intentId := by
  obtain ⟨hs, hc, ⟨n, hn, hnr⟩, i, hi, hir⟩ := h.receipts r hr
  exact ⟨hs, hc, ⟨n, hg.navigation n hn, hnr⟩, i, hg.ingress i hi, hir⟩

theorem LedgerInv.ingress_of_mem (h : LedgerInv db) (hg : Grows db db') {i : Ingress}
    (hi : i ∈ db.ingress) : Named i.principalProvider i.principalSubject
      ∧ ∃ participantId, i.participantId = some participantId
        ∧ Text.isBlank participantId = false
        ∧ ∃ r ∈ db'.receipts, r.pair = (participantId, i.intentId) := by
  obtain ⟨hn, p, hp, hblank, r, hr, hpair⟩ := h.ingress i hi
  exact ⟨hn, p, hp, hblank, r, hg.receipts r hr, hpair⟩

theorem LedgerInv.provenance_of_mem (h : LedgerInv db) (hg : Grows db db') {a : Provenance}
    (ha : a ∈ db.provenance) : ∃ n r m, Accounted db' a n r m := by
  obtain ⟨n, r, m, hacc⟩ := h.provenance a ha
  exact ⟨n, r, m, hacc.kept hg⟩

end Kept

/-! ## Quiet steps and navigation writes -/

section Quiet

variable {db db' : Database}

theorem Quiet.storeInv (hq : Quiet db db') (h : StoreInv db) : StoreInv db' := by
  have hg := hq.grows
  refine ⟨hq.texts h.texts, ?_, ⟨?_, ?_, ?_⟩, ?_⟩
  · intro n hn
    rw [hq.navigation] at hn
    exact h.reserved.of_mem hg hn
  · intro r hr
    rw [hq.receipts] at hr
    exact h.ledger.receipt_of_mem hg hr
  · intro i hi
    rw [hq.ingress] at hi
    exact h.ledger.ingress_of_mem hg hi
  · intro a ha
    rw [hq.provenance] at ha
    exact h.ledger.provenance_of_mem hg ha
  · -- a grant is new, and unused, or it is as it was
    refine ⟨fun g' hg' => ?_, fun g' hg' => ?_, fun g' hg' => ?_⟩
    · rcases hq.delegated g' hg' with hf | ⟨g, hgm, hs⟩
      · simp [hf.unconsumed.1, hf.unconsumed.2]
      · rw [hs]
        exact h.consumed.paired g hgm
    · rcases hq.delegated g' hg' with hf | ⟨g, hgm, hs⟩
      · exact fun hc => absurd hf.unconsumed.1 hc
      · rw [hs]
        exact h.consumed.oneShot g hgm
    · rcases hq.delegated g' hg' with hf | ⟨g, hgm, hs⟩
      · intro intentId hc
        rw [hf.unconsumed.2] at hc
        exact absurd hc (by simp)
      · intro intentId hc
        rw [hs] at hc ⊢
        rw [hq.provenance]
        exact h.consumed.cited g hgm intentId hc

omit [Sha256] in
theorem identity_of_getWebParticipant {participantId : String} {identity : Identity}
    (h : getWebParticipant db participantId = some identity) :
    ∃ p ∈ db.webParticipants, p.participantId = participantId ∧ identity = p.identity := by
  rw [getWebParticipant, Option.map_eq_some_iff] at h
  obtain ⟨p, hp, rfl⟩ := h
  exact ⟨p, Table.mem_of_find hp, Table.key_of_find hp, rfl⟩

theorem NavigationWritten.storeInv {now : Int} {identity : Identity}
    {input : NavigationMessageInput} {m : Message}
    (hw : NavigationWritten now identity input db m db') (h : StoreInv db) : StoreInv db' := by
  have hg := hw.grows
  have hreceipts : db'.receipts = db.receipts := by rw [hw.frame]
  have hingress : db'.ingress = db.ingress := by rw [hw.frame]
  have hprovenance : db'.provenance = db.provenance := by rw [hw.frame]
  have hdelegated : db'.delegatedGrants = db.delegatedGrants := by rw [hw.frame]
  refine ⟨?_, fun n hn => ?_, ⟨?_, ?_, ?_⟩, ?_⟩
  · rw [hw.frame]
    exact ⟨h.texts.participants, h.texts.owners, h.texts.durable, h.texts.delegated⟩
  · rcases (hw.mem_navigation n).mp hn with hn | rfl
    · exact h.reserved.of_mem hg hn
    · exact ⟨m, (hw.mem_messages m).mpr (Or.inr rfl), rfl, by rw [hw.message]; rfl⟩
  · rw [hreceipts]
    exact fun r hr => h.ledger.receipt_of_mem hg hr
  · rw [hingress]
    exact fun i hi => h.ledger.ingress_of_mem hg hi
  · rw [hprovenance]
    exact fun a ha => h.ledger.provenance_of_mem hg ha
  · exact ⟨by rw [hdelegated]; exact h.consumed.paired, by rw [hdelegated]; exact h.consumed.oneShot,
      by rw [hdelegated, hprovenance]; exact h.consumed.cited⟩

end Quiet

/-! ## What an accepted execution stands on -/

section Decisions

variable {db db' : Database} {now : Int} {identity : Identity} {request : MessageExecutionRequest}
  {m : Message}

/-- The access an execution asks for. -/
def MessageExecutionRequest.access (request : MessageExecutionRequest) : AccessRequest :=
  ⟨request.authority.principal, request.intent.participantId, request.intent.capability,
    some request.intent.resource, some request.intent.intentId⟩

omit [Sha256] in
/-- Somebody without a name is never allowed anything. -/
theorem named_of_allowed {q : AccessRequest} (ht : TextsInv db)
    (h : (q.decision now db).allowed = true) : Named q.principal.provider q.principal.subject := by
  obtain ⟨-, hg⟩ := grounds_of_allowed h
  generalize q.decision now db = d at hg
  cases hg with
  | durable g hg held covers => exact held.1 ▸ held.2.1 ▸ ht.durable g hg
  | replay g intentId hg held => exact held.1 ▸ held.2.1 ▸ ht.delegated g hg
  | delegated g intentId hg held => exact held.1 ▸ held.2.1 ▸ ht.delegated g hg
  | implicit row reason hrow hreason hnone =>
      obtain ⟨p, hp, hid, rfl⟩ := participantPolicyRow_eq_some.mp hrow
      unfold implicitAuthorityReason at hreason
      dsimp only at hreason
      split at hreason
      · rename_i hself
        refine ⟨?_, ?_⟩
        · rcases hself.1 with hprovider | hprovider <;> rw [hprovider] <;> decide
        · rw [hself.2, ← hid]
          exact ht.participants p hp
      · split at hreason
        · rename_i howner
          refine ⟨by rw [howner.1]; decide, ht.owners p hp _ howner.2.2.1⟩
        · exact absurd hreason (by simp)

theorem Accepted.named (h : Accepted now identity request db db') (ht : TextsInv db) :
    Named request.ingress.principal.provider request.ingress.principal.subject := by
  rw [← h.consistent.1]
  exact named_of_allowed (q := request.access) ht h.allowed

/-- What an execution was asked to do is the pair it reserves. -/
theorem Accepted.pair (h : Accepted now identity request db db') (messageId : Int) :
    (executionReceipt request messageId).pair = executionPair identity request :=
  Prod.ext h.consistent.2.2.1.symm rfl

/-- The hash an execution brings is the hash of what it asks for. -/
theorem Accepted.requestHash (h : Accepted now identity request db db') :
    request.intent.requestHash = messageRequestHash request.channel request.kind request.body
      request.intent.conversationRef request.replyTo := h.consistent.2.2.2.2.2

end Decisions

/-! ## Deliveries and receipts of an accepted execution -/

section Executions

variable {db db' : Database} {now : Int} {identity : Identity} {request : MessageExecutionRequest}
  {m : Message}

/-- The delivery an accepted execution records has a receipt, wherever that receipt is. -/
theorem Accepted.ingress_ok (h : Accepted now identity request db db') (hi : StoreInv db)
    (hp : Text.isBlank identity.inst = false) (hg : Grows db db')
    (hing : IngressRecorded (ingressRow now request.ingress (executionReceipt request m.id))
      db.ingress db'.ingress)
    (hrec : ReceiptRecorded (executionReceipt request m.id) db.receipts db'.receipts) :
    ∀ i ∈ db'.ingress, Named i.principalProvider i.principalSubject
      ∧ ∃ participantId, i.participantId = some participantId
        ∧ Text.isBlank participantId = false
        ∧ ∃ r ∈ db'.receipts, r.pair = (participantId, i.intentId) := by
  intro i hmem
  rcases hing.new i hmem with hold | rfl
  · exact hi.ledger.ingress_of_mem hg hold
  · refine ⟨h.named hi.texts, request.intent.participantId, rfl, ?_, ?_⟩
    · rw [← h.consistent.2.2.1]
      exact hp
    · obtain ⟨r, hr, hpair, -⟩ := hrec.present
      refine ⟨r, hr, hpair.trans (Prod.ext rfl h.consistent.2.1.symm)⟩

/-- So does the receipt: it is committed, and its delivery is the one just recorded. -/
theorem Accepted.receipts_ok (h : Accepted now identity request db db') (hi : StoreInv db)
    (hg : Grows db db') {n : NavigationWrite} (hn : n ∈ db'.navigationWrites)
    (hnpair : n.pair = executionPair identity request) (hnm : n.messageId = m.id)
    (hing : IngressRecorded (ingressRow now request.ingress (executionReceipt request m.id))
      db.ingress db'.ingress)
    (hrec : ReceiptRecorded (executionReceipt request m.id) db.receipts db'.receipts) :
    ∀ r ∈ db'.receipts, r.status = "committed" ∧ r.capability = postMessageCapability
      ∧ (∃ n ∈ db'.navigationWrites, n.pair = r.pair ∧ n.messageId = r.messageId)
      ∧ ∃ i ∈ db'.ingress, i.participantId = some r.participantId ∧ i.intentId = r.intentId := by
  intro r hr
  rcases hrec.new r hr with hold | ⟨rfl, -⟩
  · exact hi.ledger.receipt_of_mem hg hold
  · refine ⟨rfl, h.consistent.2.2.2.1, ⟨n, hn, hnpair.trans (h.pair m.id).symm, hnm⟩, ?_⟩
    obtain ⟨i, him, -, hsame⟩ := hing.present
    exact ⟨i, him, hsame.1, hsame.2.1.trans h.consistent.2.1⟩

theorem Replayed.storeInv (hr : Replayed now identity request db m db') (h : StoreInv db)
    (hp : Text.isBlank identity.inst = false) : StoreInv db' := by
  have hg := hr.grows
  have hnavigation : db'.navigationWrites = db.navigationWrites := by rw [hr.frame]
  have hprovenance : db'.provenance = db.provenance := by rw [hr.frame]
  have hdelegated : db'.delegatedGrants = db.delegatedGrants := by rw [hr.frame]
  obtain ⟨n, hn, hm, -⟩ := hr.stored
  have hacc := hr.toAccepted
  refine ⟨?_, fun n hn => ?_, ⟨?_, ?_, ?_⟩, ?_⟩
  · rw [hr.frame]
    exact ⟨h.texts.participants, h.texts.owners, h.texts.durable, h.texts.delegated⟩
  · rw [hnavigation] at hn
    exact h.reserved.of_mem hg hn
  · refine hacc.receipts_ok h hg (n := n) ?_ (Table.key_of_find hn) (Table.key_of_find hm).symm
      hr.ingress hr.receipts
    rw [hnavigation]
    exact Table.mem_of_find hn
  · exact hacc.ingress_ok h hp hg hr.ingress hr.receipts
  · rw [hprovenance]
    exact fun a ha => h.ledger.provenance_of_mem hg ha
  · exact ⟨by rw [hdelegated]; exact h.consumed.paired, by rw [hdelegated]; exact h.consumed.oneShot,
      by rw [hdelegated, hprovenance]; exact h.consumed.cited⟩

/-- An intent whose reservation is free has no receipt. -/
theorem LedgerInv.no_receipt (h : LedgerInv db) {p : Pair}
    (hfree : db.navigationWrites.find p = none) : db.receipts.find p = none := by
  cases hr : db.receipts.find p with
  | none => rfl
  | some r =>
      obtain ⟨-, -, ⟨n, hn, hpair, -⟩, -⟩ := h.receipts r (Table.mem_of_find hr)
      have hnfind := Table.find_of_mem hn
      rw [hpair, Table.key_of_find hr, hfree] at hnfind
      exact absurd hnfind (by simp)

/-- The receipt of a first execution is the one it brought. -/
theorem FirstExecuted.receipt_mem (hf : FirstExecuted now identity request db m db')
    (h : LedgerInv db) : executionReceipt request m.id ∈ db'.receipts := by
  obtain ⟨r, hr, hpair, -⟩ := hf.effects.receipts.present
  rcases hf.effects.receipts.new r hr with hold | ⟨rfl, -⟩
  · have hfind := Table.find_of_mem hold
    rw [hpair, hf.toAccepted.pair, h.no_receipt hf.free] at hfind
    exact absurd hfind (by simp)
  · exact hr

/-- What became of a grant: consumed by this intent, or as it was. -/
theorem FirstExecuted.grant_cases (hf : FirstExecuted now identity request db m db')
    {g' : DelegatedGrant} (hg' : g' ∈ db'.delegatedGrants) :
    ∃ g ∈ db.delegatedGrants,
      (executionDecision now db request).consumeGrantId = some g.id ∧ g.oneShot = 1
          ∧ g' = { g with
              consumedAt := some now, consumedIntentId := some request.intent.intentId }
        ∨ (executionDecision now db request).consumeGrantId ≠ some g.id ∧ g' = g := by
  obtain ⟨g, hg, rfl⟩ := (hf.effects.grants.mem g').mp hg'
  refine ⟨g, hg, ?_⟩
  split
  · rename_i hid
    obtain ⟨g₀, hg₀, heq, -, hone, -⟩ := hf.effects.grants.free g.id hid
    rw [Table.eq_of_key hg₀ hg heq] at hone
    exact Or.inl ⟨hid, hone, rfl⟩
  · rename_i hid
    exact Or.inr ⟨hid, rfl⟩

/-- The authority a first execution records. -/
theorem FirstExecuted.accounted (hf : FirstExecuted now identity request db m db')
    (h : StoreInv db) : Accounted db'
      (provenanceRow (executionReceipt request m.id) request.authority.principal
        request.intent.resource (executionDecision now db request))
      ⟨identity.inst, request.intent.intentId, request.intent.requestHash, m.id, now⟩
      (executionReceipt request m.id) m := by
  have hacc := hf.toAccepted
  obtain ⟨hprincipal, -, hinst, -, hresource, -⟩ := hacc.consistent
  have hhash : request.intent.requestHash = m.requestHash := by
    rw [hacc.requestHash, hf.effects.message]
    rfl
  refine ⟨⟨(hf.mem_navigation _).mpr (Or.inr rfl), Prod.ext hinst rfl, rfl⟩,
    ⟨hf.receipt_mem h.ledger, rfl, rfl⟩, ⟨(hf.mem_messages m).mpr (Or.inr rfl), ?_⟩,
    ⟨hhash, hhash⟩, rfl, ?_, ?_, fun hsource => ?_⟩
  · rw [hf.effects.message]
    exact hinst
  · rw [hf.effects.message]
    exact congrArg some hresource
  · exact ⟨_, _, rfl, rfl, named_of_allowed (q := request.access) h.texts hacc.allowed⟩
  · have hsource' : (executionDecision now db request).source = .delegatedGrants := by
      change (executionDecision now db request).source.text = _ at hsource
      cases hs : (executionDecision now db request).source <;> rw [hs] at hsource <;>
        first | rfl | exact absurd hsource (by decide)
    obtain ⟨g, hg, held, hid, hreceipt | hconsume⟩ := grant_of_delegated (q := request.access)
      request.intent.intentId rfl hacc.allowed hsource'
    · -- a receipt of this intent would have a reservation
      obtain ⟨r, hr, hrp, hri, -⟩ := committedReceiptExists_iff.mp hreceipt
      have hfind := Table.find_of_mem hr
      have hpair : r.pair = executionPair identity request := Prod.ext (hrp.trans hinst.symm) hri
      rw [hpair, h.ledger.no_receipt hf.free] at hfind
      exact absurd hfind (by simp)
    · obtain ⟨g', hg', hk⟩ := hf.grows.grants g hg
      refine ⟨g', hg', by rw [hk.id]; exact hid, hk.participantId.trans held.2.2.1, ?_, fun hone => ?_⟩
      · rw [hk.capability, held.2.2.2.1]
        rfl
      · rw [hk.oneShot] at hone
        rw [if_pos hone] at hconsume
        obtain ⟨g₁, hg₁, ⟨-, -, heq⟩ | ⟨hne, heq⟩⟩ := hf.grant_cases hg'
        · rw [heq]
          exact ⟨by simp, rfl⟩
        · subst heq
          have hgg : g' = g := Table.eq_of_key hg₁ hg hk.id
          rw [hgg] at hne
          exact absurd hconsume hne

theorem FirstExecuted.storeInv (hf : FirstExecuted now identity request db m db')
    (h : StoreInv db) (hp : Text.isBlank identity.inst = false) : StoreInv db' := by
  have hg := hf.grows
  have hacc := hf.toAccepted
  refine ⟨?_, fun n hn => ?_, ⟨?_, ?_, fun a ha => ?_⟩, ?_⟩
  · have hparts : db'.webParticipants = db.webParticipants := by rw [hf.frame]
    have hdurable : db'.principalGrants = db.principalGrants := by rw [hf.frame]
    refine ⟨by rw [hparts]; exact h.texts.participants, by rw [hparts]; exact h.texts.owners,
      by rw [hdurable]; exact h.texts.durable, fun g' hg' => ?_⟩
    obtain ⟨g, hgm, ⟨-, -, rfl⟩ | ⟨-, rfl⟩⟩ := hf.grant_cases hg'
    · exact h.texts.delegated g hgm
    · exact h.texts.delegated _ hgm
  · rcases (hf.mem_navigation n).mp hn with hn | rfl
    · exact h.reserved.of_mem hg hn
    · exact ⟨m, (hf.mem_messages m).mpr (Or.inr rfl), rfl, by rw [hf.effects.message]; rfl⟩
  · exact hacc.receipts_ok h hg ((hf.mem_navigation _).mpr (Or.inr rfl)) rfl rfl hf.effects.ingress
      hf.effects.receipts
  · exact hacc.ingress_ok h hp hg hf.effects.ingress hf.effects.receipts
  · rcases (hf.mem_provenance a).mp ha with ha | rfl
    · exact h.ledger.provenance_of_mem hg ha
    · exact ⟨_, _, _, hf.accounted h⟩
  · -- the grant this intent consumed, or one that is as it was
    refine ⟨fun g' hg' => ?_, fun g' hg' => ?_, fun g' hg' => ?_⟩
    · obtain ⟨g, hgm, ⟨-, -, rfl⟩ | ⟨-, rfl⟩⟩ := hf.grant_cases hg'
      · simp
      · exact h.consumed.paired _ hgm
    · obtain ⟨g, hgm, ⟨-, hone, rfl⟩ | ⟨-, rfl⟩⟩ := hf.grant_cases hg'
      · exact fun _ => by simp [hone]
      · exact h.consumed.oneShot _ hgm
    · intro intentId hby
      obtain ⟨g, hgm, ⟨hid, -, rfl⟩ | ⟨-, rfl⟩⟩ := hf.grant_cases hg'
      · obtain ⟨g₀, hg₀, heq, held, hsource, hgrant⟩ :=
          grant_of_consumeGrantId (q := request.access) hacc.allowed hid
        obtain rfl : g₀ = g := Table.eq_of_key hg₀ hgm heq
        obtain rfl := Option.some.inj hby
        refine ⟨_, (hf.mem_provenance _).mpr (Or.inr rfl), Prod.ext held.2.2.1.symm rfl, ?_, hgrant⟩
        change (executionDecision now db request).source.text = _
        have hsource' : (executionDecision now db request).source = .delegatedGrants := hsource
        rw [hsource']
      · obtain ⟨a, ha, hcites⟩ := h.consumed.cited _ hgm intentId hby
        exact ⟨a, hg.provenance a ha, hcites⟩

end Executions

/-! ## Every run -/

/-- **Every step keeps the invariant.** -/
theorem storeInv_step (db : Database) (a : Action) (h : StoreInv db) : StoreInv (a.step db).2 := by
  have hblank : ∀ {participantId identity}, getWebParticipant db participantId = some identity →
      Text.isBlank identity.inst = false := by
    intro participantId identity hp
    obtain ⟨p, hpm, -, rfl⟩ := identity_of_getWebParticipant hp
    exact h.texts.participants p hpm
  rcases a.step_cases db with hq | ⟨_, _, _, _, _, _, _, _, -, -, hw⟩ | ⟨_, _, _, _, he, -, hf⟩
    | ⟨_, _, _, _, he, -, hr⟩
  · exact hq.storeInv h
  · exact hw.storeInv h
  · exact hf.storeInv h (hblank he.participant)
  · exact hr.storeInv h (hblank he.participant)

/-- **The invariant holds after every run.** -/
theorem storeInv_stateAfter (actions : List Action) : StoreInv (stateAfter actions) :=
  Transition.inv_run_of_forall (P := fun _ => True) (fun db a h _ => storeInv_step db a h)
    storeInv_initial fun _ _ => trivial

theorem storeInv_happenings {actions : List Action} {e : Happening}
    (he : e ∈ happenings actions) : StoreInv e.before ∧ StoreInv e.after :=
  Transition.inv_history_of_forall (P := fun _ => True) (fun db a h _ => storeInv_step db a h)
    storeInv_initial (fun _ _ => trivial) e he

/-! ## Runs without navigation writes -/

/-- Every reservation was made by an execution: it has its authority on record. -/
def ExecutedInv (db : Database) : Prop :=
  ∀ n ∈ db.navigationWrites, ∃ a ∈ db.provenance, a.pair = n.pair

omit [Sha256] in
theorem executedInv_initial : ExecutedInv Database.initial :=
  fun _ h => absurd h (Table.not_mem_empty _)

/-- Reservations are only made by executions, where nobody writes by navigation. -/
theorem executedInv_step (db : Database) (a : Action) (h : ExecutedInv db)
    (ha : a.op.isNavigation = false) : ExecutedInv (a.step db).2 := by
  have hg := a.grows db
  have hold : ∀ n ∈ db.navigationWrites, ∃ p ∈ (a.step db).2.provenance, p.pair = n.pair := by
    intro n hn
    obtain ⟨p, hp, hpair⟩ := h n hn
    exact ⟨p, hg.provenance p hp, hpair⟩
  intro n hn
  rcases a.step_cases db with hq | ⟨_, _, _, _, _, _, _, _, hop, -, -⟩ | ⟨_, _, _, m, -, -, hf⟩
    | ⟨_, _, _, _, -, -, hr⟩
  · rw [hq.navigation] at hn
    exact hold n hn
  · rw [hop] at ha
    exact absurd ha (by simp [Op.isNavigation])
  · rcases (hf.mem_navigation n).mp hn with hmem | rfl
    · exact hold n hmem
    · exact ⟨_, (hf.mem_provenance _).mpr (Or.inr rfl), hf.toAccepted.pair m.id⟩
  · rw [hr.frame] at hn
    exact hold n hn

end Blackboard
