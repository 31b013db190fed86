import Blackboard.Proof.StoreInv
import Blackboard.Proof.Verifier

/-!
# When the audit is clean

The verifier asks a dozen questions about one receipt. In a store that satisfies
`StoreInv` most of them are settled, and what is left is little: the intent has recorded
authority, for a channel with a name, and all its deliveries carry their metadata
(`valid_iff_audited`). So much a run has to see to itself.

Runs of executions do, if the transports put something into every field (`trailInv_step`,
`sweep_valid_of_executions`). A navigation write in between may not hurt them either, as
long as no execution adopts what it wrote (`accepted_valid_iff_auditable`): a navigation
write records no authority.
-/

namespace Blackboard

open Relational (Table)

/-! ## One receipt -/

/-- What a receipt still needs for its audit to be clean. -/
structure Audited (db : Database) (participantId intentId : String) : Prop where
  authority : ∃ a ∈ db.provenance, a.pair = (participantId, intentId)
    ∧ ∀ resource, a.resource = some resource → Text.isBlank resource = false
  deliveries : ∀ i ∈ db.ingress, i.participantId = some participantId → i.intentId = intentId →
    ingressMetadataInvalid i = false

variable [Sha256]

/-- **A receipt verifies exactly when it is audited**, in a store every run reaches. -/
theorem valid_iff_audited {db : Database} (h : StoreInv db) {r : ExecutionReceipt}
    (hr : r ∈ db.receipts) :
    (verifyExecutionAuditIntegrity db r.participantId r.intentId).valid = true
      ↔ Audited db r.participantId r.intentId := by
  rw [valid_iff_evidence]
  constructor
  · intro hvalid
    obtain ⟨r', m, a, hev⟩ := hvalid
    refine ⟨⟨a, hev.authority.1, hev.authority.2, ?_⟩, ?_⟩
    · intro resource hresource
      rw [hev.scope.2.1, Option.some.injEq] at hresource
      rw [← hresource]
      exact hev.scope.2.2
    · intro i hi hp hint
      exact ingressMetadataInvalid_eq_false_iff.mpr (hev.described i hi hp hint)
  · intro haud
    obtain ⟨a, ha, hapair, hres⟩ := haud.authority
    obtain ⟨hs, -, -, hdelivered⟩ := h.ledger.receipts r hr
    obtain ⟨n, r', m, hacc⟩ := h.ledger.provenance a ha
    obtain rfl : r' = r :=
      Table.eq_of_key hacc.receipt.1 hr (hacc.receipt.2.1.trans hapair)
    obtain ⟨hap, hai⟩ := Prod.mk.inj hapair
    obtain ⟨provider, subject, hprovider, hsubject, hnamed⟩ := hacc.principal
    have hmessage : r'.intentHash = m.requestHash := hacc.hash.2
    refine ⟨r', m, a, ⟨⟨hr, rfl, hs⟩, ⟨hacc.message.1, hacc.receipt.2.2.symm,
      hacc.message.2.trans hap, hmessage.symm⟩, ⟨n, hacc.navigation.1,
      hacc.navigation.2.1.trans hapair, hacc.navigation.2.2.trans hacc.receipt.2.2.symm,
      hacc.hash.1.trans hmessage.symm⟩, ⟨ha, hapair⟩,
      ⟨provider, subject, hprovider, hsubject, hnamed.1, hnamed.2⟩,
      ⟨hacc.capability, hacc.resource, hres _ hacc.resource⟩, ?_, ?_, ?_, ?_⟩⟩
    · intro hsource
      obtain ⟨g, hg, hcov⟩ := hacc.delegated hsource
      refine ⟨g, hg, hcov.id, hcov.participantId.trans hap,
        Option.some.inj (hcov.capability.symm.trans hacc.capability), ?_⟩
      intro hone
      obtain ⟨hat, hby⟩ := hcov.consumed hone
      exact ⟨hat, hby.trans (congrArg some hai)⟩
    · exact hdelivered
    · intro i hi hp hint
      exact ingressMetadataInvalid_eq_false_iff.mp (haud.deliveries i hi hp hint)
    · intro i hi hint
      obtain ⟨-, p, hp, hblank, -⟩ := h.ledger.ingress i hi
      rw [hp]
      refine ⟨by simp, ?_⟩
      intro hempty
      rw [Option.some.inj hempty] at hblank
      exact absurd hblank (by decide)

/-! ## Runs -/

/-- Every receipt is audited. -/
def TrailInv (db : Database) : Prop := ∀ r ∈ db.receipts, Audited db r.participantId r.intentId

/-- The delivery says where it came from. -/
def Presented (ingress : IngressProvenance) : Prop :=
  Text.isBlank ingress.deliveryId = false ∧ Text.isBlank ingress.transport = false
    ∧ Text.isBlank ingress.externalRef = false

instance (ingress : IngressProvenance) : Decidable (Presented ingress) :=
  inferInstanceAs (Decidable (_ ∧ _))

/-- An execution that will leave a clean audit: its delivery is presented, and either its intent is
new and its channel has a name, or its intent is reserved and has its authority on record. -/
def Auditable (db : Database) (participantId : String) (request : MessageExecutionRequest) : Prop :=
  Presented request.ingress
    ∧ (match db.navigationWrites.find (participantId, request.intent.intentId) with
      | none => !Text.isBlank request.channel
      | some _ => (db.provenance.find (participantId, request.intent.intentId)).isSome) = true

instance (db : Database) (participantId : String) (request : MessageExecutionRequest) :
    Decidable (Auditable db participantId request) := inferInstanceAs (Decidable (_ ∧ _))

section Steps

variable {db db' : Database} {now : Int} {identity : Identity} {request : MessageExecutionRequest}
  {m : Message} {participantId intentId : String}

omit [Sha256] in
theorem ingressMetadataInvalid_ingressRow (now : Int) (receipt : ExecutionReceipt)
    (hnamed : Named request.ingress.principal.provider request.ingress.principal.subject) :
    ingressMetadataInvalid (ingressRow now request.ingress receipt) = false
      ↔ Presented request.ingress := by
  simp only [ingressMetadataInvalid, ingressRow, hnamed.1, hnamed.2, Bool.or_false,
    Bool.or_eq_false_iff, Presented, and_assoc]

omit [Sha256] in
/-- An audited intent stays audited as long as its deliveries are in order. -/
theorem Audited.grows (h : Audited db participantId intentId) (hg : Grows db db')
    (hdel : ∀ i ∈ db'.ingress, i ∈ db.ingress ∨ ingressMetadataInvalid i = false) :
    Audited db' participantId intentId := by
  obtain ⟨a, ha, hpair, hres⟩ := h.authority
  refine ⟨⟨a, hg.provenance a ha, hpair, hres⟩, fun i hi hp hint => ?_⟩
  rcases hdel i hi with hold | hok
  · exact h.deliveries i hold hp hint
  · exact hok

omit [Sha256] in
/-- Steps without executions leave the receipts and the deliveries alone. -/
theorem TrailInv.of_eq (h : TrailInv db) (hg : Grows db db') (hr : db'.receipts = db.receipts)
    (hi : db'.ingress = db.ingress) : TrailInv db' := by
  intro r hmem
  rw [hr] at hmem
  exact (h r hmem).grows hg fun i hmem => Or.inl (hi ▸ hmem)

/-- The delivery an accepted execution brought is the only new one. -/
theorem Accepted.deliveries (h : Accepted now identity request db db') (hi : StoreInv db)
    (hpres : Presented request.ingress) (receipt : ExecutionReceipt)
    (hing : IngressRecorded (ingressRow now request.ingress receipt) db.ingress db'.ingress) :
    ∀ i ∈ db'.ingress, i ∈ db.ingress ∨ ingressMetadataInvalid i = false := by
  intro i hmem
  rcases hing.new i hmem with hold | rfl
  · exact Or.inl hold
  · exact Or.inr ((ingressMetadataInvalid_ingressRow now receipt (h.named hi.texts)).mpr hpres)

/-- If the metadata is in order afterwards, the delivery was presented. -/
theorem Accepted.presented (h : Accepted now identity request db db') (hi : StoreInv db)
    (hing : IngressRecorded (ingressRow now request.ingress (executionReceipt request m.id))
      db.ingress db'.ingress)
    (haud : Audited db' request.intent.participantId request.intent.intentId) :
    Presented request.ingress := by
  obtain ⟨i, him, hid, hsame⟩ := hing.present
  have hok := haud.deliveries i him hsame.1 (hsame.2.1.trans h.consistent.2.1)
  rw [← ingressMetadataInvalid_ingressRow now (executionReceipt request m.id)
    (h.named hi.texts), ← hok]
  obtain ⟨-, -, ht, he, hpr, hsu⟩ := hsame
  simp only [ingressMetadataInvalid, hid, ht, he, hpr, hsu]

/-- The intent of a first execution, audited or not. -/
theorem FirstExecuted.audited_iff (hf : FirstExecuted now identity request db m db')
    (h : StoreInv db) : Audited db' identity.inst request.intent.intentId
      ↔ Presented request.ingress ∧ Text.isBlank request.channel = false := by
  have hacc := hf.toAccepted
  have hinst : identity.inst = request.intent.participantId := hacc.consistent.2.2.1
  have hresource : request.intent.resource = request.channel := hacc.consistent.2.2.2.2.1
  have hfound : ∀ a ∈ db'.provenance, a.pair = (identity.inst, request.intent.intentId) →
      a = provenanceRow (executionReceipt request m.id) request.authority.principal
        request.intent.resource (executionDecision now db request) := by
    intro a ha hpair
    refine Table.eq_of_key ha ((hf.mem_provenance _).mpr (Or.inr rfl)) ?_
    exact hpair.trans (hacc.pair m.id).symm
  constructor
  · intro haud
    refine ⟨hacc.presented h hf.effects.ingress (hinst ▸ haud), ?_⟩
    obtain ⟨a, ha, hpair, hres⟩ := haud.authority
    rw [hfound a ha hpair] at hres
    rw [← hresource]
    exact hres _ rfl
  · rintro ⟨hpres, hchannel⟩
    refine ⟨⟨_, (hf.mem_provenance _).mpr (Or.inr rfl), hacc.pair m.id, fun resource hres => ?_⟩,
      fun i hi hp hint => ?_⟩
    · obtain rfl := Option.some.inj hres
      rw [hresource]
      exact hchannel
    · rcases hacc.deliveries h hpres _ hf.effects.ingress i hi with hold | hok
      · -- a delivery of this intent would have a receipt, and the receipt a reservation
        obtain ⟨-, p, hp', -, r, hr, hpair⟩ := h.ledger.ingress i hold
        have hfind := Table.find_of_mem hr
        rw [hp, Option.some.injEq] at hp'
        have hnone : db.receipts.find (identity.inst, request.intent.intentId) = none :=
          h.ledger.no_receipt hf.free
        rw [hpair, ← hp', hint, hnone] at hfind
        exact absurd hfind (by simp)
      · exact hok

/-- The intent of a replay, audited or not. -/
theorem Replayed.audited_iff (hr : Replayed now identity request db m db') (h : StoreInv db)
    (ht : TrailInv db) : Audited db' identity.inst request.intent.intentId
      ↔ Presented request.ingress
        ∧ (db.provenance.find (identity.inst, request.intent.intentId)).isSome = true := by
  have hacc := hr.toAccepted
  have hinst : identity.inst = request.intent.participantId := hacc.consistent.2.2.1
  have hprovenance : db'.provenance = db.provenance := by rw [hr.frame]
  constructor
  · intro haud
    refine ⟨hacc.presented h hr.ingress (hinst ▸ haud), ?_⟩
    obtain ⟨a, ha, hpair, -⟩ := haud.authority
    rw [hprovenance] at ha
    rw [← hpair, Table.find_of_mem ha]
    rfl
  · rintro ⟨hpres, hsome⟩
    obtain ⟨a, ha⟩ := Option.isSome_iff_exists.mp hsome
    have hapair : a.pair = (identity.inst, request.intent.intentId) := Table.key_of_find ha
    obtain ⟨n', r', m', hwhole⟩ := h.ledger.provenance a (Table.mem_of_find ha)
    obtain ⟨hp, hi⟩ := Prod.mk.inj (hwhole.receipt.2.1.trans hapair)
    have haud := ht r' hwhole.receipt.1
    rw [hp, hi] at haud
    exact haud.grows hr.grows (hacc.deliveries h hpres _ hr.ingress)

theorem FirstExecuted.trailInv (hf : FirstExecuted now identity request db m db')
    (h : StoreInv db) (ht : TrailInv db)
    (haud : Auditable db identity.inst request) : TrailInv db' := by
  have hacc := hf.toAccepted
  have hchannel : Text.isBlank request.channel = false := by
    have := haud.2
    rwa [show db.navigationWrites.find (identity.inst, request.intent.intentId) = none from
      hf.free, Bool.not_eq_true'] at this
  intro r hr
  rcases hf.effects.receipts.new r hr with hold | ⟨rfl, -⟩
  · exact (ht r hold).grows hf.grows (hacc.deliveries h haud.1 _ hf.effects.ingress)
  · obtain ⟨hp, -⟩ := Prod.mk.inj (hacc.pair m.id)
    rw [hp]
    exact (hf.audited_iff h).mpr ⟨haud.1, hchannel⟩

theorem Replayed.trailInv (hr : Replayed now identity request db m db') (h : StoreInv db)
    (ht : TrailInv db) (haud : Auditable db identity.inst request) : TrailInv db' := by
  have hacc := hr.toAccepted
  have hsome : (db.provenance.find (identity.inst, request.intent.intentId)).isSome = true := by
    obtain ⟨n, hn, -⟩ := hr.stored
    have := haud.2
    rwa [show db.navigationWrites.find (identity.inst, request.intent.intentId) = some n from
      hn] at this
  intro r hmem
  rcases hr.receipts.new r hmem with hold | ⟨rfl, -⟩
  · exact (ht r hold).grows hr.grows (hacc.deliveries h haud.1 _ hr.ingress)
  · obtain ⟨hp, -⟩ := Prod.mk.inj (hacc.pair m.id)
    rw [hp]
    exact (hr.audited_iff h ht).mpr ⟨haud.1, hsome⟩

end Steps

/-! ## Runs whose executions are auditable -/

/-- An execution meets the condition; other steps have none to meet. -/
def Action.Auditable (db : Database) (a : Action) : Prop :=
  match a.op with
  | .execute participantId request => Blackboard.Auditable db participantId request
  | _ => True

omit [Sha256] in
theorem Action.Auditable.of_op {db : Database} {a : Action} {participantId : String}
    {request : MessageExecutionRequest} (h : a.Auditable db)
    (hop : a.op = .execute participantId request) :
    Blackboard.Auditable db participantId request := by
  rwa [Action.Auditable, hop] at h

omit [Sha256] in
/-- The identity of an execution is the participant it names. -/
theorem inst_of_getWebParticipant {db : Database} {participantId : String} {identity : Identity}
    (h : getWebParticipant db participantId = some identity) : identity.inst = participantId := by
  obtain ⟨p, -, hp, rfl⟩ := identity_of_getWebParticipant h
  exact hp

/-- **Every step keeps every receipt audited**, if it is no execution or an auditable one. -/
theorem trailInv_step (db : Database) (a : Action) (h : StoreInv db) (ht : TrailInv db)
    (haud : a.Auditable db) : TrailInv (a.step db).2 := by
  rcases a.step_cases db with hq | ⟨_, _, _, _, _, _, _, _, -, -, hw⟩ | ⟨_, _, _, _, he, -, hf⟩
    | ⟨_, _, _, _, he, -, hr⟩
  · exact ht.of_eq hq.grows hq.receipts hq.ingress
  · exact ht.of_eq hw.grows (by rw [hw.frame]) (by rw [hw.frame])
  · refine hf.trailInv h ht ?_
    rw [inst_of_getWebParticipant he.participant]
    exact haud.of_op he.op
  · refine hr.trailInv h ht ?_
    rw [inst_of_getWebParticipant he.participant]
    exact haud.of_op he.op

omit [Sha256] in
theorem trailInv_initial : TrailInv Database.initial :=
  fun _ h => absurd h (Table.not_mem_empty _)

/-- **Every receipt of a run of auditable executions is audited.** -/
theorem trailInv_run {actions : List Action}
    (hrun : ∀ e ∈ happenings actions, e.act.Auditable e.before) :
    TrailInv (stateAfter actions) ∧ ∀ e ∈ happenings actions, TrailInv e.after := by
  have hstep : ∀ db (a : Action), StoreInv db ∧ TrailInv db → a.Auditable db →
      StoreInv (a.step db).2 ∧ TrailInv (a.step db).2 := fun db a h haud =>
    ⟨storeInv_step db a h.1, trailInv_step db a h.1 h.2 haud⟩
  have h₀ : StoreInv Database.initial ∧ TrailInv Database.initial :=
    ⟨storeInv_initial, trailInv_initial⟩
  exact ⟨(Transition.inv_run hstep h₀ hrun).2,
    fun e he => (Transition.inv_history hstep h₀ hrun e he).2.2⟩

/-- An accepted execution leaves a receipt for its intent. -/
theorem exists_receipt_of_accepted {db : Database} {a : Action} {participantId : String}
    {request : MessageExecutionRequest} {m : Message} (hop : a.op = .execute participantId request)
    (hout : (a.step db).1.accepted = some m) :
    ∃ r ∈ (a.step db).2.receipts, r.pair = (participantId, request.intent.intentId) := by
  obtain ⟨identity, hp, ⟨-, hf⟩ | ⟨-, hr⟩⟩ := Action.accepted_cases hop hout
  · obtain ⟨r, hr, hpair, -⟩ := hf.effects.receipts.present
    refine ⟨r, hr, hpair.trans ((hf.toAccepted.pair m.id).trans (Prod.ext ?_ rfl))⟩
    exact inst_of_getWebParticipant hp
  · obtain ⟨r, hr', hpair, -⟩ := hr.receipts.present
    refine ⟨r, hr', hpair.trans ((hr.toAccepted.pair m.id).trans (Prod.ext ?_ rfl))⟩
    exact inst_of_getWebParticipant hp

/-- **After an accepted execution its audit is clean exactly when it was auditable**, in a store
whose other receipts are audited. -/
theorem accepted_valid_iff_auditable {db : Database} (h : StoreInv db) (ht : TrailInv db)
    {a : Action} {participantId : String} {request : MessageExecutionRequest} {m : Message}
    (hop : a.op = .execute participantId request) (hout : (a.step db).1.accepted = some m) :
    (verifyExecutionAuditIntegrity (a.step db).2 participantId request.intent.intentId).valid = true
      ↔ Auditable db participantId request := by
  obtain ⟨r, hr, hpair⟩ := exists_receipt_of_accepted hop hout
  obtain ⟨hrp, hri⟩ := Prod.mk.inj hpair
  have hvalid := valid_iff_audited (storeInv_step db a h) hr
  rw [hrp, hri] at hvalid
  rw [hvalid]
  obtain ⟨identity, hp, ⟨-, hf⟩ | ⟨-, hr⟩⟩ := Action.accepted_cases hop hout
  · rw [← inst_of_getWebParticipant hp, hf.audited_iff h, Auditable]
    have hfree : db.navigationWrites.find (identity.inst, request.intent.intentId) = none := hf.free
    rw [hfree, Bool.not_eq_true']
  · obtain ⟨n, hn, -⟩ := hr.stored
    rw [← inst_of_getWebParticipant hp, hr.audited_iff h ht, Auditable]
    have hn' : db.navigationWrites.find (identity.inst, request.intent.intentId) = some n := hn
    rw [hn']

end Blackboard
