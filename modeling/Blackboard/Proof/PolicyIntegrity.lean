import Blackboard.Proof.GrantLog
import Blackboard.Proof.PolicyExact

/-!
# The policy audit over runs

Everything the audit asks of a grant is something the operations see to, with one
exception: nothing keeps a delegated grant from naming a capability the kernel does not
know. The audit finds nothing in any state of a run exactly as long as no such grant is
created.
-/

namespace Blackboard

open Relational (Table orderBy)

/-! ## What the audit asks -/

/-- The texts of a scope are well formed. -/
structure NormalScope (s : GrantScope) : Prop where
  provider : WellFormed s.principalProvider
  subject : WellFormed s.principalSubject
  participantId : WellFormed s.participantId
  capability : WellFormed s.capability
  resource : ∀ resource, s.resource = some resource → WellFormed resource
  intentId : ∀ intentId, s.intentId = some intentId → WellFormed intentId

/-- Their participant exists as well. -/
structure SoundScope (participants : Table WebParticipant.participantId) (s : GrantScope) : Prop
    extends NormalScope s where
  participant : (participants.find s.participantId).isSome

/-- A delegated grant the audit has nothing to say about, but for its capability, its status and the
receipt of the intent that consumed it. -/
structure SoundDelegated (participants : Table WebParticipant.participantId) (g : DelegatedGrant) :
    Prop where
  scope : SoundScope participants g.scope
  flag : g.oneShot = 0 ∨ g.oneShot = 1
  /-- A grant that is bound to an intent is consumed by no other. -/
  bound : ∀ bound consumed, g.intentId = some bound → g.consumedIntentId = some consumed →
    bound = consumed

/-- What holds of the grants whatever operations are run. -/
structure PolicyInv (db : Database) : Prop where
  durable : ∀ g ∈ db.principalGrants,
    SoundScope db.webParticipants g.scope ∧ isKnownCapability g.capability = true
  delegated : ∀ g ∈ db.delegatedGrants, SoundDelegated db.webParticipants g

/-- Delegated grants name capabilities the kernel knows. -/
def KnownInv (db : Database) : Prop :=
  ∀ g ∈ db.delegatedGrants, isKnownCapability g.capability = true

/-- A grant with a sound scope, a known capability and a status the program uses. -/
theorem SoundScope.clean {db : Database} {s : GrantScope} {status : String}
    (h : SoundScope db.webParticipants s) (hknown : isKnownCapability s.capability = true)
    (hstatus : IsStatus status) :
    CleanGrant db s.principalProvider s.principalSubject s.participantId s.capability s.resource
      status := by
  obtain ⟨p, hp⟩ := Option.isSome_iff_exists.mp h.participant
  exact ⟨h.provider, h.subject, h.participantId, h.capability, h.resource,
    ⟨p, Table.mem_of_find hp, Table.key_of_find hp⟩, hknown, hstatus⟩

/-- Consumption as the ledger has it. -/
theorem cleanConsumption [Sha256] {db : Database} (hi : StoreInv db) (hp : PolicyInv db)
    {g : DelegatedGrant} (hg : g ∈ db.delegatedGrants) : CleanConsumption db g where
  paired := hi.consumed.paired g hg
  oneShot := by
    intro hzero
    have hnone : g.consumedAt = none := by
      by_contra hused
      exact hi.consumed.oneShot g hg hused hzero
    exact ⟨hnone, (hi.consumed.paired g hg).mp hnone⟩
  bound := by
    intro bound consumed hbound hconsumed
    exact ((hp.delegated g hg).bound bound consumed hbound hconsumed).symm
  receipt := by
    intro consumed _ _ hconsumed
    -- the authority on record for the intent has the receipt
    obtain ⟨a, ha, hpair, hcites⟩ := hi.consumed.cited g hg consumed hconsumed
    obtain ⟨n, r, m, hacc⟩ := hi.ledger.provenance a ha
    have hrpair := hacc.receipt.2.1.trans hpair
    exact ⟨r, hacc.receipt.1, congrArg Prod.fst hrpair, congrArg Prod.snd hrpair,
      (hi.ledger.receipts r hacc.receipt.1).1⟩

/-- Grants that are sound, with known capabilities, are a clean policy. -/
theorem cleanPolicy [Sha256] {db : Database} (hi : StoreInv db) (hg : GrantsInv db)
    (hp : PolicyInv db) (hk : KnownInv db) : CleanPolicy db where
  durable := by
    intro g hgm
    obtain ⟨hsound, hknown⟩ := hp.durable g hgm
    exact SoundScope.clean (s := g.scope) hsound hknown (hg.durable g hgm)
  unshared := by
    intro g hgm g' hgm' hkey
    obtain ⟨hprovider, hsubject, hid, hcapability, hresource⟩ := DurableScopeKey.mk.inj hkey
    exact hg.unique g hgm g' hgm' (DurableGrant.scope_eq_scope_iff.mpr
      ⟨hprovider, hsubject, hid, hcapability, hresource⟩)
  delegated := by
    intro g hgm
    have hsound := hp.delegated g hgm
    exact ⟨SoundScope.clean (s := g.scope) hsound.scope (hk g hgm) (hg.delegated g hgm),
      hsound.scope.intentId, hsound.flag, cleanConsumption hi hp hgm⟩

/-- A grant with a capability the kernel does not know is found. -/
theorem auditAuthorizationIntegrity_invalid {db : Database} {g : DelegatedGrant}
    (hg : g ∈ db.delegatedGrants) (hno : isKnownCapability g.capability = false) :
    (auditAuthorizationIntegrity db).valid = false := by
  rw [Bool.eq_false_iff]
  intro hvalid
  have hknown := ((auditAuthorizationIntegrity_valid_iff.mp hvalid).delegated g hg).grant.known
  rw [hno] at hknown
  exact Bool.noConfusion hknown

/-! ## What normalising sees to -/

theorem wellFormed_of_normalizeText {value normal : String} {maxBytes : Nat}
    (h : normalizeText value maxBytes = some normal) : WellFormed normal := by
  refine ⟨not_isBlank_of_normalizeText h, ?_⟩
  simp only [normalizeText] at h
  split at h
  · exact absurd h (by simp)
  · rename_i hok
    rw [not_or, not_or, Bool.not_eq_true] at hok
    rw [← Option.some.inj h]
    exact hok.2.2

theorem wellFormed_of_normalize {value normal field : String} {maxBytes : Nat}
    (h : normalize value maxBytes field = .ok normal) :
    WellFormed normal ∧ normal = Text.trim value := by
  unfold normalize at h
  split at h
  · rename_i value' hvalue
    obtain rfl := Except.ok.inj h
    refine ⟨wellFormed_of_normalizeText hvalue, ?_⟩
    simp only [normalizeText] at hvalue
    split at hvalue
    · exact absurd hvalue (by simp)
    · exact (Option.some.inj hvalue).symm
  · exact absurd h (by simp)

theorem wellFormed_of_normalizeOptional {value normal : Option String} {field : String}
    {maxBytes : Nat} (h : normalizeOptional value maxBytes field = .ok normal) :
    ∀ v, normal = some v → WellFormed v := by
  unfold normalizeOptional at h
  split at h
  · obtain rfl := Except.ok.inj h
    exact fun v hv => absurd hv (by simp)
  · rename_i value'
    cases hn : normalize value' maxBytes field with
    | error e => rw [hn] at h; exact absurd h (by simp [Except.map])
    | ok normal' =>
        rw [hn] at h
        obtain rfl := Except.ok.inj h
        intro v hv
        rw [← Option.some.inj hv]
        exact (wellFormed_of_normalize hn).1

theorem not_isControl_participantIdMarks :
    ∀ d ∈ participantIdMarks, Text.isControl d = false := by
  intro d hd
  simp only [participantIdMarks, List.mem_cons, List.not_mem_nil, or_false] at hd
  rcases hd with rfl | rfl | rfl | rfl <;> rfl

theorem wellFormed_of_requireParticipantId {participantId valid message : String}
    (h : requireParticipantId participantId message = .ok valid) : WellFormed valid := by
  unfold requireParticipantId at h
  split at h
  · rename_i valid' hvalid
    obtain rfl := Except.ok.inj h
    refine ⟨not_isBlank_of_validateParticipantId hvalid, ?_⟩
    unfold validateParticipantId at hvalid
    split at hvalid
    · rename_i htoken
      rw [← Option.some.inj hvalid]
      exact Text.anyControl_of_isToken not_isControl_participantIdMarks htoken
    · exact absurd hvalid (by simp)
  · exact absurd h (by simp)

/-- A durable request as it is stored. -/
theorem normalScope_of_normalizeDurable {raw request : DurableGrantCreateRequest}
    (h : normalizeDurableGrantCreateRequest raw = .ok request) :
    NormalScope (durableScope request) ∧ isKnownCapability request.capability = true := by
  unfold normalizeDurableGrantCreateRequest at h
  obtain ⟨provider, hprovider, h⟩ := Except.of_bind_eq_ok h
  obtain ⟨subject, hsubject, h⟩ := Except.of_bind_eq_ok h
  obtain ⟨participantId, hparticipant, h⟩ := Except.of_bind_eq_ok h
  obtain ⟨capability, hcapability, h⟩ := Except.of_bind_eq_ok h
  split at h
  · obtain ⟨_, hno, -⟩ := Except.of_bind_eq_ok h
    exact absurd hno (by simp)
  · rename_i hknown
    obtain ⟨resource, hresource, h⟩ := Except.of_bind_eq_ok h
    obtain rfl := Except.ok.inj h
    refine ⟨⟨(wellFormed_of_normalize hprovider).1, (wellFormed_of_normalize hsubject).1,
      wellFormed_of_requireParticipantId hparticipant, (wellFormed_of_normalize hcapability).1,
      wellFormed_of_normalizeOptional hresource, fun _ hno => absurd hno (by simp [durableScope])⟩,
      ?_⟩
    simpa using hknown

/-- A delegated request as it is stored. Its capability is the one it named. -/
theorem normalScope_of_normalizeDelegated {raw request : DelegatedGrantCreateRequest}
    (h : normalizeDelegatedGrantCreateRequest raw = .ok request) :
    NormalScope request.scope ∧ request.capability = Text.trim raw.capability := by
  unfold normalizeDelegatedGrantCreateRequest at h
  obtain ⟨provider, hprovider, h⟩ := Except.of_bind_eq_ok h
  obtain ⟨subject, hsubject, h⟩ := Except.of_bind_eq_ok h
  obtain ⟨participantId, hparticipant, h⟩ := Except.of_bind_eq_ok h
  obtain ⟨capability, hcapability, h⟩ := Except.of_bind_eq_ok h
  obtain ⟨resource, hresource, h⟩ := Except.of_bind_eq_ok h
  have hnormal : ∀ intentId : Option String, (∀ v, intentId = some v → WellFormed v) →
      NormalScope ⟨provider, subject, participantId, capability, resource, intentId,
        raw.expiresAt, raw.oneShot⟩ := fun intentId hintent =>
    ⟨(wellFormed_of_normalize hprovider).1, (wellFormed_of_normalize hsubject).1,
      wellFormed_of_requireParticipantId hparticipant, (wellFormed_of_normalize hcapability).1,
      wellFormed_of_normalizeOptional hresource, hintent⟩
  dsimp only at h
  split at h
  · obtain rfl := Except.ok.inj h
    exact ⟨hnormal none fun _ hno => absurd hno (by simp), (wellFormed_of_normalize hcapability).2⟩
  · split at h
    · rename_i intentId hintent
      obtain rfl := Except.ok.inj h
      refine ⟨hnormal (some intentId) fun v hv => ?_, (wellFormed_of_normalize hcapability).2⟩
      rw [← Option.some.inj hv]
      exact wellFormed_of_normalizeText hintent
    · exact absurd h (by simp [bind, Except.bind])

/-! ## Every step -/

variable {now : Int} {db db' : Database}

theorem SoundScope.kept {s : GrantScope} {participants : Table WebParticipant.participantId}
    (h : SoundScope participants s) {participants' : Table WebParticipant.participantId}
    (hp : ∀ id, (participants.find id).isSome → (participants'.find id).isSome) :
    SoundScope participants' s :=
  ⟨h.toNormalScope, hp _ h.participant⟩

/-- A change of status changes nothing the invariant speaks of. -/
theorem PolicyInv.setDurableStatus (h : PolicyInv db) {actor : NormalizedActor} (id : Int)
    (status : String) {event : AdministrationEvent} :
    PolicyInv (recordEvent now actor event (setDurableStatus now id status db)) := by
  simp only [recordEvent, Blackboard.setDurableStatus]
  refine ⟨fun g' hg' => ?_, h.delegated⟩
  rw [Table.mem_update] at hg'
  obtain ⟨g, hg, rfl⟩ := hg'
  by_cases hid : decide (g.id = id) = true
  · rw [if_pos hid]
    exact h.durable g hg
  · rw [if_neg hid]
    exact h.durable g hg

theorem GrantEffect.policyInv {creation : Option DelegatedGrantCreateRequest}
    (heffect : GrantEffect now db creation db') (h : PolicyInv db) : PolicyInv db' := by
  cases heffect with
  | nothing => exact h
  | createDurable actor raw request normal participant fresh =>
      simp only [recordEvent, insertDurableGrant]
      refine ⟨fun g hg => ?_, h.delegated⟩
      obtain ⟨hnormal, hknown⟩ := normalScope_of_normalizeDurable normal
      rcases Table.mem_append.mp hg with hg | rfl
      · exact h.durable g hg
      · exact ⟨⟨hnormal, participant⟩, hknown⟩
  | reactivate actor g mem inactive => exact h.setDurableStatus g.id "active"
  | deactivateDurable actor g mem active => exact h.setDurableStatus g.id "inactive"
  | createDelegated actor raw request asked normal participant =>
      obtain ⟨hnormal, -⟩ := normalScope_of_normalizeDelegated normal
      simp only [recordEvent, insertDelegatedGrant]
      refine ⟨h.durable, fun g hg => ?_⟩
      rcases Table.mem_append.mp hg with hg | rfl
      · exact h.delegated g hg
      · refine ⟨⟨⟨hnormal.provider, hnormal.subject, hnormal.participantId, hnormal.capability,
          hnormal.resource, hnormal.intentId⟩, participant⟩, ?_, fun _ _ _ hc => ?_⟩
        · cases request.oneShot <;> simp
        · exact absurd hc (by simp)
  | deactivateDelegated actor g mem active =>
      simp only [recordEvent, setDelegatedInactive]
      refine ⟨h.durable, fun g' hg' => ?_⟩
      rw [Table.mem_update] at hg'
      obtain ⟨row, hrow, rfl⟩ := hg'
      -- only the status of a row changes, and the invariant does not mention it
      have hsound := h.delegated row hrow
      by_cases hid : decide (row.id = g.id ∧ row.status ≠ "inactive") = true
      · rw [if_pos hid]
        exact ⟨hsound.scope, hsound.flag, hsound.bound⟩
      · rw [if_neg hid]
        exact hsound

theorem Ungranted.policyInv (hu : Ungranted db db') (h : PolicyInv db) : PolicyInv db' := by
  have hdurable : ∀ g ∈ db'.principalGrants,
      SoundScope db'.webParticipants g.scope ∧ isKnownCapability g.capability = true := by
    intro g hg
    rw [hu.durable] at hg
    exact ⟨(h.durable g hg).1.kept hu.participants, (h.durable g hg).2⟩
  refine ⟨hdurable, fun g' hg' => ?_⟩
  rcases hu.delegated with hsame | ⟨now, consumed, intentId, hconsumed, hgood⟩
  · rw [hsame] at hg'
    have hsound := h.delegated g' hg'
    exact ⟨hsound.scope.kept hu.participants, hsound.flag, hsound.bound⟩
  · obtain ⟨g, hg, rfl⟩ := (hconsumed.mem g').mp hg'
    have hsound := h.delegated g hg
    have hscope := hsound.scope.kept hu.participants
    by_cases hid : consumed = some g.id
    · rw [if_pos hid]
      refine ⟨hscope, hsound.flag, fun bound user hb hc => ?_⟩
      rcases hgood g hg hid with hnone | hsome
      · exact absurd (hnone.symm.trans hb) (by simp)
      · exact Option.some.inj (hb.symm.trans (hsome.trans hc))
    · rw [if_neg hid]
      exact ⟨hscope, hsound.flag, hsound.bound⟩

/-! ## Runs -/

/-- The step creates no delegated grant with a capability the kernel does not know: the creation
names one it knows, or is rejected. -/
def CreatesKnown (db : Database) (a : Action) : Prop :=
  ∀ op, a.grantOp = some op → ∀ raw, op.delegatedCreation = some raw →
    op.accepted a.now db = true → isKnownCapability (Text.trim raw.capability) = true

theorem GrantEffect.knownInv {creation : Option DelegatedGrantCreateRequest}
    (heffect : GrantEffect now db creation db') (h : KnownInv db)
    (hknown : ∀ raw, creation = some raw → isKnownCapability (Text.trim raw.capability) = true) :
    KnownInv db' := by
  cases heffect with
  | nothing => exact h
  | createDurable actor raw request normal participant fresh => exact h
  | reactivate actor g mem inactive => exact h
  | deactivateDurable actor g mem active => exact h
  | createDelegated actor raw request asked normal participant =>
      intro g hg
      simp only [recordEvent, insertDelegatedGrant] at hg
      rcases Table.mem_append.mp hg with hg | rfl
      · exact h g hg
      · obtain ⟨-, hcapability⟩ := normalScope_of_normalizeDelegated normal
        dsimp only
        rw [hcapability]
        exact hknown raw asked
  | deactivateDelegated actor g mem active =>
      intro g' hg'
      simp only [recordEvent, setDelegatedInactive] at hg'
      rw [Table.mem_update] at hg'
      obtain ⟨row, hrow, rfl⟩ := hg'
      by_cases hid : decide (row.id = g.id ∧ row.status ≠ "inactive") = true
      · rw [if_pos hid]
        exact h row hrow
      · rw [if_neg hid]
        exact h row hrow

theorem Ungranted.knownInv (hu : Ungranted db db') (h : KnownInv db) : KnownInv db' := by
  intro g' hg'
  rcases hu.delegated with hsame | ⟨now, consumed, intentId, hconsumed, -⟩
  · rw [hsame] at hg'
    exact h g' hg'
  · obtain ⟨g, hg, rfl⟩ := (hconsumed.mem g').mp hg'
    by_cases hid : consumed = some g.id
    · rw [if_pos hid]
      exact h g hg
    · rw [if_neg hid]
      exact h g hg

/-- A delegated creation that goes through leaves the grant it was asked for. -/
theorem createDelegatedGrantInTx_created {actor : NormalizedActor}
    {raw request : DelegatedGrantCreateRequest}
    {ending : Relational.TxEnd Database DelegatedGrantCreateOutcome}
    (hnormal : normalizeDelegatedGrantCreateRequest raw = .ok request)
    (h : createDelegatedGrantInTx now actor request db = .ok ending) :
    ∃ outcome db', ending = .commit outcome db'
      ∧ ∃ g ∈ db'.delegatedGrants, g.capability = Text.trim raw.capability := by
  obtain ⟨-, hcapability⟩ := normalScope_of_normalizeDelegated hnormal
  unfold createDelegatedGrantInTx at h
  obtain ⟨_, -, h⟩ := Except.of_bind_eq_ok h
  simp only [insertDelegatedGrant, recordEvent] at h
  split at h
  · obtain ⟨_, hno, -⟩ := Except.of_bind_eq_ok h
    exact absurd hno (by simp)
  · refine ⟨_, _, (Except.ok.inj h).symm, _, Table.mem_append.mpr (Or.inr rfl), ?_⟩
    exact hcapability

theorem GrantOp.created_of_accepted {op : GrantOp} {raw : DelegatedGrantCreateRequest}
    (hraw : op.delegatedCreation = some raw) (h : op.accepted now db = true) :
    ∃ g ∈ (op.apply now db).delegatedGrants, g.capability = Text.trim raw.capability := by
  cases op with
  | createDelegated actor request =>
      obtain rfl := Option.some.inj hraw
      obtain ⟨ending, hbody⟩ := Relational.transaction_of_ok h
      have hbody₀ := hbody
      obtain ⟨actor', -, hbody⟩ := Except.of_bind_eq_ok hbody
      obtain ⟨normal, hnormal, hbody⟩ := Except.of_bind_eq_ok hbody
      obtain ⟨outcome, db', rfl, hg⟩ := createDelegatedGrantInTx_created hnormal hbody
      rw [GrantOp.apply, createDelegatedGrant, administer, Relational.transaction_of_commit hbody₀]
      exact hg
  | createDelegatedAuthorized surface caller callerParticipantId request =>
      obtain rfl := Option.some.inj hraw
      simp only [GrantOp.accepted, GrantOp.apply, createDelegatedGrantAuthorized] at h ⊢
      split
      · rename_i hactor
        rw [hactor] at h
        exact absurd h (by simp [Except.isOk, Except.toBool])
      · rename_i hactor hnormal
        rw [hactor, hnormal] at h
        exact absurd h (by simp [Except.isOk, Except.toBool])
      · rename_i normal hactor hnormal
        rw [hactor, hnormal] at h
        obtain ⟨ending, hbody⟩ := Relational.transaction_of_ok h
        have hbody₀ := hbody
        obtain ⟨actor', -, hbody⟩ := Except.of_bind_eq_ok hbody
        dsimp only at hbody
        split at hbody
        · obtain ⟨_, hno, -⟩ := Except.of_bind_eq_ok hbody
          exact absurd hno (by simp)
        · obtain ⟨outcome, db', rfl, hg⟩ := createDelegatedGrantInTx_created hnormal hbody
          rw [administerAuthorized, Relational.transaction_of_commit hbody₀]
          exact hg
  | createDurable actor request => exact absurd hraw (by simp [GrantOp.delegatedCreation])
  | deactivateDurable actor grantId => exact absurd hraw (by simp [GrantOp.delegatedCreation])
  | deactivateDelegated actor grantId => exact absurd hraw (by simp [GrantOp.delegatedCreation])
  | createDurableAuthorized surface caller participantId request =>
      exact absurd hraw (by simp [GrantOp.delegatedCreation])
  | deactivateDurableAuthorized surface caller participantId grantId =>
      exact absurd hraw (by simp [GrantOp.delegatedCreation])
  | deactivateDelegatedAuthorized surface caller participantId grantId =>
      exact absurd hraw (by simp [GrantOp.delegatedCreation])

section Runs

variable [Sha256]

/-- What the audit needs: the ledger, the log, sound grants and known capabilities. -/
structure IntegrityInv (db : Database) : Prop where
  store : StoreInv db
  log : LogInv db
  policy : PolicyInv db
  known : KnownInv db

theorem integrityInv_initial : IntegrityInv Database.initial :=
  ⟨storeInv_initial, logInv_initial, ⟨fun _ h => absurd h (Table.not_mem_empty _),
    fun _ h => absurd h (Table.not_mem_empty _)⟩, fun _ h => absurd h (Table.not_mem_empty _)⟩

theorem integrityInv_step (db : Database) (a : Action) (h : IntegrityInv db)
    (hknown : CreatesKnown db a) : IntegrityInv (a.step db).2 := by
  have hstore := storeInv_step db a h.store
  have hlog := logInv_step db a h.log
  cases hop : a.grantOp with
  | none =>
      have hu := a.ungranted db hop
      exact ⟨hstore, hlog, hu.policyInv h.policy, hu.knownInv h.known⟩
  | some op =>
      rw [Action.step_of_grantOp hop] at hstore hlog ⊢
      have heffect := op.effect h.log.grants a.now
      refine ⟨hstore, hlog, heffect.policyInv h.policy, ?_⟩
      by_cases haccepted : op.accepted a.now db = true
      · exact heffect.knownInv h.known fun raw hraw => hknown op hop raw hraw haccepted
      · rw [GrantOp.apply_of_rejected (Bool.not_eq_true _ ▸ haccepted)]
        exact h.known

theorem IntegrityInv.valid {db : Database} (h : IntegrityInv db) :
    (auditAuthorizationIntegrity db).valid = true :=
  auditAuthorizationIntegrity_valid_iff.mpr (cleanPolicy h.store h.log.grants h.policy h.known)

/-- **The policy audit finds nothing in the states of a run** exactly when no step of it creates a
delegated grant with a capability the kernel does not know. -/
theorem policy_audit_clean_iff (actions : List Action) :
    (∀ e ∈ happenings actions, (auditAuthorizationIntegrity e.before).valid = true
        ∧ (auditAuthorizationIntegrity e.after).valid = true)
      ↔ ∀ e ∈ happenings actions, CreatesKnown e.before e.act := by
  constructor
  · intro hvalid e he op hop raw hraw haccepted
    rw [← Bool.not_eq_false]
    intro hunknown
    obtain ⟨g, hg, hcapability⟩ := GrantOp.created_of_accepted hraw haccepted
    rw [← Action.step_of_grantOp hop, Transition.step_of_mem he] at hg
    rw [← hcapability] at hunknown
    -- the grant that was created is found in the state the step left
    have hafter := (hvalid e he).2
    rw [auditAuthorizationIntegrity_invalid hg hunknown] at hafter
    exact absurd hafter (by simp)
  · intro hknown e he
    have hinv := Transition.inv_history (G := CreatesKnown) integrityInv_step integrityInv_initial
      hknown e he
    exact ⟨hinv.1.valid, hinv.2.valid⟩

end Runs

section Sample

attribute [local instance] sampleSha256

/-- A delegated grant of a capability that does not exist, for alice. -/
def unknownCapabilityGrant : Action :=
  ⟨1, .grant (.createDelegated .localCli
    ⟨"github", "42", "alice", "fly", none, none, none, false⟩)⟩

/-- **A delegated grant may name any capability**, and the audit then finds it. -/
theorem unknown_capability_fails_audit :
    ¬ ∀ actions, (auditAuthorizationIntegrity (stateAfter actions)).valid = true := by
  intro h
  have hvalid := h [sampleProvision, unknownCapabilityGrant]
  exact absurd hvalid (by decide +kernel)

end Sample

end Blackboard
