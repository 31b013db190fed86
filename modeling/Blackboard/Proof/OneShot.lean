import Blackboard.Proof.StoreInv

/-!
# One-shot grants

A one-shot grant is evaluated, the message is appended, the receipt and the authority are
recorded and the grant is consumed, all in one transaction; everything that goes wrong on
the way undoes it. What this buys is said in `OneShotGrants`, about every run of the
system, whatever comes between two requests.
-/

namespace Blackboard

open Relational (Table)

variable [Sha256]

/-- The execution committed its intent for the first time, on the authority of a delegated grant. -/
def CommitsUnder (e : Happening) (participantId intentId : String) (grantId : Int) : Prop :=
  ∃ request, IsExecution e participantId request ∧ request.intent.intentId = intentId
    ∧ e.out.created.isSome = true
    ∧ (executionDecision e.act.now e.before request).source = .delegatedGrants
    ∧ (executionDecision e.act.now e.before request).grantId = some grantId

/-- What holds of the one-shot grants of a run. -/
structure OneShotGrants (actions : List Action) : Prop where
  /-- A one-shot grant authorises the commit of one intent of one participant. -/
  single : ∀ g ∈ (stateAfter actions).delegatedGrants, g.oneShot ≠ 0 →
    ∀ e ∈ happenings actions, ∀ e' ∈ happenings actions, ∀ participantId intentId participantId'
      intentId', CommitsUnder e participantId intentId g.id →
        CommitsUnder e' participantId' intentId' g.id →
          participantId = participantId' ∧ intentId = intentId'
  /-- When and by what it was consumed are set together. -/
  together : ∀ g ∈ (stateAfter actions).delegatedGrants,
    g.consumedAt = none ↔ g.consumedIntentId = none
  /-- They are set once: whatever happens next, they stay what they are. -/
  final : ∀ g ∈ (stateAfter actions).delegatedGrants, g.consumedAt ≠ none → ∀ more,
    ∃ g' ∈ (stateAfter (actions ++ more)).delegatedGrants, g'.id = g.id
      ∧ g'.consumedAt = g.consumedAt ∧ g'.consumedIntentId = g.consumedIntentId
  /-- They are set exactly when the audit trail says that the grant was used. -/
  recorded : ∀ g ∈ (stateAfter actions).delegatedGrants, g.oneShot ≠ 0 → ∀ intentId,
    g.consumedIntentId = some intentId
      ↔ ∃ r ∈ (stateAfter actions).receipts, r.pair = (g.participantId, intentId)
        ∧ r.status = "committed"
        ∧ ∃ a ∈ (stateAfter actions).provenance, a.pair = r.pair ∧ Cites a g
  /-- An execution that does not commit its intent for the first time consumes nothing. -/
  refused : ∀ e ∈ happenings actions, ∀ participantId request,
    IsExecution e participantId request → e.out.created = none →
      e.after.delegatedGrants = e.before.delegatedGrants
  /-- The kernel never finds a consumed grant without its receipt. -/
  receipted : ∀ (q : AccessRequest) now, (q.decision now (stateAfter actions)).reason
    ≠ .delegatedConsumedWithoutCommittedReceipt

section Parts

variable {db : Database}

/-- Authority that cites a one-shot grant is the authority of the intent that consumed it. -/
theorem consumed_of_cites (h : StoreInv db) {g : DelegatedGrant} (hg : g ∈ db.delegatedGrants)
    (hone : g.oneShot ≠ 0) {a : Provenance} (ha : a ∈ db.provenance) (hc : Cites a g) :
    a.pair = (g.participantId, a.intentId) ∧ g.consumedIntentId = some a.intentId := by
  obtain ⟨n, r, m, hacc⟩ := h.ledger.provenance a ha
  obtain ⟨g', hg', hcov⟩ := hacc.delegated hc.1
  have hid : g'.id = g.id := Option.some.inj (hcov.id.symm.trans hc.2)
  obtain rfl : g' = g := Table.eq_of_key hg' hg hid
  exact ⟨Prod.ext hcov.participantId.symm rfl, (hcov.consumed hone).2⟩

/-- The store is consistent in the sense of the policy. -/
theorem StoreInv.grantsConsistent (h : StoreInv db) : GrantsConsistent db := by
  refine ⟨fun g hg _ => h.consumed.paired g hg, fun g hg _ intentId hby => ?_⟩
  obtain ⟨a, ha, hpair, -⟩ := h.consumed.cited g hg intentId hby
  obtain ⟨n, r, m, hacc⟩ := h.ledger.provenance a ha
  obtain ⟨hp, hi⟩ := Prod.mk.inj (hacc.receipt.2.1.trans hpair)
  exact ⟨r, hacc.receipt.1, hp, hi, (h.ledger.receipts r hacc.receipt.1).1⟩

theorem recorded_iff (h : StoreInv db) {g : DelegatedGrant} (hg : g ∈ db.delegatedGrants)
    (hone : g.oneShot ≠ 0) (intentId : String) :
    g.consumedIntentId = some intentId
      ↔ ∃ r ∈ db.receipts, r.pair = (g.participantId, intentId) ∧ r.status = "committed"
        ∧ ∃ a ∈ db.provenance, a.pair = r.pair ∧ Cites a g := by
  constructor
  · intro hby
    obtain ⟨a, ha, hpair, hc⟩ := h.consumed.cited g hg intentId hby
    obtain ⟨n, r, m, hacc⟩ := h.ledger.provenance a ha
    have hr := hacc.receipt
    exact ⟨r, hr.1, hr.2.1.trans hpair, (h.ledger.receipts r hr.1).1, a, ha, hr.2.1.symm, hc⟩
  · rintro ⟨r, -, hrpair, -, a, ha, hapair, hc⟩
    obtain ⟨-, hby⟩ := consumed_of_cites h hg hone ha hc
    rw [hby]
    exact congrArg some (Prod.mk.inj (hapair.trans hrpair)).2

/-- No decision ends at the missing receipt. -/
theorem reason_ne_missing_receipt (h : StoreInv db) (q : AccessRequest) (now : Int) :
    (q.decision now db).reason ≠ .delegatedConsumedWithoutCommittedReceipt := by
  rcases decision_cases q now db with ⟨-, hne⟩ | ⟨-, hg⟩
    | ⟨g, hg, intentId, hint, held, hone, hat, hby, hno, -⟩
  · exact hne
  · generalize q.decision now db = d at hg
    cases hg with
    | durable => exact fun h => absurd h (by simp [AuthorizationDecision.allow])
    | replay => exact fun h => absurd h (by simp [AuthorizationDecision.allow])
    | delegated => exact fun h => absurd h (by simp [AuthorizationDecision.allow])
    | implicit row reason hrow hreason =>
        exact implicitAuthorityReason_ne_missing_receipt hreason
  · obtain ⟨r, hr, hp, hi, hs⟩ := h.grantsConsistent.committed g hg hone intentId hby
    have : committedReceiptExists db q.participantId intentId = true :=
      committedReceiptExists_iff.mpr ⟨r, hr, hp.trans held.2.2.1, hi, hs⟩
    rw [this] at hno
    exact absurd hno (by simp)

end Parts

/-- An execution that does not commit its intent for the first time leaves the grants alone. -/
theorem grants_of_not_created {db : Database} {a : Action} {participantId : String}
    {request : MessageExecutionRequest} (hop : a.op = .execute participantId request)
    (hnone : (a.step db).1.created = none) :
    (a.step db).2.delegatedGrants = db.delegatedGrants := by
  obtain ⟨now, op⟩ := a
  obtain rfl : op = .execute participantId request := hop
  simp only [Action.step] at hnone ⊢
  cases hp : getWebParticipant db participantId with
  | none => rfl
  | some identity =>
      rw [hp] at hnone
      simp only at hnone ⊢
      rcases executeMessageIntent_cases now identity request db with
        ⟨m, ho, -⟩ | ⟨m, -, hr⟩ | ⟨hs, -⟩
      · rw [ho] at hnone
        exact absurd hnone (by simp [Outcome.created])
      · rw [hr.frame]
      · rw [hs]

/-- An execution that commits under a grant records authority that cites the grant. -/
theorem cites_of_commitsUnder {actions : List Action} {e : Happening} (he : e ∈ happenings actions)
    {participantId intentId : String} {g : DelegatedGrant}
    (h : CommitsUnder e participantId intentId g.id) :
    ∃ a ∈ (stateAfter actions).provenance, a.pair = (participantId, intentId) ∧ Cites a g := by
  obtain ⟨request, hop, rfl, hcreated, hsource, hgrant⟩ := h
  have hstep := Transition.step_of_mem he
  have hgrows : Grows e.after (stateAfter actions) :=
    Transition.rel_of_mem Grows.refl Grows.trans (fun db a => a.grows db) he
  obtain ⟨m, hm⟩ := Option.isSome_iff_exists.mp hcreated
  rw [show e.out = (e.act.step e.before).1 by rw [hstep]] at hm
  obtain ⟨identity, hp, hf⟩ := Action.created_cases hop hm
  rw [show (e.act.step e.before).2 = e.after by rw [hstep]] at hf
  refine ⟨_, hgrows.provenance _ ((hf.mem_provenance _).mpr (Or.inr rfl)), ?_, ?_, hgrant⟩
  · refine (hf.toAccepted.pair m.id).trans (Prod.ext ?_ rfl)
    obtain ⟨p, -, hid, rfl⟩ := identity_of_getWebParticipant hp
    exact hid
  · change (executionDecision e.act.now e.before request).source.text = _
    rw [hsource]

/-- **One-shot grants are good for one intent**, in every run. -/
theorem oneShotGrants (actions : List Action) : OneShotGrants actions where
  single := by
    intro g hg hone e he e' he' participantId intentId participantId' intentId' h h'
    have hinv := storeInv_stateAfter actions
    obtain ⟨a, ha, hpair, hc⟩ := cites_of_commitsUnder he h
    obtain ⟨a', ha', hpair', hc'⟩ := cites_of_commitsUnder he' h'
    obtain ⟨hkey, hby⟩ := consumed_of_cites hinv hg hone ha hc
    obtain ⟨hkey', hby'⟩ := consumed_of_cites hinv hg hone ha' hc'
    have hintent : a.intentId = a'.intentId := Option.some.inj (hby.symm.trans hby')
    rw [← hintent] at hkey'
    exact Prod.mk.inj (hpair.symm.trans (hkey.trans (hkey'.symm.trans hpair')))
  together := (storeInv_stateAfter actions).consumed.paired
  final := by
    intro g hg hc more
    have hgrows : Grows (stateAfter actions) (stateAfter (actions ++ more)) := by
      rw [stateAfter, stateAfter, Transition.run_append]
      exact Transition.rel_run Grows.refl Grows.trans (fun db a => a.grows db) _ more
    obtain ⟨g', hg', hk⟩ := hgrows.grants g hg
    exact ⟨g', hg', hk.id, hk.consumed hc⟩
  recorded := fun g hg hone => recorded_iff (storeInv_stateAfter actions) hg hone
  refused := by
    intro e he participantId request hop hnone
    have hstep := Transition.step_of_mem he
    rw [show e.out = (e.act.step e.before).1 by rw [hstep]] at hnone
    rw [show e.after = (e.act.step e.before).2 by rw [hstep]]
    exact grants_of_not_created hop hnone
  receipted := fun q now => reason_ne_missing_receipt (storeInv_stateAfter actions) q now

end Blackboard
