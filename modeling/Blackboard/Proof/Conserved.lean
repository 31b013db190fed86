import Blackboard.Proof.CallLedger
import Blackboard.Proof.OneShot

/-!
# Authority is conserved

Nothing that is asked of the server gives anybody authority, except what its administrators
ask for: a decision the kernel would deny before a stretch of requests it denies after it.
What a stretch takes away, it takes by spending one-shot grants on other intents.

An execution does record something the kernel reads, its receipt and the consumption of its
grant, and with it the kernel allows a replay even after the grant has expired. That is no
gain: the intent that consumed the grant was allowed when it did, and the clock had not
passed the expiry then (`Effect.conserves`).
-/

namespace Blackboard

open Relational (Table orderBy mem_orderBy)
open Concurrent (Config)

/-! ## The cascade, once more -/

section Cascade

variable {q : AccessRequest} {now now' : Int} {db db' : Database}

/-- Some delegated grant has no denial for the request. -/
def AccessRequest.Covered (q : AccessRequest) (now : Int) (db : Database) : Prop :=
  ∃ intentId, q.intentId = some intentId ∧ ∃ g ∈ db.delegatedGrants, q.HoldsDelegated g
    ∧ delegatedDenial now q.resource intentId g = none

/-- What the kernel reads apart from delegated grants and receipts. -/
structure UnchangedPolicy (db db' : Database) : Prop where
  rows : ∀ id, participantPolicyRow db' id = participantPolicyRow db id
  durable : db'.principalGrants = db.principalGrants

theorem UnchangedPolicy.durableOrImplicit (h : UnchangedPolicy db db') (row : ParticipantPolicyRow) :
    durableOrImplicit db' q.principal q.participantId q.capability q.resource row
      = durableOrImplicit db q.principal q.participantId q.capability q.resource row := by
  unfold Blackboard.durableOrImplicit explicitMatch activeDurableGrants
  rw [h.durable]

/-- **What an allowed decision takes.** -/
theorem decision_allowed_iff (hc : GrantsConsistent db) :
    (q.decision now db).allowed = true
      ↔ ∃ row, participantPolicyRow db q.participantId = some row ∧ row.status = "active"
        ∧ ((durableOrImplicit db q.principal q.participantId q.capability q.resource row).isSome
            = true ∨ q.Covered now db) := by
  unfold AccessRequest.decision evaluateAuthorizationCurrentSchema
  cases hrow : participantPolicyRow db q.participantId with
  | none => simp
  | some row =>
      simp only [Option.some.injEq, exists_eq_left']
      by_cases hactive : row.status = "active"
      swap
      · rw [if_pos hactive]
        simp [hactive]
      rw [if_neg (not_not.mpr hactive)]
      rcases durableOrImplicit_cases hrow with ⟨d, hd, hallowed, -, -⟩ | ⟨hnone, -⟩
      · rw [hd]
        simp [hallowed, hactive]
      · rw [hnone]
        simp only [Option.isSome_none, Bool.false_eq_true, false_or, hactive, true_and]
        unfold AccessRequest.Covered
        cases hintent : q.intentId with
        | none =>
            simp only [Option.bind_none, reduceCtorEq, false_and, exists_false, iff_false]
            split <;> simp
        | some intentId =>
            simp only [Option.bind_some, Option.some.injEq, exists_eq_left']
            rw [← delegatedLoop_allowed now q hc intentId]
            cases delegatedLoop now db q.participantId q.resource intentId
                (orderBy (fun a b => delegatedGrantOrder a ≤ delegatedGrantOrder b)
                  (activeDelegatedGrants db q.principal q.participantId q.capability)) none with
            | some d => simp
            | none =>
                simp only [reduceCtorEq, false_and, exists_false, iff_false]
                split <;> simp

/-- Between stores with the same policy, only delegated grants make a difference. -/
theorem UnchangedPolicy.allowed (h : UnchangedPolicy db db') (hc : GrantsConsistent db)
    (hc' : GrantsConsistent db') (hcovered : q.Covered now' db' → q.Covered now db)
    (hallowed : (q.decision now' db').allowed = true) : (q.decision now db).allowed = true := by
  obtain ⟨row, hrow, hactive, hgrounds⟩ := (decision_allowed_iff hc').mp hallowed
  rw [h.rows] at hrow
  rw [h.durableOrImplicit] at hgrounds
  exact (decision_allowed_iff hc).mpr ⟨row, hrow, hactive, hgrounds.imp_right hcovered⟩

theorem UnchangedPolicy.symm (h : UnchangedPolicy db db') : UnchangedPolicy db' db :=
  ⟨fun id => (h.rows id).symm, h.durable.symm⟩

/-- A grant that is good later is good now. -/
theorem AccessRequest.Covered.earlier (hclock : now ≤ now') (h : q.Covered now' db) : q.Covered now db := by
  obtain ⟨intentId, hintent, g, hg, held, hdenial⟩ := h
  obtain ⟨hresource, hbound, hconsumed, hexpiry⟩ := delegatedDenial_eq_none.mp hdenial
  refine ⟨intentId, hintent, g, hg, held, delegatedDenial_eq_none.mpr
    ⟨hresource, hbound, hconsumed, hexpiry.imp_left fun hlater expiresAt he => ?_⟩⟩
  have hbefore := hlater expiresAt he
  omega

/-- The grant an execution consumes has no denial for it and is unconsumed. -/
theorem fresh_of_consumeGrantId {id : Int} (h : (q.decision now db).allowed = true)
    (hc : (q.decision now db).consumeGrantId = some id) :
    ∃ intentId, q.intentId = some intentId ∧ ∃ g ∈ db.delegatedGrants, g.id = id
      ∧ q.HoldsDelegated g ∧ delegatedDenial now q.resource intentId g = none := by
  obtain ⟨-, hg⟩ := grounds_of_allowed h
  generalize q.decision now db = d at hg hc
  cases hg with
  | durable g hg held covers => exact absurd hc (by simp [AuthorizationDecision.allow])
  | replay g intentId hg held => exact absurd hc (by simp [AuthorizationDecision.allow])
  | implicit row reason hrow hreason hnone =>
      exact absurd hc (by simp [AuthorizationDecision.allow])
  | delegated g intentId hg held hintent hcovers hfresh =>
      simp only [AuthorizationDecision.allow] at hc
      split at hc
      · exact ⟨intentId, hintent, g, hg, Option.some.inj hc, held, hcovers⟩
      · exact absurd hc (by simp)

end Cascade

/-! ## Spending -/

/-- A grant as it was, or a one-shot grant that has been spent. -/
def KeptOrSpent (g g' : DelegatedGrant) : Prop :=
  g' = g ∨ g.oneShot ≠ 0 ∧ g.consumedAt = none ∧ g'.consumedAt ≠ none
    ∧ g' = { g with consumedAt := g'.consumedAt, consumedIntentId := g'.consumedIntentId }

/-- A grant is spent once. -/
theorem KeptOrSpent.trans {g g' g'' : DelegatedGrant} (h : KeptOrSpent g g')
    (h' : KeptOrSpent g' g'') : KeptOrSpent g g'' := by
  rcases h with rfl | ⟨hone, hfree, hspent, heq⟩
  · exact h'
  · rcases h' with rfl | ⟨-, hfree', -, -⟩
    · exact Or.inr ⟨hone, hfree, hspent, heq⟩
    · exact absurd hfree' hspent

/-- A one-shot grant the request could use has been spent on another intent. -/
def AccessRequest.SpentElsewhere (q : AccessRequest) (db db' : Database) : Prop :=
  ∃ g ∈ db.delegatedGrants, ∃ g' ∈ db'.delegatedGrants, g'.id = g.id ∧ q.HoldsDelegated g
    ∧ g.oneShot ≠ 0 ∧ g.consumedAt = none ∧ g'.consumedAt ≠ none
    ∧ ∃ intentId, g'.consumedIntentId = some intentId ∧ q.intentId ≠ some intentId

/-- What a stretch without administration does to everybody's authority. -/
structure Conserves (w w' : World) : Prop where
  clock : w.now ≤ w'.now
  kept : ∀ g ∈ w.db.delegatedGrants, ∃ g' ∈ w'.db.delegatedGrants, KeptOrSpent g g'
  old : ∀ g' ∈ w'.db.delegatedGrants, ∃ g ∈ w.db.delegatedGrants, KeptOrSpent g g'
  /-- Nobody gains any. -/
  gained : ∀ q : AccessRequest, (q.decision w'.now w'.db).allowed = true →
    (q.decision w.now w.db).allowed = true
  /-- Who loses some, and not to the clock, loses a one-shot grant to another intent. -/
  lost : w'.now = w.now → ∀ q : AccessRequest, (q.decision w.now w.db).allowed = true →
    (q.decision w'.now w'.db).allowed = true ∨ q.SpentElsewhere w.db w'.db

theorem Conserves.refl (w : World) : Conserves w w :=
  ⟨Int.le_refl _, fun g hg => ⟨g, hg, Or.inl rfl⟩, fun g hg => ⟨g, hg, Or.inl rfl⟩, fun _ h => h,
    fun _ _ h => Or.inl h⟩

theorem Conserves.trans {w w' w'' : World} (h : Conserves w w') (h' : Conserves w' w'') :
    Conserves w w'' := by
  refine ⟨Int.le_trans h.clock h'.clock, fun g hg => ?_, fun g'' hg'' => ?_,
    fun q hq => h.gained q (h'.gained q hq), fun hclock q hq => ?_⟩
  · obtain ⟨g', hg', hk⟩ := h.kept g hg
    obtain ⟨g'', hg'', hk'⟩ := h'.kept g' hg'
    exact ⟨g'', hg'', hk.trans hk'⟩
  · obtain ⟨g', hg', hk'⟩ := h'.old g'' hg''
    obtain ⟨g, hg, hk⟩ := h.old g' hg'
    exact ⟨g, hg, hk.trans hk'⟩
  · have hle := h.clock
    have hle' := h'.clock
    have hfirst : w'.now = w.now := by omega
    have hsecond : w''.now = w'.now := by omega
    rcases h.lost hfirst q hq with hq' | ⟨g, hg, g', hg', hid, held, hone, hfree, hspent, hby⟩
    · rcases h'.lost hsecond q hq' with
        hq'' | ⟨g', hg', g'', hg'', hid, held, hone, hfree, hspent, hby⟩
      · exact Or.inl hq''
      · -- an unspent grant is as it was
        obtain ⟨g, hg, rfl | ⟨-, -, hspent', -⟩⟩ := h.old g' hg'
        · exact Or.inr ⟨g', hg, g'', hg'', hid, held, hone, hfree, hspent, hby⟩
        · exact absurd hfree hspent'
    · obtain ⟨g'', hg'', rfl | ⟨-, hfree', -, -⟩⟩ := h'.kept g' hg'
      · exact Or.inr ⟨g, hg, g'', hg'', hid, held, hone, hfree, hspent, hby⟩
      · exact absurd hfree' hspent

/-- The same policy and the same delegated grants. -/
theorem conserves_of_same {w w' : World} (hclock : w.now ≤ w'.now) (hp : UnchangedPolicy w.db w'.db)
    (hd : w'.db.delegatedGrants = w.db.delegatedGrants) (hc : GrantsConsistent w.db)
    (hc' : GrantsConsistent w'.db) : Conserves w w' := by
  have hcovered : ∀ (q : AccessRequest) now, q.Covered now w'.db ↔ q.Covered now w.db := by
    intro q now
    unfold AccessRequest.Covered
    rw [hd]
  refine ⟨hclock, fun g hg => ⟨g, by rw [hd]; exact hg, Or.inl rfl⟩,
    fun g hg => ⟨g, by rw [← hd]; exact hg, Or.inl rfl⟩, fun q hq => ?_, fun hsame q hq => ?_⟩
  · exact hp.allowed hc hc' (fun h => ((hcovered q _).mp h).earlier hclock) hq
  · refine Or.inl (hp.symm.allowed hc' hc (fun h => ?_) hq)
    rw [hsame]
    exact (hcovered q _).mpr h

/-! ## Executions -/

section Executions

variable [Sha256] {now : Int} {identity : Identity} {request : MessageExecutionRequest}
  {db db' : Database} {m : Message}

/-- What a first execution did to a delegated grant. -/
theorem FirstExecuted.keptOrSpent (hf : FirstExecuted now identity request db m db')
    {g : DelegatedGrant} (hg : g ∈ db.delegatedGrants) :
    ∃ g' ∈ db'.delegatedGrants, g'.id = g.id ∧ (g' = g
      ∨ (executionDecision now db request).consumeGrantId = some g.id ∧ g.oneShot ≠ 0
        ∧ g.consumedAt = none ∧ g' = { g with
            consumedAt := some now, consumedIntentId := some request.intent.intentId }) := by
  refine ⟨_, (hf.effects.grants.mem _).mpr ⟨g, hg, rfl⟩, ?_, ?_⟩
  · split
    · rfl
    · rfl
  · split
    · rename_i hid
      obtain ⟨g₀, hg₀, heq, -, hone, hfree⟩ := hf.effects.grants.free g.id hid
      obtain rfl : g₀ = g := Table.eq_of_key hg₀ hg heq
      exact Or.inr ⟨hid, by omega, hfree, rfl⟩
    · exact Or.inl rfl

/-- **A first execution gives nobody authority**, and takes none but the grant it consumes. -/
theorem FirstExecuted.conserves (hf : FirstExecuted now identity request db m db')
    (h : StoreInv db) (h' : StoreInv db') : Conserves ⟨db, now⟩ ⟨db', now⟩ := by
  have hp : UnchangedPolicy db db' := by
    rw [hf.frame]
    exact ⟨fun _ => rfl, rfl⟩
  have hold : ∀ g' ∈ db'.delegatedGrants, ∃ g ∈ db.delegatedGrants, g' = g
      ∨ (executionDecision now db request).consumeGrantId = some g.id ∧ g.oneShot ≠ 0
        ∧ g.consumedAt = none ∧ g' = { g with
            consumedAt := some now, consumedIntentId := some request.intent.intentId } := by
    intro g' hg'
    obtain ⟨g, hg, rfl⟩ := (hf.effects.grants.mem g').mp hg'
    obtain ⟨g'', hg'', hid, hcases⟩ := hf.keptOrSpent hg
    have heq := Table.eq_of_key hg'' hg' (hid.trans (by split <;> rfl))
    rw [heq] at hcases
    exact ⟨g, hg, hcases⟩
  refine ⟨Int.le_refl _, fun g hg => ?_, fun g' hg' => ?_, fun q hq => ?_, fun _ q hq => ?_⟩
  · obtain ⟨g', hg', -, heq | ⟨-, hone, hfree, heq⟩⟩ := hf.keptOrSpent hg
    · exact ⟨g', hg', Or.inl heq⟩
    · refine ⟨g', hg', Or.inr ⟨hone, hfree, ?_, ?_⟩⟩
      · rw [heq]
        simp
      · rw [heq]
  · obtain ⟨g, hg, heq | ⟨-, hone, hfree, heq⟩⟩ := hold g' hg'
    · exact ⟨g, hg, Or.inl heq⟩
    · refine ⟨g, hg, Or.inr ⟨hone, hfree, ?_, ?_⟩⟩
      · rw [heq]
        simp
      · rw [heq]
  · -- the replay of the grant's own intent could have used it before
    refine hp.allowed h.grantsConsistent h'.grantsConsistent (fun hcovered => ?_) hq
    obtain ⟨intentId, hintent, g', hg', held, hdenial⟩ := hcovered
    obtain ⟨g, hg, heq | ⟨hid, hone, hfree, heq⟩⟩ := hold g' hg'
    · rw [heq] at held hdenial
      exact ⟨intentId, hintent, g, hg, held, hdenial⟩
    · obtain ⟨_, hby, g₀, hg₀, hkey, -, hgood⟩ :=
        fresh_of_consumeGrantId (q := request.access) hf.toAccepted.allowed hid
      obtain rfl : g₀ = g := Table.eq_of_key hg₀ hg hkey
      obtain rfl := Option.some.inj hby
      rw [heq] at held hdenial
      obtain ⟨hresource, hbound, -, -⟩ := delegatedDenial_eq_none.mp hdenial
      obtain ⟨-, -, -, hexpiry⟩ := delegatedDenial_eq_none.mp hgood
      have hunconsumed := (h.consumed.paired g₀ hg).mp hfree
      refine ⟨intentId, hintent, g₀, hg, held, delegatedDenial_eq_none.mpr
        ⟨hresource, hbound, fun hconsumed => hconsumed.2.1 hfree, Or.inl ?_⟩⟩
      rcases hexpiry with hlater | ⟨-, hby'⟩
      · exact hlater
      · rw [hunconsumed] at hby'
        exact absurd hby' (by simp)
  · by_cases hspent : q.SpentElsewhere db db'
    · exact Or.inr hspent
    refine Or.inl (hp.symm.allowed h'.grantsConsistent h.grantsConsistent (fun hcovered => ?_) hq)
    obtain ⟨intentId, hintent, g, hg, held, hdenial⟩ := hcovered
    obtain ⟨g', hg', hid, heq | ⟨-, hone, hfree, heq⟩⟩ := hf.keptOrSpent hg
    · rw [heq] at hg'
      exact ⟨intentId, hintent, g, hg', held, hdenial⟩
    · -- spent by the request's own intent, or elsewhere
      have hsame : request.intent.intentId = intentId := by
        by_contra hne
        refine hspent ⟨g, hg, g', hg', hid, held, hone, hfree, ?_, request.intent.intentId, ?_,
          fun h => hne (Option.some.inj (h.symm.trans hintent))⟩
        · rw [heq]
          simp
        · rw [heq]
      obtain ⟨hresource, hbound, -, hexpiry⟩ := delegatedDenial_eq_none.mp hdenial
      refine ⟨intentId, hintent, g', hg', ?_, ?_⟩
      · rw [heq]
        exact held
      · rw [heq, hsame]
        exact delegatedDenial_eq_none.mpr ⟨hresource, hbound, fun hconsumed => hconsumed.2.2 rfl,
          Or.inr ⟨hone, rfl⟩⟩

end Executions

/-! ## Every effect -/

section Effects

variable [Sha256] [Hmac] [Base64Url]

omit [Sha256] [Hmac] [Base64Url] in
theorem unchangedPolicy_refl (db : Database) : UnchangedPolicy db db := ⟨fun _ => rfl, rfl⟩

omit [Sha256] [Hmac] [Base64Url] in
theorem CredentialsEdited.unchangedPolicy {db db' : Database} (h : CredentialsEdited db db') :
    UnchangedPolicy db db' := by
  refine ⟨h.policyRow, ?_⟩
  rw [h.frame]

/-- **What an effect does to what the kernel reads**: nothing, or it is administration, or it is an
execution that consumes a grant. -/
theorem Effect.cases_authority (e : Effect) (w : World) (hgrant : e.grantOp = none)
    (hparticipant : ∀ op, e ≠ .participant op) :
    UnchangedPolicy w.db (e.apply w).db
      ∧ (e.apply w).db.delegatedGrants = w.db.delegatedGrants
    ∨ ∃ writer request m, e = .execute writer request
      ∧ FirstExecuted w.now writer request w.db m (e.apply w).db := by
  have hsame : ∀ db : Database, db = w.db →
      UnchangedPolicy w.db db ∧ db.delegatedGrants = w.db.delegatedGrants := by
    intro db hdb
    rw [hdb]
    exact ⟨unchangedPolicy_refl w.db, rfl⟩
  cases e with
  | nothing => exact Or.inl (hsame _ rfl)
  | ensureChannel name createdBy =>
      obtain ⟨channels, hens⟩ := ensureChannel_frame w.now name createdBy w.db
      refine Or.inl ?_
      rw [show ((ensureChannel name createdBy).apply w).db = _ from hens]
      exact ⟨⟨fun _ => rfl, rfl⟩, rfl⟩
  | insert identity fields => exact Or.inl ⟨⟨fun _ => rfl, rfl⟩, rfl⟩
  | navigate writer payload =>
      refine Or.inl ?_
      simp only [Effect.apply]
      rcases appendNavigationMessage_cases w.now writer payload.navigationInput w.db with
        ⟨m, -, hw⟩ | ⟨m, -, -, hdb⟩ | ⟨hdb, -⟩
      · rw [hw.frame]
        exact ⟨⟨fun _ => rfl, rfl⟩, rfl⟩
      · exact hsame _ hdb
      · exact hsame _ hdb
  | execute writer request =>
      rcases executeMessageIntent_cases w.now writer request w.db with
        ⟨m, -, hf⟩ | ⟨m, -, hr⟩ | ⟨hdb, -⟩
      · exact Or.inr ⟨writer, request, m, rfl, hf⟩
      · refine Or.inl ?_
        simp only [Effect.apply]
        rw [hr.frame]
        exact ⟨⟨fun _ => rfl, rfl⟩, rfl⟩
      · exact Or.inl (hsame _ hdb)
  | login participantId code now =>
      have hedited := credentialsEdited_login participantId code now w.db
      refine Or.inl ⟨hedited.unchangedPolicy, ?_⟩
      rw [show ((login participantId code now).apply w).db = _ from hedited.frame]
  | grant op => exact absurd hgrant (by simp [Effect.grantOp])
  | participant op => exact absurd rfl (hparticipant op)
  | channel op =>
      obtain ⟨channels, hdb⟩ := op.edited w.now w.db
      refine Or.inl ?_
      rw [show ((channel op).apply w).db = _ from hdb]
      exact ⟨⟨fun _ => rfl, rfl⟩, rfl⟩
  | credential op =>
      have hedited := credentialsEdited_credentialOp op w.db
      refine Or.inl ⟨hedited.unchangedPolicy, ?_⟩
      rw [show ((credential op).apply w).db = _ from hedited.frame]
  | tick now => exact Or.inl (hsame _ rfl)

/-- **Every effect that is no administration conserves authority**, unless the clock is set back. -/
theorem Effect.conserves (e : Effect) (w : World) (hgrant : e.grantOp = none)
    (hparticipant : ∀ op, e ≠ .participant op) (hclock : w.now ≤ (e.apply w).now)
    (h : StoreInv w.db) : Conserves w (e.apply w) := by
  have h' := e.storeInv w h
  rcases e.cases_authority w hgrant hparticipant with
    ⟨hpolicy, hdelegated⟩ | ⟨writer, request, m, rfl, hf⟩
  · exact conserves_of_same hclock hpolicy hdelegated h.grantsConsistent h'.grantsConsistent
  · exact hf.conserves h h'

/-! ## Stretches of requests -/

/-- A call of an administrator of participants or grants, at the machine or by REST. -/
def Runtime.Call.Administers : Runtime.Call → Prop
  | board (.grant _) | board (.participant _) => True
  | access _ _ route => route.method ≠ "GET"
  | _ => False

omit [Hmac] [Base64Url] [Sha256] in
theorem AccessApi.Route.grantOp_of_get {route : AccessApi.Route} (h : route.method = "GET")
    (caller : Principal) (participantId : String) : route.grantOp caller participantId = none := by
  cases route with
  | createDurableAuthorizationGrant body => exact absurd h (by simp [AccessApi.Route.method])
  | createDelegatedAuthorizationGrant body => exact absurd h (by simp [AccessApi.Route.method])
  | deactivateDurableAuthorizationGrant grantId => exact absurd h (by simp [AccessApi.Route.method])
  | deactivateDelegatedAuthorizationGrant grantId => exact absurd h (by simp [AccessApi.Route.method])
  | _ => rfl

variable [JsonParser]

omit [Base64Url] in
/-- Other calls have no administrative effect. -/
theorem Runtime.Call.May.quiet {settings : Settings} {c : Runtime.Call} {e : Effect}
    (hmay : c.May settings e) (hc : ¬ c.Administers) :
    e.grantOp = none ∧ ∀ op, e ≠ .participant op := by
  have htool : ToolEffect e → e.grantOp = none ∧ ∀ op, e ≠ .participant op := by
    intro h
    rcases h with rfl | ⟨arguments, w, writer, principal, -, -, rfl⟩
    · exact ⟨rfl, fun _ => Effect.noConfusion⟩
    · exact ⟨rfl, fun _ => Effect.noConfusion⟩
  cases c with
  | board r =>
      cases e with
      | grant op =>
          obtain rfl : r = .grant op := Request.May.origin hmay
          exact absurd trivial hc
      | participant op =>
          obtain rfl : r = .participant op := Request.May.origin hmay
          exact absurd trivial hc
      | _ => exact ⟨rfl, fun _ => Effect.noConfusion⟩
  | access headers requestTarget route =>
      rcases hmay with rfl | ⟨caller, participantId, op, -, hop, rfl⟩
      · exact ⟨rfl, fun _ => Effect.noConfusion⟩
      · rw [AccessApi.Route.grantOp_of_get (not_not.mp hc)] at hop
        exact absurd hop (by simp)
  | admin headers route =>
      rcases hmay with rfl | ⟨admin, op, -, rfl⟩
      · exact ⟨rfl, fun _ => Effect.noConfusion⟩
      · exact ⟨rfl, fun _ => Effect.noConfusion⟩
  | whoami headers =>
      obtain rfl := hmay
      exact ⟨rfl, fun _ => Effect.noConfusion⟩
  | authGuest =>
      obtain rfl := hmay
      exact ⟨rfl, fun _ => Effect.noConfusion⟩
  | mcp headers body => exact htool hmay
  | stdio lines => exact htool hmay

variable [Base64Standard] [Jwt] [Mcp.UrlParser]

/-- An event that is no administration. -/
def Quiescent (e : Runtime.CallEvent) : Prop :=
  (∀ c, e.out = some c → ¬ c.Administers) ∧ e.before.store.now ≤ e.after.store.now

theorem conserves_of_quiescent {settings : Settings} {w : World}
    {moves : List (Concurrent.Move Runtime.Call)} {e : Runtime.CallEvent}
    (he : e ∈ Runtime.history settings w moves) (hquiet : Quiescent e)
    (h : StoreInv e.before.store.db) : Conserves e.before.store e.after.store := by
  rcases effect_of_event he with ⟨c, effect, hout, hmay, hstore⟩ | ⟨-, hstore⟩
  · obtain ⟨hgrant, hparticipant⟩ := hmay.quiet (hquiet.1 c hout)
    have hclock := hquiet.2
    rw [hstore] at hclock ⊢
    exact effect.conserves e.before.store hgrant hparticipant hclock h
  · rw [hstore]
    exact .refl _

end Effects

/-! ## A stretch of requests -/

section Sample
attribute [local instance] sampleSha256 sampleHmac sampleBase64Url Base64Standard.padded
  sampleJsonParser sampleJwt sampleUrlParser

/-- Alice is provisioned. -/
def aliceProvisioned : List (Concurrent.Move Runtime.Call) :=
  [.start (.board (.participant (.provision "alice" "chatgpt" none))), .advance 0]

/-- A visitor, and the passing of time. -/
def visitorAndTime : List (Concurrent.Move Runtime.Call) :=
  [.start .authGuest, .start (.board (.tick 5)), .advance 1, .advance 2]

end Sample

end Blackboard
