import Blackboard.Spec.Policy

/-!
# The kernel decides the policy

The cascade asks its questions in an order and stops at the first answer; the policy has
no order. Each part of the cascade gets one lemma saying what it answers: the participant
row, the durable query, the implicit rules, the loop over delegated grants, which is the
first grant that has no denial (`delegatedLoop_eq`). The theorem puts them together.
-/

namespace Blackboard

open Relational (orderBy mem_orderBy Table)

/-! ## Durable grants -/

theorem mem_activeDurableGrants {db : Database} {principal : Principal}
    {participantId capability : String} {g : DurableGrant} :
    g ∈ activeDurableGrants db principal participantId capability
      ↔ g ∈ db.principalGrants ∧ g.principalProvider = principal.provider
        ∧ g.principalSubject = principal.subject ∧ g.participantId = participantId
        ∧ g.capability = capability ∧ g.status = "active" := by
  simp only [activeDurableGrants, List.mem_filter, decide_eq_true_eq, Table.mem_rows]

theorem mem_activeDelegatedGrants {db : Database} {principal : Principal}
    {participantId capability : String} {g : DelegatedGrant} :
    g ∈ activeDelegatedGrants db principal participantId capability
      ↔ g ∈ db.delegatedGrants ∧ g.principalProvider = principal.provider
        ∧ g.principalSubject = principal.subject ∧ g.participantId = participantId
        ∧ g.capability = capability ∧ g.status = "active" := by
  simp only [activeDelegatedGrants, List.mem_filter, decide_eq_true_eq, Table.mem_rows]

/-- The ordered query finds a grant exactly when there is one to find. -/
theorem explicitMatch_isSome {db : Database} {principal : Principal}
    {participantId capability : String} {resource : Option String} :
    (explicitMatch db principal participantId capability resource).isSome = true
      ↔ ∃ g ∈ activeDurableGrants db principal participantId capability,
          g.resource = none ∨ g.resource = resource := by
  rw [explicitMatch, Option.isSome_map, List.isSome_head?, ne_eq, ← List.isEmpty_iff,
    Bool.not_eq_true, List.isEmpty_eq_false_iff_exists_mem]
  constructor
  · rintro ⟨g, hg⟩
    rw [mem_orderBy, List.mem_filter, decide_eq_true_eq] at hg
    exact ⟨g, hg⟩
  · rintro ⟨g, hg⟩
    exact ⟨g, by rw [mem_orderBy, List.mem_filter, decide_eq_true_eq]; exact hg⟩

/-! ## Delegated grants -/

/-- A chain of refusals gives nothing exactly when none of them applies. -/
private theorem ite_some_eq_none {α : Type} {c : Prop} [Decidable c] {a : α} {rest : Option α} :
    (if c then some a else rest) = none ↔ ¬ c ∧ rest = none := by
  split
  · rename_i h; simp [h]
  · rename_i h; simp [h]

/-- A grant has no denial exactly when it covers the resource and the intent, is not consumed by
another intent, and has not expired for this one. -/
theorem delegatedDenial_eq_none {now : Int} {resource : Option String} {intentId : String}
    {g : DelegatedGrant} :
    delegatedDenial now resource intentId g = none
      ↔ (g.resource = none ∨ g.resource = resource)
        ∧ (g.intentId = none ∨ g.intentId = some intentId)
        ∧ ¬ (g.oneShot ≠ 0 ∧ g.consumedAt ≠ none ∧ g.consumedIntentId ≠ some intentId)
        ∧ ((∀ expiresAt, g.expiresAt = some expiresAt → now < expiresAt)
          ∨ g.oneShot ≠ 0 ∧ g.consumedIntentId = some intentId) := by
  have hres : (g.resource.isSome = true ∧ g.resource ≠ resource)
      ↔ ¬ (g.resource = none ∨ g.resource = resource) := by
    cases g.resource <;> simp
  have hint : g.intentId.any (fun value => decide (value ≠ intentId)) = true
      ↔ ¬ (g.intentId = none ∨ g.intentId = some intentId) := by
    cases g.intentId <;> simp
  have hexp : g.expiresAt.any (fun value => decide (value ≤ now)) = true
      ↔ ¬ ∀ expiresAt, g.expiresAt = some expiresAt → now < expiresAt := by
    cases g.expiresAt <;> simp
  have hcons : (g.oneShot ≠ 0 ∧ g.consumedAt.isSome = true ∧ g.consumedIntentId ≠ some intentId)
      ↔ g.oneShot ≠ 0 ∧ g.consumedAt ≠ none ∧ g.consumedIntentId ≠ some intentId := by
    rw [Option.isSome_iff_ne_none]
  unfold delegatedDenial
  rw [ite_some_eq_none, ite_some_eq_none, ite_some_eq_none, ite_some_eq_none, hres, hint, hcons,
    hexp, not_not, not_not]
  have hor : ∀ a b : Prop, ¬ (¬ a ∧ ¬ b) ↔ a ∨ b := fun a b => by rw [not_and_or, not_not, not_not]
  rw [hor]
  simp only [and_true]

/-- **The loop is a search.** The first grant without a denial decides; without one, the first
denial does. -/
theorem delegatedLoop_eq {now : Int} {db : Database} {participantId : String}
    {resource : Option String} {intentId : String} (gs : List DelegatedGrant)
    (firstDenial : Option AuthorizationDecision) :
    delegatedLoop now db participantId resource intentId gs firstDenial
      = match gs.find? fun g => (delegatedDenial now resource intentId g).isNone with
        | some g => some (delegatedDecision db participantId intentId g)
        | none => firstDenial.or (gs.head?.bind fun g =>
            (delegatedDenial now resource intentId g).map fun reason =>
              .deny .delegatedGrants reason (some g.id)) := by
  induction gs generalizing firstDenial with
  | nil => simp [delegatedLoop]
  | cons g gs ih =>
      cases hd : delegatedDenial now resource intentId g with
      | none => simp [delegatedLoop, hd]
      | some reason =>
          rw [delegatedLoop, hd]
          simp only [ih, List.find?_cons, hd, Option.isNone_some, List.head?_cons,
            Option.bind_some, Option.map_some]
          cases gs.find? fun g => (delegatedDenial now resource intentId g).isNone with
          | some g' => rfl
          | none => cases firstDenial <;> simp

/-- A receipt found committed. -/
theorem committedReceiptExists_iff {db : Database} {participantId intentId : String} :
    committedReceiptExists db participantId intentId = true
      ↔ ∃ r ∈ db.receipts, r.participantId = participantId ∧ r.intentId = intentId
        ∧ r.status = "committed" := by
  rw [committedReceiptExists, Option.any_eq_true]
  constructor
  · rintro ⟨r, hr, hs⟩
    have hkey : r.pair = (participantId, intentId) := Table.key_of_find hr
    rw [ExecutionReceipt.pair, Prod.mk.injEq] at hkey
    exact ⟨r, Table.mem_of_find hr, hkey.1, hkey.2, of_decide_eq_true hs⟩
  · rintro ⟨r, hr, rfl, rfl, hs⟩
    exact ⟨r, Table.find_of_mem hr, decide_eq_true hs⟩

/-- A consistent store never makes the kernel refuse a grant it has found to apply. -/
theorem delegatedDecision_allowed {db : Database} (hc : GrantsConsistent db) {now : Int}
    {resource : Option String} {intentId : String} {g : DelegatedGrant}
    (hg : g ∈ db.delegatedGrants) (hd : delegatedDenial now resource intentId g = none) :
    (delegatedDecision db g.participantId intentId g).allowed = true := by
  unfold delegatedDecision
  split
  · rename_i hused
    obtain ⟨hone, hat⟩ := hused
    rw [Option.isSome_iff_ne_none] at hat
    have hintent : g.consumedIntentId = some intentId := by
      by_contra hne
      exact (delegatedDenial_eq_none.mp hd).2.2.1 ⟨hone, hat, hne⟩
    rw [committedReceiptExists_iff.mpr (hc.committed g hg hone intentId hintent)]
    rfl
  · rfl

/-! ## The cascade -/

variable {db : Database} {now : Int} {q : AccessRequest}

theorem participantPolicyRow_eq_some {participantId : String} {row : ParticipantPolicyRow} :
    participantPolicyRow db participantId = some row
      ↔ ∃ p ∈ db.webParticipants, p.participantId = participantId
        ∧ row = ⟨p.status, p.role, p.ownerProvider, p.ownerSubject⟩ := by
  rw [participantPolicyRow, Option.map_eq_some_iff]
  constructor
  · rintro ⟨p, hp, rfl⟩
    exact ⟨p, Table.mem_of_find hp, Table.key_of_find hp, rfl⟩
  · rintro ⟨p, hp, rfl, rfl⟩
    exact ⟨p, Table.find_of_mem hp, rfl⟩

/-- The durable part of the cascade: it answers exactly when durable or implicit authority does,
and then it allows. -/
theorem durableOrImplicit_cases {row : ParticipantPolicyRow}
    (hrow : participantPolicyRow db q.participantId = some row) :
    (∃ d, durableOrImplicit db q.principal q.participantId q.capability q.resource row = some d
        ∧ d.allowed = true ∧ d.consumeGrantId = none
        ∧ (q.DurableAuthority db ∨ q.ImplicitAuthority db))
    ∨ durableOrImplicit db q.principal q.participantId q.capability q.resource row = none
        ∧ ¬ (q.DurableAuthority db ∨ q.ImplicitAuthority db) := by
  unfold durableOrImplicit
  split
  · rename_i hcount
    -- some durable grant speaks about the capability: implicit authority is out
    have himp : ¬ q.ImplicitAuthority db := by
      rintro ⟨hno, -⟩
      obtain ⟨g, hg⟩ := List.exists_mem_of_length_pos hcount
      obtain ⟨hmem, hheld⟩ := mem_activeDurableGrants.mp hg
      exact hno g hmem hheld
    have hmatch : (explicitMatch db q.principal q.participantId q.capability q.resource).isSome
        = true ↔ q.DurableAuthority db := by
      rw [explicitMatch_isSome]
      constructor
      · rintro ⟨g, hg, hr⟩
        obtain ⟨hmem, hheld⟩ := mem_activeDurableGrants.mp hg
        exact ⟨g, hmem, hheld, hr⟩
      · rintro ⟨g, hmem, hheld, hr⟩
        exact ⟨g, mem_activeDurableGrants.mpr ⟨hmem, hheld⟩, hr⟩
    cases hm : explicitMatch db q.principal q.participantId q.capability q.resource with
    | some id =>
        rw [hm] at hmatch
        exact Or.inl ⟨_, rfl, rfl, rfl, Or.inl (hmatch.mp rfl)⟩
    | none =>
        rw [hm] at hmatch
        refine Or.inr ⟨rfl, ?_⟩
        rintro (hd | hi)
        · exact absurd (hmatch.mpr hd) (by simp)
        · exact himp hi
  · rename_i hcount
    have hnone : ∀ g ∈ db.principalGrants, ¬ q.HoldsDurable g := by
      intro g hg hheld
      exact hcount (List.length_pos_of_mem (mem_activeDurableGrants.mpr ⟨hg, hheld⟩))
    have hdur : ¬ q.DurableAuthority db := by
      rintro ⟨g, hg, hheld, -⟩
      exact hnone g hg hheld
    cases hr : implicitAuthorityReason q.principal q.participantId q.capability q.resource row with
    | some reason =>
        exact Or.inl ⟨_, rfl, rfl, rfl, Or.inr ⟨hnone, row, hrow, by rw [hr]; rfl⟩⟩
    | none =>
        refine Or.inr ⟨rfl, ?_⟩
        rintro (hd | ⟨-, row', hrow', hsome⟩)
        · exact hdur hd
        · rw [hrow, Option.some.injEq] at hrow'
          rw [← hrow', hr] at hsome
          exact absurd hsome (by simp)

/-- The delegated part allows exactly when some delegated grant covers the request. -/
theorem delegatedLoop_allowed (now : Int) (q : AccessRequest) (hc : GrantsConsistent db)
    (intentId : String) :
    (∃ d, delegatedLoop now db q.participantId q.resource intentId
        (orderBy (fun a b => delegatedGrantOrder a ≤ delegatedGrantOrder b)
          (activeDelegatedGrants db q.principal q.participantId q.capability)) none = some d
        ∧ d.allowed = true)
      ↔ ∃ g ∈ db.delegatedGrants, q.HoldsDelegated g
        ∧ delegatedDenial now q.resource intentId g = none := by
  rw [delegatedLoop_eq]
  cases hf : (orderBy (fun a b => delegatedGrantOrder a ≤ delegatedGrantOrder b)
      (activeDelegatedGrants db q.principal q.participantId q.capability)).find?
      fun g => (delegatedDenial now q.resource intentId g).isNone with
  | some g =>
      have hmem := List.mem_of_find?_eq_some hf
      rw [mem_orderBy] at hmem
      obtain ⟨hg, hheld⟩ := mem_activeDelegatedGrants.mp hmem
      have hd : delegatedDenial now q.resource intentId g = none := by
        simpa using List.find?_some hf
      refine ⟨fun _ => ⟨g, hg, hheld, hd⟩, fun _ => ⟨_, rfl, ?_⟩⟩
      have := delegatedDecision_allowed hc hg hd
      rwa [hheld.2.2.1] at this
  | none =>
      rw [List.find?_eq_none] at hf
      constructor
      · rintro ⟨d, hd, hallowed⟩
        simp only [Option.none_or, Option.bind_eq_some_iff, Option.map_eq_some_iff] at hd
        obtain ⟨g, -, reason, -, rfl⟩ := hd
        exact absurd hallowed (by simp)
      · rintro ⟨g, hg, hheld, hd⟩
        have hmem := mem_activeDelegatedGrants.mpr ⟨hg, hheld⟩
        exact absurd (by simp [hd]) (hf g (mem_orderBy.mpr hmem))

/-- Without a denial a grant covers the request in the policy's words, and the other way round. -/
theorem delegatedDenial_eq_none_iff (hc : GrantsConsistent db) {intentId : String}
    {g : DelegatedGrant} (hg : g ∈ db.delegatedGrants) :
    delegatedDenial now q.resource intentId g = none
      ↔ (g.resource = none ∨ g.resource = q.resource)
        ∧ (g.intentId = none ∨ g.intentId = some intentId)
        ∧ ¬ AccessRequest.ConsumedByOther g intentId
        ∧ AccessRequest.Unexpired g intentId now := by
  rw [delegatedDenial_eq_none]
  have hcons : (g.oneShot ≠ 0 ∧ g.consumedAt ≠ none ∧ g.consumedIntentId ≠ some intentId)
      ↔ AccessRequest.ConsumedByOther g intentId := by
    constructor
    · rintro ⟨hone, hat, hne⟩
      cases hi : g.consumedIntentId with
      | none => exact absurd ((hc.paired g hg hone).mpr hi) hat
      | some consumer =>
          exact ⟨hone, consumer, hi, fun heq => hne (by rw [hi, heq])⟩
    · rintro ⟨hone, consumer, hi, hne⟩
      refine ⟨hone, fun hat => ?_, fun heq => ?_⟩
      · rw [(hc.paired g hg hone).mp hat] at hi
        exact absurd hi (by simp)
      · rw [hi, Option.some.injEq] at heq
        exact hne heq
  rw [hcons]
  exact Iff.rfl

/-- **The kernel decides the policy**, in every store whose consumption records are consistent. -/
theorem kernel_allowed_iff_permitted (q : AccessRequest) (now : Int) (db : Database)
    (hc : GrantsConsistent db) : (q.decision now db).allowed = true ↔ q.Permitted now db := by
  unfold AccessRequest.decision evaluateAuthorizationCurrentSchema
  cases hrow : participantPolicyRow db q.participantId with
  | none =>
      simp only [AuthorizationDecision.deny_allowed, Bool.false_eq_true, false_iff]
      rintro ⟨⟨p, hp, hid, -⟩, -⟩
      have := participantPolicyRow_eq_some.mpr ⟨p, hp, hid, rfl⟩
      rw [hrow] at this
      exact absurd this (by simp)
  | some row =>
      obtain ⟨p, hp, hid, hrow'⟩ := participantPolicyRow_eq_some.mp hrow
      have hactive : q.ParticipantActive db ↔ row.status = "active" := by
        constructor
        · rintro ⟨p', hp', hid', hs⟩
          rw [Table.eq_of_key hp hp' (hid.trans hid'.symm)] at hrow'
          rw [hrow']
          exact hs
        · intro hs
          rw [hrow'] at hs
          exact ⟨p, hp, hid, hs⟩
      simp only [ne_eq]
      split
      · rename_i hinactive
        simp only [AuthorizationDecision.deny_allowed, Bool.false_eq_true, false_iff]
        exact fun h => hinactive (hactive.mp h.1)
      · rename_i hstatus
        have hact : q.ParticipantActive db := hactive.mpr (not_not.mp hstatus)
        rcases durableOrImplicit_cases hrow with ⟨d, hd, hallowed, -, hauth⟩ | ⟨hnone, hauth⟩
        · rw [hd]
          exact ⟨fun _ => ⟨hact, hauth.elim Or.inl fun h => Or.inr (Or.inl h)⟩, fun _ => hallowed⟩
        · rw [hnone]
          have hdel : q.Permitted now db ↔ q.DelegatedAuthority now db := by
            constructor
            · rintro ⟨-, h | h | h⟩
              · exact absurd (Or.inl h) hauth
              · exact absurd (Or.inr h) hauth
              · exact h
            · exact fun h => ⟨hact, Or.inr (Or.inr h)⟩
          rw [hdel]
          cases hi : q.intentId with
          | none =>
              simp only [Option.bind_none]
              constructor
              · intro h
                split at h <;> exact absurd h (by simp)
              · rintro ⟨intentId, hintent, -⟩
                rw [hi] at hintent
                exact absurd hintent (by simp)
          | some intentId =>
              simp only [Option.bind_some]
              have hloop := delegatedLoop_allowed now q hc intentId
              have hpol : q.DelegatedAuthority now db
                  ↔ ∃ g ∈ db.delegatedGrants, q.HoldsDelegated g
                    ∧ delegatedDenial now q.resource intentId g = none := by
                constructor
                · rintro ⟨intentId', hintent, g, hg, hheld, hcover⟩
                  rw [hi, Option.some.injEq] at hintent
                  subst hintent
                  exact ⟨g, hg, hheld, (delegatedDenial_eq_none_iff hc hg).mpr hcover⟩
                · rintro ⟨g, hg, hheld, hd⟩
                  exact ⟨intentId, hi, g, hg, hheld, (delegatedDenial_eq_none_iff hc hg).mp hd⟩
              rw [hpol, ← hloop]
              split
              · rename_i d hd
                constructor
                · exact fun h => ⟨d, hd, h⟩
                · rintro ⟨d', hd', h⟩
                  rw [hd, Option.some.injEq] at hd'
                  rw [hd']
                  exact h
              · rename_i hd
                constructor
                · intro h
                  split at h <;> exact absurd h (by simp)
                · rintro ⟨d, hd', -⟩
                  rw [hd] at hd'
                  exact absurd hd' (by simp)

/-- A store in which Bob's one-shot grant over Alice was consumed by an intent that is committed. -/
def consumedGrantStore : Database :=
  { Database.initial with
    webParticipants := Relational.Table.empty.insertOrIgnore
      (newWebParticipant "alice" "chatgpt" none)
    delegatedGrants := Relational.Table.empty.insertOrIgnore
      ⟨1, "github", "7", "alice", postMessage, some "general", none, some 10, 1, some 5,
        some "intent-1", "active"⟩
    receipts := Relational.Table.empty.insertOrIgnore
      ⟨"alice", "intent-1", "", postMessage, 1, "committed"⟩ }

/-- Long after the grant expired, the intent that consumed it may still be retried. -/
theorem consumed_grant_permits_retry :
    (⟨⟨"github", "7"⟩, "alice", postMessage, some "general", some "intent-1"⟩
      : AccessRequest).Permitted 99 consumedGrantStore := by
  have hgrants : consumedGrantStore.delegatedGrants.rows
      = [⟨1, "github", "7", "alice", postMessage, some "general", none, some 10, 1, some 5,
          some "intent-1", "active"⟩] := by decide +kernel
  have hreceipts : consumedGrantStore.receipts.rows
      = [⟨"alice", "intent-1", "", postMessage, 1, "committed"⟩] := by decide +kernel
  refine (kernel_allowed_iff_permitted _ 99 consumedGrantStore ⟨?_, ?_⟩).mp (by decide +kernel)
  · intro g hg hone
    rw [← Table.mem_rows, hgrants, List.mem_singleton] at hg
    subst hg
    simp
  · intro g hg hone intentId hby
    rw [← Table.mem_rows, hgrants, List.mem_singleton] at hg
    subst hg
    obtain rfl := Option.some.inj hby
    refine ⟨⟨"alice", "intent-1", "", postMessage, 1, "committed"⟩, ?_, rfl, rfl, rfl⟩
    rw [← Table.mem_rows, hreceipts]
    exact List.mem_singleton_self _

/-! ## What an allowed decision stands on -/

/-- The grounds of an allowed decision, whatever the store. -/
inductive Grounds (q : AccessRequest) (now : Int) (db : Database) : AuthorizationDecision → Prop where
  /-- A durable grant that covers the resource. -/
  | durable (g : DurableGrant) (hg : g ∈ db.principalGrants) (held : q.HoldsDurable g)
      (covers : g.resource = none ∨ g.resource = q.resource) :
      Grounds q now db (.allow .principalGrants .explicitDurableGrantMatch (some g.id) none)
  /-- What the principal is, where no durable grant speaks about the capability. -/
  | implicit (row : ParticipantPolicyRow) (reason : DecisionReason)
      (hrow : participantPolicyRow db q.participantId = some row)
      (hreason : implicitAuthorityReason q.principal q.participantId q.capability q.resource row
        = some reason)
      (hnone : ∀ g ∈ db.principalGrants, ¬ q.HoldsDurable g) :
      Grounds q now db (.allow .implicitAuthority reason none none)
  /-- A one-shot grant this intent has consumed, and the receipt that says so. -/
  | replay (g : DelegatedGrant) (intentId : String) (hg : g ∈ db.delegatedGrants)
      (held : q.HoldsDelegated g) (hintent : q.intentId = some intentId)
      (hone : g.oneShot ≠ 0) (hconsumed : g.consumedAt ≠ none)
      (hby : g.consumedIntentId = some intentId)
      (hreceipt : committedReceiptExists db q.participantId intentId = true) :
      Grounds q now db (.allow .delegatedGrants .delegatedCommittedReplay (some g.id) none)
  /-- A delegated grant nobody has consumed; a one-shot grant is consumed by the commit. -/
  | delegated (g : DelegatedGrant) (intentId : String) (hg : g ∈ db.delegatedGrants)
      (held : q.HoldsDelegated g) (hintent : q.intentId = some intentId)
      (hcovers : delegatedDenial now q.resource intentId g = none)
      (hfresh : g.oneShot ≠ 0 → g.consumedAt = none) :
      Grounds q now db (.allow .delegatedGrants .delegatedGrantMatch (some g.id)
        (if g.oneShot ≠ 0 then some g.id else none))

theorem explicitMatch_eq_some {principal : Principal} {participantId capability : String}
    {resource : Option String} {id : Int}
    (h : explicitMatch db principal participantId capability resource = some id) :
    ∃ g ∈ activeDurableGrants db principal participantId capability,
      (g.resource = none ∨ g.resource = resource) ∧ g.id = id := by
  rw [explicitMatch, Option.map_eq_some_iff] at h
  obtain ⟨g, hg, rfl⟩ := h
  have hmem := List.mem_of_head? hg
  rw [mem_orderBy, List.mem_filter, decide_eq_true_eq] at hmem
  exact ⟨g, hmem.1, hmem.2, rfl⟩

/-- What the kernel answers on a delegated grant it has found to apply. -/
theorem delegatedDecision_cases (db : Database) (participantId intentId : String)
    (g : DelegatedGrant) :
    (g.oneShot ≠ 0 ∧ g.consumedAt ≠ none
      ∧ committedReceiptExists db participantId intentId = true
      ∧ delegatedDecision db participantId intentId g
        = .allow .delegatedGrants .delegatedCommittedReplay (some g.id) none)
    ∨ (g.oneShot ≠ 0 ∧ g.consumedAt ≠ none
      ∧ committedReceiptExists db participantId intentId = false
      ∧ delegatedDecision db participantId intentId g
        = .deny .delegatedGrants .delegatedConsumedWithoutCommittedReceipt (some g.id))
    ∨ ((g.oneShot ≠ 0 → g.consumedAt = none)
      ∧ delegatedDecision db participantId intentId g
        = .allow .delegatedGrants .delegatedGrantMatch (some g.id)
          (if g.oneShot ≠ 0 then some g.id else none)) := by
  unfold delegatedDecision
  split
  · rename_i hused
    rw [Option.isSome_iff_ne_none] at hused
    cases hr : committedReceiptExists db participantId intentId with
    | true => exact Or.inl ⟨hused.1, hused.2, rfl, rfl⟩
    | false => exact Or.inr (Or.inl ⟨hused.1, hused.2, rfl, rfl⟩)
  · rename_i hused
    refine Or.inr (Or.inr ⟨fun hone => ?_, rfl⟩)
    by_contra hat
    exact hused ⟨hone, Option.isSome_iff_ne_none.mpr hat⟩

/-- The loop's own denials are never the missing receipt. -/
theorem delegatedDenial_ne_missing_receipt {resource : Option String} {intentId : String}
    {g : DelegatedGrant} {reason : DecisionReason}
    (h : delegatedDenial now resource intentId g = some reason) :
    reason ≠ .delegatedConsumedWithoutCommittedReceipt := by
  rintro rfl
  unfold delegatedDenial at h
  split_ifs at h <;> exact absurd h (by simp)

/-- Nor are the reasons of implicit authority. -/
theorem implicitAuthorityReason_ne_missing_receipt {principal : Principal}
    {participantId capability : String} {resource : Option String} {row : ParticipantPolicyRow}
    {reason : DecisionReason}
    (h : implicitAuthorityReason principal participantId capability resource row = some reason) :
    reason ≠ .delegatedConsumedWithoutCommittedReceipt := by
  rintro rfl
  unfold implicitAuthorityReason at h
  dsimp only at h
  split at h
  · split at h
    · rename_i only reason hlookup
      obtain ⟨l₁, l₂, hl, -⟩ := List.lookup_eq_some_iff.mp hlookup
      have hmem : (capability, only, reason) ∈ humanWebAdminCapabilities := by
        rw [hl]
        exact List.mem_append_right _ List.mem_cons_self
      have hne : ∀ entry ∈ humanWebAdminCapabilities,
          entry.2.2 ≠ DecisionReason.delegatedConsumedWithoutCommittedReceipt := by decide
      split at h
      · exact hne _ hmem (Option.some.inj h)
      · exact absurd h (by simp)
    · split_ifs at h <;> exact absurd h (by simp)
  · split_ifs at h
    exact absurd h (by simp)

/-- The cascade past the participant row: the durable part answers, or a delegated grant does, or
nobody allows. -/
theorem decision_cases (q : AccessRequest) (now : Int) (db : Database) :
    (q.decision now db).allowed = false
        ∧ (q.decision now db).reason ≠ .delegatedConsumedWithoutCommittedReceipt
    ∨ q.ParticipantActive db ∧ Grounds q now db (q.decision now db)
    ∨ ∃ g ∈ db.delegatedGrants, ∃ intentId, q.intentId = some intentId ∧ q.HoldsDelegated g
        ∧ g.oneShot ≠ 0 ∧ g.consumedAt ≠ none ∧ g.consumedIntentId = some intentId
        ∧ committedReceiptExists db q.participantId intentId = false
        ∧ (q.decision now db).allowed = false := by
  unfold AccessRequest.decision evaluateAuthorizationCurrentSchema
  cases hrow : participantPolicyRow db q.participantId with
  | none => exact Or.inl ⟨rfl, by simp [AuthorizationDecision.deny]⟩
  | some row =>
      obtain ⟨p, hp, hid, hrow'⟩ := participantPolicyRow_eq_some.mp hrow
      simp only
      split
      · exact Or.inl ⟨rfl, by simp [AuthorizationDecision.deny]⟩
      · rename_i hstatus
        have hact : q.ParticipantActive db := by
          refine ⟨p, hp, hid, ?_⟩
          rw [hrow'] at hstatus
          exact not_not.mp hstatus
        cases hdur : durableOrImplicit db q.principal q.participantId q.capability q.resource
            row with
        | some d =>
            simp only
            refine Or.inr (Or.inl ⟨hact, ?_⟩)
            unfold durableOrImplicit at hdur
            split at hdur
            · rw [Option.map_eq_some_iff] at hdur
              obtain ⟨id, hm, rfl⟩ := hdur
              obtain ⟨g, hg, hcov, rfl⟩ := explicitMatch_eq_some hm
              obtain ⟨hmem, hheld⟩ := mem_activeDurableGrants.mp hg
              exact .durable g hmem hheld hcov
            · rename_i hcount
              rw [Option.map_eq_some_iff] at hdur
              obtain ⟨reason, hreason, rfl⟩ := hdur
              refine .implicit row reason hrow hreason fun g hg hheld => hcount ?_
              exact List.length_pos_of_mem (mem_activeDurableGrants.mpr ⟨hg, hheld⟩)
        | none =>
            have hlast : ∀ c : Prop, ∀ _ : Decidable c,
                (if c then AuthorizationDecision.deny .principalGrants
                    .explicitResourceScopeMismatch none
                  else .deny .policy .noMatchingAuthority none).allowed = false
                ∧ (if c then AuthorizationDecision.deny .principalGrants
                    .explicitResourceScopeMismatch none
                  else .deny .policy .noMatchingAuthority none).reason
                    ≠ .delegatedConsumedWithoutCommittedReceipt := by
              intro c _
              split <;> exact ⟨rfl, by simp [AuthorizationDecision.deny]⟩
            simp only
            cases hi : q.intentId with
            | none => exact Or.inl (hlast _ _)
            | some intentId =>
                simp only [Option.bind_some, delegatedLoop_eq]
                cases hf : (orderBy (fun a b => delegatedGrantOrder a ≤ delegatedGrantOrder b)
                    (activeDelegatedGrants db q.principal q.participantId q.capability)).find?
                    fun g => (delegatedDenial now q.resource intentId g).isNone with
                | some g =>
                    have hmem := List.mem_of_find?_eq_some hf
                    rw [mem_orderBy] at hmem
                    obtain ⟨hg, hheld⟩ := mem_activeDelegatedGrants.mp hmem
                    have hd : delegatedDenial now q.resource intentId g = none := by
                      simpa using List.find?_some hf
                    have hby : g.oneShot ≠ 0 → g.consumedAt ≠ none →
                        g.consumedIntentId = some intentId := by
                      intro hone hat
                      by_contra hne
                      exact (delegatedDenial_eq_none.mp hd).2.2.1 ⟨hone, hat, hne⟩
                    rcases delegatedDecision_cases db q.participantId intentId g with
                      ⟨hone, hat, hr, heq⟩ | ⟨hone, hat, hr, heq⟩ | ⟨hfresh, heq⟩
                    · simp only [heq]
                      exact Or.inr (Or.inl ⟨hact,
                        .replay g intentId hg hheld hi hone hat (hby hone hat) hr⟩)
                    · simp only [heq]
                      exact Or.inr (Or.inr ⟨g, hg, intentId, rfl, hheld, hone, hat, hby hone hat,
                        hr, rfl⟩)
                    · simp only [heq]
                      exact Or.inr (Or.inl ⟨hact, .delegated g intentId hg hheld hi hd hfresh⟩)
                | none =>
                    simp only [Option.none_or]
                    split
                    · rename_i d hd
                      rw [Option.bind_eq_some_iff] at hd
                      obtain ⟨g, -, hd⟩ := hd
                      rw [Option.map_eq_some_iff] at hd
                      obtain ⟨reason, hreason, rfl⟩ := hd
                      refine Or.inl ⟨rfl, ?_⟩
                      have hne := delegatedDenial_ne_missing_receipt hreason
                      simpa [AuthorizationDecision.deny] using hne
                    · exact Or.inl (hlast _ _)

/-- An allowed decision has an active participant and grounds. -/
theorem grounds_of_allowed (h : (q.decision now db).allowed = true) :
    q.ParticipantActive db ∧ Grounds q now db (q.decision now db) := by
  rcases decision_cases q now db with ⟨hno, -⟩ | hyes | ⟨g, -, intentId, -, -, -, -, -, -, hno⟩
  · rw [hno] at h; exact absurd h (by simp)
  · exact hyes
  · rw [hno] at h; exact absurd h (by simp)

/-- The grant a decision asks to consume is the one-shot grant it stands on. -/
theorem grant_of_consumeGrantId {id : Int}
    (h : (q.decision now db).allowed = true) (hc : (q.decision now db).consumeGrantId = some id) :
    ∃ g ∈ db.delegatedGrants, g.id = id ∧ q.HoldsDelegated g
      ∧ (q.decision now db).source = .delegatedGrants
      ∧ (q.decision now db).grantId = some g.id := by
  obtain ⟨-, hg⟩ := grounds_of_allowed h
  generalize hd : q.decision now db = d at hg hc ⊢
  cases hg with
  | durable g hg held covers => exact absurd hc (by simp [AuthorizationDecision.allow])
  | replay g intentId hg held => exact absurd hc (by simp [AuthorizationDecision.allow])
  | implicit row reason hrow hreason hnone =>
      exact absurd hc (by simp [AuthorizationDecision.allow])
  | delegated g intentId hg held hintent hcovers hfresh =>
      refine ⟨g, hg, ?_, held, rfl, rfl⟩
      simp only [AuthorizationDecision.allow] at hc
      split at hc
      · exact Option.some.inj hc
      · exact absurd hc (by simp)

/-- The grant a decision asks to consume is not bound to another intent. -/
theorem bound_of_consumeGrantId {id : Int}
    (h : (q.decision now db).allowed = true) (hc : (q.decision now db).consumeGrantId = some id) :
    ∃ g ∈ db.delegatedGrants, g.id = id ∧ (g.intentId = none ∨ g.intentId = q.intentId) := by
  obtain ⟨-, hg⟩ := grounds_of_allowed h
  generalize q.decision now db = d at hg hc
  cases hg with
  | durable g hg held covers => exact absurd hc (by simp [AuthorizationDecision.allow])
  | replay g intentId hg held => exact absurd hc (by simp [AuthorizationDecision.allow])
  | implicit row reason hrow hreason hnone =>
      exact absurd hc (by simp [AuthorizationDecision.allow])
  | delegated g intentId hg held hintent hcovers hfresh =>
      simp only [AuthorizationDecision.allow] at hc
      split at hc
      · rw [hintent]
        exact ⟨g, hg, Option.some.inj hc, (delegatedDenial_eq_none.mp hcovers).2.1⟩
      · exact absurd hc (by simp)

/-- An allowed decision that stands on delegated grants stands on one the principal holds: one this
intent has consumed, with the receipt to show for it, or an unconsumed one it will consume. -/
theorem grant_of_delegated (intentId : String)
    (hintent : q.intentId = some intentId) (h : (q.decision now db).allowed = true)
    (hs : (q.decision now db).source = .delegatedGrants) :
    ∃ g ∈ db.delegatedGrants, q.HoldsDelegated g ∧ (q.decision now db).grantId = some g.id
      ∧ (committedReceiptExists db q.participantId intentId = true
        ∨ (q.decision now db).consumeGrantId = if g.oneShot ≠ 0 then some g.id else none) := by
  obtain ⟨-, hg⟩ := grounds_of_allowed h
  generalize hd : q.decision now db = d at hg hs ⊢
  cases hg with
  | durable g hg held covers => exact absurd hs (by simp [AuthorizationDecision.allow])
  | implicit row reason hrow hreason hnone =>
      exact absurd hs (by simp [AuthorizationDecision.allow])
  | replay g intentId' hg held hintent' hone hconsumed hby hreceipt =>
      rw [hintent, Option.some.injEq] at hintent'
      subst hintent'
      exact ⟨g, hg, held, rfl, Or.inl hreceipt⟩
  | delegated g intentId' hg held hintent' hcovers hfresh =>
      exact ⟨g, hg, held, rfl, Or.inr rfl⟩

end Blackboard
