import Blackboard.Model.PolicyAudit
import Blackboard.Proof.Kernel
import Mathlib.Data.Prod.Lex
import Mathlib.Data.String.Basic
import Mathlib.Order.WithBot

/-!
# The policy audit is exact

The audit pushes its findings one by one; each is pushed under one condition, so the list is
empty exactly when none of the conditions holds (`CleanPolicy`).

Its order is no accident either: it compares the store, the grant, the kind and the detail
of a finding, and what it does not compare, the participant, is that of the grant. So neither
the order of the rows nor that of the map of scopes shows in the report.
-/

namespace Blackboard

open Relational (Table orderBy mem_orderBy orderBy_eq_nil orderBy_perm)

/-! ## A policy with nothing to find -/

/-- A text the audit has nothing to say about. -/
def WellFormed (value : String) : Prop :=
  Text.isBlank value = false ∧ Text.anyControl value = false

/-- What every grant has to be. -/
structure CleanGrant (db : Database) (provider subject participantId capability : String)
    (resource : Option String) (status : String) : Prop where
  providerText : WellFormed provider
  subjectText : WellFormed subject
  participantText : WellFormed participantId
  capabilityText : WellFormed capability
  resourceText : ∀ value, resource = some value → WellFormed value
  participant : ∃ p ∈ db.webParticipants, p.participantId = participantId
  known : isKnownCapability capability = true
  legal : status = "active" ∨ status = "inactive"

/-- What the consumption of a delegated grant has to be. -/
structure CleanConsumption (db : Database) (g : DelegatedGrant) : Prop where
  paired : g.consumedAt = none ↔ g.consumedIntentId = none
  /-- Only a one-shot grant is consumed. -/
  oneShot : g.oneShot = 0 → g.consumedAt = none ∧ g.consumedIntentId = none
  bound : ∀ bound consumed, g.intentId = some bound → g.consumedIntentId = some consumed →
    consumed = bound
  receipt : ∀ consumed, g.oneShot = 1 → g.consumedAt ≠ none → g.consumedIntentId = some consumed →
    ∃ r ∈ db.receipts, r.participantId = g.participantId ∧ r.intentId = consumed
      ∧ r.status = "committed"

structure CleanDelegated (db : Database) (g : DelegatedGrant) : Prop where
  grant : CleanGrant db g.principalProvider g.principalSubject g.participantId g.capability
    g.resource g.status
  intentId : ∀ intentId, g.intentId = some intentId → WellFormed intentId
  flag : g.oneShot = 0 ∨ g.oneShot = 1
  consumption : CleanConsumption db g

/-- **A policy the audit has nothing to say about.** -/
structure CleanPolicy (db : Database) : Prop where
  durable : ∀ g ∈ db.principalGrants, CleanGrant db g.principalProvider g.principalSubject
    g.participantId g.capability g.resource g.status
  /-- No two durable grants share a scope; no resource is a resource of its own. -/
  unshared : ∀ g ∈ db.principalGrants, ∀ g' ∈ db.principalGrants,
    durableScopeKey g = durableScopeKey g' → g = g'
  delegated : ∀ g ∈ db.delegatedGrants, CleanDelegated db g

/-! ## One finding, one condition -/

theorem auditRequiredText_eq_nil_iff {store participantId kind value : String} {id : Int} :
    auditRequiredText store id participantId kind value = [] ↔ WellFormed value := by
  unfold auditRequiredText WellFormed
  rw [pushViolation_eq_nil, not_or, Bool.not_eq_true, Bool.not_eq_true]

theorem auditOptionalText_eq_nil_iff {store participantId kind : String} {id : Int}
    {value : Option String} :
    auditOptionalText store id participantId kind value = []
      ↔ ∀ text, value = some text → WellFormed text := by
  cases value with
  | none =>
      constructor
      · intro _ text h
        exact absurd h (by simp)
      · intro _
        rfl
  | some value =>
      dsimp only [auditOptionalText]
      rw [auditRequiredText_eq_nil_iff]
      constructor
      · intro h text htext
        rw [← Option.some.inj htext]
        exact h
      · intro h
        exact h value rfl

theorem auditGrant_eq_nil_iff {db : Database} {store provider subject participantId capability : String}
    {id : Int} {resource : Option String} {status : String}
    {texts : List AuthorizationIntegrityViolation} :
    auditGrant db store id provider subject participantId capability resource status texts = []
      ↔ CleanGrant db provider subject participantId capability resource status ∧ texts = [] := by
  unfold auditGrant
  simp only [List.append_eq_nil_iff, auditRequiredText_eq_nil_iff, auditOptionalText_eq_nil_iff,
    pushViolation_eq_nil]
  have hparticipant : ¬ (db.webParticipants.find participantId).isNone = true
      ↔ ∃ p ∈ db.webParticipants, p.participantId = participantId := by
    rw [Option.isNone_iff_eq_none, Table.find_eq_none_iff]
    push Not
    exact Iff.rfl
  rw [hparticipant, Bool.not_eq_false, not_not]
  constructor
  · rintro ⟨⟨⟨⟨⟨⟨⟨⟨hprovider, hsubject⟩, hid⟩, hcapability⟩, hresource⟩, htexts⟩, hp⟩, hknown⟩,
      hstatus⟩
    exact ⟨⟨hprovider, hsubject, hid, hcapability, hresource, hp, hknown, hstatus⟩, htexts⟩
  · rintro ⟨h, htexts⟩
    exact ⟨⟨⟨⟨⟨⟨⟨⟨h.providerText, h.subjectText⟩, h.participantText⟩, h.capabilityText⟩,
      h.resourceText⟩, htexts⟩, h.participant⟩, h.known⟩, h.legal⟩

theorem auditConsumption_eq_nil_iff {db : Database} {g : DelegatedGrant} :
    auditConsumption db g = [] ↔ CleanConsumption db g := by
  unfold auditConsumption
  simp only [List.append_eq_nil_iff, pushViolation_eq_nil]
  have hpaired : ¬ g.consumedAt.isSome ≠ g.consumedIntentId.isSome
      ↔ (g.consumedAt = none ↔ g.consumedIntentId = none) := by
    cases g.consumedAt <;> cases g.consumedIntentId <;> simp
  have hone : ¬ (g.oneShot = 0 ∧ (g.consumedAt.isSome ∨ g.consumedIntentId.isSome))
      ↔ (g.oneShot = 0 → g.consumedAt = none ∧ g.consumedIntentId = none) := by
    cases g.consumedAt <;> cases g.consumedIntentId <;> simp
  refine @Iff.trans _ ((((g.consumedAt = none ↔ g.consumedIntentId = none)
      ∧ (g.oneShot = 0 → g.consumedAt = none ∧ g.consumedIntentId = none))
      ∧ ∀ bound consumed, g.intentId = some bound → g.consumedIntentId = some consumed →
        consumed = bound)
      ∧ ∀ consumed, g.oneShot = 1 → g.consumedAt ≠ none → g.consumedIntentId = some consumed →
        ∃ r ∈ db.receipts, r.participantId = g.participantId ∧ r.intentId = consumed
          ∧ r.status = "committed") _ ?_ ?_
  · refine and_congr (and_congr (and_congr hpaired hone) ?_) ?_
    · split
      · rename_i bound consumed hbound hconsumed
        rw [pushViolation_eq_nil, not_not, hbound, hconsumed]
        constructor
        · rintro rfl b c hb hc
          exact (Option.some.inj hc).symm.trans (Option.some.inj hb)
        · intro h
          exact (h bound consumed rfl rfl).symm
      · rename_i hnone
        refine ⟨fun _ bound consumed hb hc => absurd hc (hnone bound consumed hb), fun _ => rfl⟩
    · split
      · rename_i consumed hconsumed
        rw [pushViolation_eq_nil, hconsumed]
        constructor
        · intro h c hone hat hc
          rw [← committedReceiptExists_iff, ← Option.some.inj hc]
          by_contra hno
          exact h ⟨hone, Option.isSome_iff_ne_none.mpr hat, by simpa using hno⟩
        · rintro h ⟨hone, hat, hno⟩
          have hfound := committedReceiptExists_iff.mpr
            (h consumed hone (Option.isSome_iff_ne_none.mp hat) rfl)
          rw [hno] at hfound
          exact Bool.noConfusion hfound
      · rename_i hnone
        refine ⟨fun _ consumed _ _ hc => absurd (hnone.symm.trans hc) (by simp), fun _ => rfl⟩
  · constructor
    · rintro ⟨⟨⟨h1, h2⟩, h3⟩, h4⟩
      exact ⟨h1, h2, h3, h4⟩
    · intro h
      exact ⟨⟨⟨h.paired, h.oneShot⟩, h.bound⟩, h.receipt⟩

theorem auditDurableGrant_eq_nil_iff {db : Database} {g : DurableGrant} :
    auditDurableGrant db g = [] ↔ CleanGrant db g.principalProvider g.principalSubject
      g.participantId g.capability g.resource g.status := by
  unfold auditDurableGrant
  rw [auditGrant_eq_nil_iff]
  exact and_iff_left rfl

theorem auditDelegatedGrant_eq_nil_iff {db : Database} {g : DelegatedGrant} :
    auditDelegatedGrant db g = [] ↔ CleanDelegated db g := by
  unfold auditDelegatedGrant
  rw [List.append_eq_nil_iff, List.append_eq_nil_iff, auditGrant_eq_nil_iff,
    auditOptionalText_eq_nil_iff, pushViolation_eq_nil, not_not, auditConsumption_eq_nil_iff]
  constructor
  · rintro ⟨⟨⟨hgrant, hintent⟩, hflag⟩, hconsumption⟩
    exact ⟨hgrant, hintent, hflag, hconsumption⟩
  · intro h
    exact ⟨⟨⟨h.grant, h.intentId⟩, h.flag⟩, h.consumption⟩

/-! ## The map of scopes -/

section Scopes

variable {db : Database} {scopes : List (DurableScopeKey × List Int)}

/-- The durable grants in the order in which the audit reads them. -/
def durableRowsById (db : Database) : List DurableGrant :=
  orderBy (fun a b : DurableGrant => a.id ≤ b.id) db.principalGrants.rows

theorem mem_durableRowsById {g : DurableGrant} :
    g ∈ durableRowsById db ↔ g ∈ db.principalGrants := by
  rw [durableRowsById, mem_orderBy]
  exact Table.mem_rows

theorem nodup_durableRowsById : (durableRowsById db).Nodup :=
  (List.perm_insertionSort _ _).nodup_iff.mpr (List.Nodup.of_map _ db.principalGrants.nodup)

theorem auditScopeEntry_eq_nil_iff {entry : DurableScopeKey × List Int} :
    auditScopeEntry entry = [] ↔ entry.2.length ≤ 1 := by
  obtain ⟨key, ids⟩ := entry
  dsimp only [auditScopeEntry]
  by_cases h : ids.length > 1
  · rw [if_pos h]
    exact iff_of_false (by simp) (by omega)
  · rw [if_neg h]
    exact iff_of_true rfl (by omega)

/-- No entry of the map holds two grants as long as no two share a scope. -/
theorem scopes_eq_nil_iff (hscopes : scopes.Perm (durableScopes db)) :
    scopes.flatMap auditScopeEntry = [] ↔
      ∀ g ∈ db.principalGrants, ∀ g' ∈ db.principalGrants,
        durableScopeKey g = durableScopeKey g' → g = g' := by
  rw [List.flatMap_eq_nil_iff]
  constructor
  · intro h g hg g' hg' hkey
    have hentry := (Grouping.mem_collect_iff durableScopeKey DurableGrant.id (durableRowsById db)
      (durableScopeKey g) _).mpr ⟨⟨g, mem_durableRowsById.mpr hg, rfl⟩, rfl⟩
    have hlength := auditScopeEntry_eq_nil_iff.mp (h _ (hscopes.mem_iff.mpr hentry))
    rw [Grouping.valuesOf, List.length_map] at hlength
    have hmem : g ∈ (durableRowsById db).filter fun r =>
        decide (durableScopeKey r = durableScopeKey g) :=
      List.mem_filter.mpr ⟨mem_durableRowsById.mpr hg, by simp⟩
    have hmem' : g' ∈ (durableRowsById db).filter fun r =>
        decide (durableScopeKey r = durableScopeKey g) :=
      List.mem_filter.mpr ⟨mem_durableRowsById.mpr hg', by simp [hkey]⟩
    -- a list with one member at most
    cases hrows : (durableRowsById db).filter fun r =>
        decide (durableScopeKey r = durableScopeKey g) with
    | nil =>
        rw [hrows] at hmem
        exact absurd hmem List.not_mem_nil
    | cons r rest =>
        rw [hrows] at hmem hmem' hlength
        have hrest : rest = [] := by
          rw [List.length_cons] at hlength
          exact List.length_eq_zero_iff.mp (by omega)
        rw [hrest, List.mem_singleton] at hmem hmem'
        rw [hmem, hmem']
  · intro h entry hentry
    obtain ⟨key, ids⟩ := entry
    obtain ⟨-, hids⟩ := (Grouping.mem_collect_iff durableScopeKey DurableGrant.id
      (durableRowsById db) key ids).mp (hscopes.mem_iff.mp hentry)
    rw [auditScopeEntry_eq_nil_iff]
    dsimp only
    rw [hids, Grouping.valuesOf, List.length_map]
    by_contra hlong
    have hnodup := (@nodup_durableRowsById db).filter fun r =>
      decide (durableScopeKey r = key)
    have hmem : ∀ r ∈ (durableRowsById db).filter fun r => decide (durableScopeKey r = key),
        r ∈ db.principalGrants ∧ durableScopeKey r = key := by
      intro r hr
      obtain ⟨hrow, hkey⟩ := List.mem_filter.mp hr
      exact ⟨mem_durableRowsById.mp hrow, of_decide_eq_true hkey⟩
    -- two different grants under one key
    cases hrows : (durableRowsById db).filter fun r => decide (durableScopeKey r = key) with
    | nil => rw [hrows] at hlong; exact hlong (by simp)
    | cons a rest =>
        cases rest with
        | nil => rw [hrows] at hlong; exact hlong (by simp)
        | cons b rest =>
            rw [hrows] at hnodup hmem
            obtain ⟨ha, hakey⟩ := hmem a (by simp)
            obtain ⟨hb, hbkey⟩ := hmem b (by simp)
            have hsame := h a ha b hb (hakey.trans hbkey.symm)
            rw [hsame] at hnodup
            exact (List.nodup_cons.mp hnodup).1 (by simp)

/-- **The audit finds nothing exactly in a clean policy.** -/
theorem auditAuthorizationIntegrityIn_valid_iff (hscopes : scopes.Perm (durableScopes db)) :
    (auditAuthorizationIntegrityIn scopes db).valid = true ↔ CleanPolicy db := by
  unfold auditAuthorizationIntegrityIn
  simp only [List.isEmpty_iff, orderBy_eq_nil, List.append_eq_nil_iff]
  rw [scopes_eq_nil_iff hscopes, List.flatMap_eq_nil_iff, List.flatMap_eq_nil_iff]
  simp only [mem_orderBy, Table.mem_rows, auditDurableGrant_eq_nil_iff,
    auditDelegatedGrant_eq_nil_iff]
  constructor
  · rintro ⟨⟨hdurable, hunshared⟩, hdelegated⟩
    exact ⟨hdurable, hunshared, hdelegated⟩
  · intro h
    exact ⟨⟨h.durable, h.unshared⟩, h.delegated⟩

end Scopes

/-! ## What a finding is about -/

/-- A finding about a grant: it names the grant and its participant. -/
structure About (store : String) (id : Int) (participantId : String)
    (v : AuthorizationIntegrityViolation) : Prop where
  store : v.store = store
  grantId : v.grantId = some id
  participantId : v.participantId = some participantId

theorem about_pushViolation {found : Prop} [Decidable found]
    {kind store participantId detail : String} {id : Int} {v : AuthorizationIntegrityViolation}
    (h : v ∈ pushViolation found kind store id participantId detail) :
    About store id participantId v := by
  unfold pushViolation at h
  by_cases hfound : found
  · rw [if_pos hfound, List.mem_singleton] at h
    rw [h]
    exact ⟨rfl, rfl, rfl⟩
  · rw [if_neg hfound] at h
    exact absurd h List.not_mem_nil

theorem about_auditOptionalText {store participantId kind : String} {id : Int}
    {value : Option String} {v : AuthorizationIntegrityViolation}
    (h : v ∈ auditOptionalText store id participantId kind value) :
    About store id participantId v := by
  cases value with
  | none => exact absurd h List.not_mem_nil
  | some text => exact about_pushViolation h

theorem about_auditGrant {db : Database} {store provider subject participantId capability : String}
    {id : Int} {resource : Option String} {status : String}
    {texts : List AuthorizationIntegrityViolation}
    (htexts : ∀ v ∈ texts, About store id participantId v) {v : AuthorizationIntegrityViolation}
    (h : v ∈ auditGrant db store id provider subject participantId capability resource status
      texts) : About store id participantId v := by
  unfold auditGrant at h
  simp only [List.mem_append] at h
  rcases h with (((((((h | h) | h) | h) | h) | h) | h) | h) | h
  · exact about_pushViolation h
  · exact about_pushViolation h
  · exact about_pushViolation h
  · exact about_pushViolation h
  · exact about_auditOptionalText h
  · exact htexts v h
  · exact about_pushViolation h
  · exact about_pushViolation h
  · exact about_pushViolation h

theorem about_auditDurableGrant {db : Database} {g : DurableGrant}
    {v : AuthorizationIntegrityViolation} (h : v ∈ auditDurableGrant db g) :
    About "principal_grants" g.id g.participantId v :=
  about_auditGrant (fun _ hv => absurd hv List.not_mem_nil) h

theorem about_auditConsumption {db : Database} {g : DelegatedGrant}
    {v : AuthorizationIntegrityViolation} (h : v ∈ auditConsumption db g) :
    About "delegated_grants" g.id g.participantId v := by
  unfold auditConsumption at h
  simp only [List.mem_append] at h
  rcases h with ((h | h) | h) | h
  · exact about_pushViolation h
  · exact about_pushViolation h
  · split at h
    · exact about_pushViolation h
    · exact absurd h List.not_mem_nil
  · split at h
    · exact about_pushViolation h
    · exact absurd h List.not_mem_nil

theorem about_auditDelegatedGrant {db : Database} {g : DelegatedGrant}
    {v : AuthorizationIntegrityViolation} (h : v ∈ auditDelegatedGrant db g) :
    About "delegated_grants" g.id g.participantId v := by
  unfold auditDelegatedGrant at h
  simp only [List.mem_append] at h
  rcases h with (h | h) | h
  · exact about_auditGrant (fun _ hv => about_auditOptionalText hv) h
  · exact about_pushViolation h
  · exact about_auditConsumption h

/-- A shared scope is reported under the first of its grants. -/
theorem about_auditScopeEntry {db : Database} {entry : DurableScopeKey × List Int}
    (hentry : entry ∈ durableScopes db) {v : AuthorizationIntegrityViolation}
    (h : v ∈ auditScopeEntry entry) :
    ∃ g ∈ db.principalGrants, About "principal_grants" g.id g.participantId v := by
  obtain ⟨key, ids⟩ := entry
  obtain ⟨-, hids⟩ := (Grouping.mem_collect_iff durableScopeKey DurableGrant.id
    (durableRowsById db) key ids).mp hentry
  dsimp only [auditScopeEntry] at h
  by_cases hlong : ids.length > 1
  · rw [if_pos hlong, List.mem_singleton] at h
    cases hrows : (durableRowsById db).filter fun r => decide (durableScopeKey r = key) with
    | nil =>
        rw [Grouping.valuesOf, hrows] at hids
        rw [hids] at hlong
        exact absurd hlong (by simp)
    | cons g rest =>
        have hmem : g ∈ (durableRowsById db).filter fun r => decide (durableScopeKey r = key) := by
          rw [hrows]
          exact List.mem_cons_self
        obtain ⟨hg, hkey⟩ := List.mem_filter.mp hmem
        rw [Grouping.valuesOf, hrows] at hids
        refine ⟨g, mem_durableRowsById.mp hg, ?_⟩
        rw [h, hids, ← of_decide_eq_true hkey]
        exact ⟨rfl, rfl, rfl⟩
  · rw [if_neg hlong] at h
    exact absurd h List.not_mem_nil

/-! ## The order of the report -/

/-- `Option::cmp` is the order with `none` at the bottom. -/
def grantIdKey (id : Option Int) : WithBot Int := id

theorem grantIdLt_iff (a b : Option Int) : grantIdLt a b ↔ grantIdKey a < grantIdKey b := by
  cases a with
  | none =>
      cases b with
      | none => exact iff_of_false id (lt_irrefl (⊥ : WithBot Int))
      | some b => exact iff_of_true trivial (WithBot.bot_lt_coe b)
  | some a =>
      cases b with
      | none => exact iff_of_false id not_lt_bot
      | some b => exact WithBot.coe_lt_coe.symm

/-- What the audit sorts its findings by. -/
def violationKey (v : AuthorizationIntegrityViolation) :
    String ×ₗ WithBot Int ×ₗ String ×ₗ String :=
  toLex (v.store, toLex (grantIdKey v.grantId, toLex (v.kind, v.detail)))

theorem violationLe_iff (a b : AuthorizationIntegrityViolation) :
    violationLe a b ↔ violationKey a ≤ violationKey b := by
  rw [violationKey, violationKey, Prod.Lex.le_iff]
  simp only [ofLex_toLex, Prod.Lex.le_iff, violationLe, grantIdLt_iff, not_lt]
  exact Iff.rfl

/-- The delegated grants in the order in which the audit reads them. -/
def delegatedRowsById (db : Database) : List DelegatedGrant :=
  orderBy (fun a b : DelegatedGrant => a.id ≤ b.id) db.delegatedGrants.rows

/-- The findings before they are sorted. -/
def findings (scopes : List (DurableScopeKey × List Int)) (db : Database) :
    List AuthorizationIntegrityViolation :=
  (durableRowsById db).flatMap (auditDurableGrant db) ++ scopes.flatMap auditScopeEntry
    ++ (delegatedRowsById db).flatMap (auditDelegatedGrant db)

section Order

variable {db db' : Database} {scopes scopes' : List (DurableScopeKey × List Int)}

theorem about_of_mem_findings (hscopes : scopes.Perm (durableScopes db))
    {v : AuthorizationIntegrityViolation} (h : v ∈ findings scopes db) :
    (∃ g ∈ db.principalGrants, About "principal_grants" g.id g.participantId v)
      ∨ ∃ g ∈ db.delegatedGrants, About "delegated_grants" g.id g.participantId v := by
  rw [findings, List.mem_append, List.mem_append] at h
  rcases h with (h | h) | h
  · obtain ⟨g, hg, hv⟩ := List.mem_flatMap.mp h
    exact Or.inl ⟨g, mem_durableRowsById.mp hg, about_auditDurableGrant hv⟩
  · obtain ⟨entry, hentry, hv⟩ := List.mem_flatMap.mp h
    exact Or.inl (about_auditScopeEntry (hscopes.mem_iff.mp hentry) hv)
  · obtain ⟨g, hg, hv⟩ := List.mem_flatMap.mp h
    exact Or.inr ⟨g, Table.mem_rows.mp (mem_orderBy.mp hg), about_auditDelegatedGrant hv⟩

/-- Two findings the order takes for one are one: a grant has one participant. -/
theorem finding_eq_of_key (hscopes : scopes.Perm (durableScopes db))
    {a b : AuthorizationIntegrityViolation} (ha : a ∈ findings scopes db)
    (hb : b ∈ findings scopes db) (hkey : violationKey a = violationKey b) : a = b := by
  obtain ⟨hstore, h⟩ := Prod.mk.inj (congrArg ofLex hkey)
  obtain ⟨hgrant, h⟩ := Prod.mk.inj (congrArg ofLex h)
  obtain ⟨hkind, hdetail⟩ := Prod.mk.inj (congrArg ofLex h)
  have hgrant' : a.grantId = b.grantId := hgrant
  have hparticipant : a.participantId = b.participantId := by
    rcases about_of_mem_findings hscopes ha with ⟨g, hg, hag⟩ | ⟨g, hg, hag⟩
    · rcases about_of_mem_findings hscopes hb with ⟨g', hg', hbg⟩ | ⟨g', hg', hbg⟩
      · have hid : g.id = g'.id :=
          Option.some.inj (hag.grantId.symm.trans (hgrant'.trans hbg.grantId))
        rw [hag.participantId, hbg.participantId, Table.eq_of_key hg hg' hid]
      · -- the two tables are two stores
        have hno := hag.store.symm.trans (hstore.trans hbg.store)
        exact absurd hno (by decide)
    · rcases about_of_mem_findings hscopes hb with ⟨g', hg', hbg⟩ | ⟨g', hg', hbg⟩
      · have hno := hag.store.symm.trans (hstore.trans hbg.store)
        exact absurd hno (by decide)
      · have hid : g.id = g'.id :=
          Option.some.inj (hag.grantId.symm.trans (hgrant'.trans hbg.grantId))
        rw [hag.participantId, hbg.participantId, Table.eq_of_key hg hg' hid]
  obtain ⟨kind, store, grantId, participantId, detail⟩ := a
  obtain ⟨kind', store', grantId', participantId', detail'⟩ := b
  dsimp only at *
  rw [hstore, hgrant', hkind, hdetail, hparticipant]

/-- The same rows in the tables the audit reads, perhaps stored in another order. -/
structure SamePolicy (db db' : Database) : Prop where
  durable : ∀ g, g ∈ db.principalGrants ↔ g ∈ db'.principalGrants
  delegated : ∀ g, g ∈ db.delegatedGrants ↔ g ∈ db'.delegatedGrants
  participants : ∀ p, p ∈ db.webParticipants ↔ p ∈ db'.webParticipants
  receipts : ∀ r, r ∈ db.receipts ↔ r ∈ db'.receipts

theorem SamePolicy.refl (db : Database) : SamePolicy db db :=
  ⟨fun _ => Iff.rfl, fun _ => Iff.rfl, fun _ => Iff.rfl, fun _ => Iff.rfl⟩

theorem SamePolicy.durableRowsById (h : SamePolicy db db') :
    durableRowsById db = durableRowsById db' :=
  orderBy_perm (fun _ _ => Iff.rfl)
    (fun _ ha _ hb hkey => Table.eq_of_key (Table.mem_rows.mp ha) (Table.mem_rows.mp hb) hkey)
    (Relational.rows_perm h.durable)

theorem SamePolicy.delegatedRowsById (h : SamePolicy db db') :
    delegatedRowsById db = delegatedRowsById db' :=
  orderBy_perm (fun _ _ => Iff.rfl)
    (fun _ ha _ hb hkey => Table.eq_of_key (Table.mem_rows.mp ha) (Table.mem_rows.mp hb) hkey)
    (Relational.rows_perm h.delegated)

theorem SamePolicy.auditDurableGrant (h : SamePolicy db db') (g : DurableGrant) :
    auditDurableGrant db g = auditDurableGrant db' g := by
  rw [Blackboard.auditDurableGrant, Blackboard.auditDurableGrant, auditGrant, auditGrant,
    Relational.find_congr h.participants]

theorem SamePolicy.auditDelegatedGrant (h : SamePolicy db db') (g : DelegatedGrant) :
    auditDelegatedGrant db g = auditDelegatedGrant db' g := by
  have hreceipts : ∀ consumed, committedReceiptExists db g.participantId consumed
      = committedReceiptExists db' g.participantId consumed := by
    intro consumed
    rw [committedReceiptExists, committedReceiptExists, Relational.find_congr h.receipts]
  have hconsumption : auditConsumption db g = auditConsumption db' g := by
    simp only [auditConsumption, hreceipts]
  rw [Blackboard.auditDelegatedGrant, Blackboard.auditDelegatedGrant, hconsumption, auditGrant,
    auditGrant, Relational.find_congr h.participants]

/-- The findings are the same, in some order. -/
theorem SamePolicy.findings (h : SamePolicy db db') (hscopes : scopes.Perm (durableScopes db))
    (hscopes' : scopes'.Perm (durableScopes db')) :
    (findings scopes db).Perm (findings scopes' db') := by
  have hmap : durableScopes db = durableScopes db' := by
    have hrows := h.durableRowsById
    rw [Blackboard.durableRowsById, Blackboard.durableRowsById] at hrows
    rw [durableScopes, durableScopes, hrows]
  have hperm : scopes.Perm scopes' := by
    rw [hmap] at hscopes
    exact hscopes.trans hscopes'.symm
  rw [Blackboard.findings, Blackboard.findings, h.durableRowsById, h.delegatedRowsById,
    funext h.auditDurableGrant, funext h.auditDelegatedGrant]
  exact ((hperm.flatMap_right auditScopeEntry).append_left _).append_right _

/-- **Neither order shows in the report**: not that of the rows, not that of the map. -/
theorem auditAuthorizationIntegrityIn_congr (h : SamePolicy db db')
    (hscopes : scopes.Perm (durableScopes db)) (hscopes' : scopes'.Perm (durableScopes db')) :
    auditAuthorizationIntegrityIn scopes db = auditAuthorizationIntegrityIn scopes' db' := by
  have hsorted : orderBy violationLe (findings scopes db)
      = orderBy violationLe (findings scopes' db') :=
    orderBy_perm violationLe_iff (fun a ha b hb => finding_eq_of_key hscopes ha hb)
      (h.findings hscopes hscopes')
  have hdurable := congrArg List.length h.durableRowsById
  have hdelegated := congrArg List.length h.delegatedRowsById
  rw [Blackboard.findings, Blackboard.findings] at hsorted
  rw [Blackboard.durableRowsById, Blackboard.durableRowsById] at hsorted hdurable
  rw [Blackboard.delegatedRowsById, Blackboard.delegatedRowsById] at hsorted hdelegated
  unfold auditAuthorizationIntegrityIn
  dsimp only
  rw [hsorted, hdurable, hdelegated]

end Order

/-! ## The order in which the keys come up -/

/-- The entries of the map in the order in which their keys come up. -/
def scopesInOrder (db : Database) : List (DurableScopeKey × List Int) :=
  ((durableRowsById db).map durableScopeKey).dedup.map fun key =>
    (key, Grouping.valuesOf durableScopeKey DurableGrant.id (durableRowsById db) key)

theorem scopesInOrder_perm (db : Database) : (scopesInOrder db).Perm (durableScopes db) := by
  have hnodup : (scopesInOrder db).Nodup := by
    refine List.Nodup.map ?_ (List.nodup_dedup _)
    intro a b hab
    exact (Prod.mk.inj hab).1
  have hnodup' : (durableScopes db).Nodup :=
    List.Nodup.of_map _ (Grouping.nodup_keys_collect durableScopeKey DurableGrant.id
      (durableRowsById db))
  rw [List.perm_ext_iff_of_nodup hnodup hnodup']
  rintro ⟨key, ids⟩
  have hmem := Grouping.mem_collect_iff durableScopeKey DurableGrant.id (durableRowsById db) key ids
  rw [durableScopes]
  refine Iff.trans ?_ hmem.symm
  rw [scopesInOrder, List.mem_map]
  constructor
  · rintro ⟨k, hk, heq⟩
    obtain ⟨rfl, rfl⟩ := Prod.mk.inj heq
    exact ⟨List.mem_map.mp (List.mem_dedup.mp hk), rfl⟩
  · rintro ⟨hrow, rfl⟩
    exact ⟨key, List.mem_dedup.mpr (List.mem_map.mpr hrow), rfl⟩

theorem auditAuthorizationIntegrity_eq (db : Database) :
    auditAuthorizationIntegrity db = auditAuthorizationIntegrityIn (scopesInOrder db) db := by
  unfold auditAuthorizationIntegrity auditAuthorizationIntegrityIn scopesInOrder
  simp only [List.flatMap_map]
  rfl

theorem auditAuthorizationIntegrity_valid_iff {db : Database} :
    (auditAuthorizationIntegrity db).valid = true ↔ CleanPolicy db := by
  rw [auditAuthorizationIntegrity_eq]
  exact auditAuthorizationIntegrityIn_valid_iff (scopesInOrder_perm db)

/-- **The audit is exact, and its report is that of the policy alone**: it says valid for a clean
policy and for no other, and neither the order of the rows nor that of the map of scopes
changes it. -/
theorem policy_audit_exact (db : Database) :
    ((auditAuthorizationIntegrity db).valid = true ↔ CleanPolicy db)
      ∧ ∀ db' scopes, SamePolicy db db' → scopes.Perm (durableScopes db') →
        auditAuthorizationIntegrityIn scopes db' = auditAuthorizationIntegrity db := by
  refine ⟨auditAuthorizationIntegrity_valid_iff, fun db' scopes hsame hscopes => ?_⟩
  rw [auditAuthorizationIntegrity_eq db]
  exact (auditAuthorizationIntegrityIn_congr hsame (scopesInOrder_perm db) hscopes).symm

end Blackboard
