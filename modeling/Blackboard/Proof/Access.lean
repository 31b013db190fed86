import Blackboard.Model.Access
import Blackboard.Proof.Kernel

/-!
# The list of effective grants is exact

Without an intent the kernel knows durable and implicit authority only
(`allowed_without_intent`), and implicit authority is for every resource or for one: the
one `implicitResource` names. So the listing has to ask about one resource for each
capability, and an entry with no resource stands for all of them.
-/

namespace Blackboard

open Relational (mem_orderBy Table)

/-! ## Without an intent -/

/-- **Without an intent** delegated grants do not count. -/
theorem allowed_without_intent {db : Database} {now : Int} {q : AccessRequest}
    (hintent : q.intentId = none) :
    (q.decision now db).allowed = true
      ↔ q.ParticipantActive db ∧ (q.DurableAuthority db ∨ q.ImplicitAuthority db) := by
  constructor
  · intro h
    obtain ⟨hactive, hgrounds⟩ := grounds_of_allowed h
    refine ⟨hactive, ?_⟩
    generalize q.decision now db = d at hgrounds
    cases hgrounds with
    | durable g hg held covers => exact Or.inl ⟨g, hg, held, covers⟩
    | implicit row reason hrow hreason hnone =>
        exact Or.inr ⟨hnone, row, hrow, by rw [hreason]; rfl⟩
    | replay g intentId hg held hsome =>
        rw [hintent] at hsome
        exact absurd hsome (by simp)
    | delegated g intentId hg held hsome =>
        rw [hintent] at hsome
        exact absurd hsome (by simp)
  · intro ⟨⟨p, hp, hid, hstatus⟩, hauth⟩
    have hrow := participantPolicyRow_eq_some.mpr ⟨p, hp, hid, rfl⟩
    unfold AccessRequest.decision evaluateAuthorizationCurrentSchema
    rw [hrow]
    dsimp only
    rw [if_neg (not_not.mpr hstatus)]
    rcases durableOrImplicit_cases hrow with ⟨d, hd, hallowed, -, -⟩ | ⟨-, hno⟩
    · rw [hd]
      exact hallowed
    · exact absurd hauth hno

/-! ## Implicit authority and its resources -/

/-- The listing's table of resources is the kernel's. -/
theorem implicitResource_eq_lookup {capability : String} (h : capability ∈ knownCapabilities) :
    implicitResource capability
      = (humanWebAdminCapabilities.lookup capability).map fun entry => entry.1 := by
  have hall : ∀ c ∈ knownCapabilities, implicitResource c
      = (humanWebAdminCapabilities.lookup c).map fun entry => entry.1 := by decide +kernel
  exact hall capability h

theorem not_own_of_lookup {capability : String}
    (h : humanWebAdminCapabilities.lookup capability ≠ none) :
    ownCapabilities.contains capability = false := by
  have hall : ∀ entry ∈ humanWebAdminCapabilities, ownCapabilities.contains entry.1 = false := by
    decide +kernel
  obtain ⟨entry, hentry⟩ := Option.ne_none_iff_exists'.mp h
  obtain ⟨l₁, l₂, hl, -⟩ := List.lookup_eq_some_iff.mp hentry
  have hmem : (capability, entry) ∈ humanWebAdminCapabilities := by
    rw [hl]
    exact List.mem_append_right _ List.mem_cons_self
  exact hall _ hmem

section Implicit

variable {principal : Principal} {participantId capability : String} {row : ParticipantPolicyRow}

/-- A capability outside the kernel's table is for every resource. -/
theorem implicitAuthorityReason_of_lookup_none
    (h : humanWebAdminCapabilities.lookup capability = none) (resource resource' : Option String) :
    implicitAuthorityReason principal participantId capability resource row
      = implicitAuthorityReason principal participantId capability resource' row := by
  unfold implicitAuthorityReason
  rw [h]

/-- A capability in the table is for its resource. -/
theorem resource_of_implicit {resource : Option String} {only : String} {reason : DecisionReason}
    (hlookup : humanWebAdminCapabilities.lookup capability = some (only, reason))
    (h : (implicitAuthorityReason principal participantId capability resource row).isSome) :
    resource = some only := by
  have hown := not_own_of_lookup (by rw [hlookup]; simp : humanWebAdminCapabilities.lookup
    capability ≠ none)
  unfold implicitAuthorityReason at h
  rw [hlookup, hown] at h
  dsimp only at h
  split at h
  · split at h
    · rename_i hadmin
      exact hadmin.2
    · exact absurd h (by simp)
  · exact absurd h (by simp)

/-- **One question is enough**: a principal has implicit authority on a resource exactly when it has
it on the resource the listing asks about, and that one covers the resource. -/
theorem implicit_iff_listed (hknown : capability ∈ knownCapabilities) (resource : Option String) :
    (implicitAuthorityReason principal participantId capability resource row).isSome = true
      ↔ (implicitAuthorityReason principal participantId capability (implicitResource capability)
            row).isSome = true
        ∧ (implicitResource capability = none ∨ implicitResource capability = resource) := by
  have heq := implicitResource_eq_lookup hknown
  cases hlookup : humanWebAdminCapabilities.lookup capability with
  | none =>
      rw [hlookup, Option.map_none] at heq
      rw [implicitAuthorityReason_of_lookup_none hlookup resource (implicitResource capability), heq]
      simp
  | some entry =>
      obtain ⟨only, reason⟩ := entry
      rw [hlookup, Option.map_some] at heq
      rw [heq]
      constructor
      · intro h
        have hresource := resource_of_implicit hlookup h
        rw [hresource] at h
        exact ⟨h, Or.inr hresource.symm⟩
      · intro ⟨h, hcovers⟩
        rcases hcovers with hnone | hsome
        · exact absurd hnone (by simp)
        · rw [← hsome]
          exact h

end Implicit

/-! ## The entries -/

section Entries

variable {now : Int} {db : Database} {principal : Principal} {participantId : String}
  {e : EffectiveGrant}

theorem mem_explicitGrants :
    e ∈ explicitGrants db principal participantId
      ↔ e.origin = "explicit" ∧ ∃ g ∈ db.principalGrants,
        (⟨principal, participantId, e.capability, e.resource, none⟩ : AccessRequest).HoldsDurable g
          ∧ g.resource = e.resource := by
  unfold explicitGrants AccessRequest.HoldsDurable
  rw [mem_orderBy, List.mem_map]
  constructor
  · intro ⟨g, hg, he⟩
    rw [List.mem_filter, decide_eq_true_eq] at hg
    obtain ⟨hmem, hprovider, hsubject, hparticipant, hstatus⟩ := hg
    rw [← he]
    exact ⟨rfl, g, hmem, ⟨hprovider, hsubject, hparticipant, rfl, hstatus⟩, rfl⟩
  · intro ⟨horigin, g, hmem, ⟨hprovider, hsubject, hparticipant, hcapability, hstatus⟩, hresource⟩
    refine ⟨g, ?_, ?_⟩
    · rw [List.mem_filter, decide_eq_true_eq]
      exact ⟨hmem, hprovider, hsubject, hparticipant, hstatus⟩
    · obtain ⟨capability, resource, origin⟩ := e
      rw [EffectiveGrant.mk.injEq]
      exact ⟨hcapability, hresource, horigin.symm⟩

/-- The listing passes a capability over exactly when some durable grant speaks about it. -/
theorem any_explicitGrants {capability : String} {resource : Option String} :
    ((explicitGrants db principal participantId).any fun grant =>
        decide (grant.capability = capability)) = false
      ↔ ∀ g ∈ db.principalGrants,
        ¬ (⟨principal, participantId, capability, resource, none⟩ : AccessRequest).HoldsDurable g := by
  rw [List.any_eq_false]
  constructor
  · intro h g hg hheld
    have hmem : (⟨capability, g.resource, "explicit"⟩ : EffectiveGrant)
        ∈ explicitGrants db principal participantId :=
      mem_explicitGrants.mpr ⟨rfl, g, hg, hheld, rfl⟩
    exact h _ hmem (decide_eq_true rfl)
  · intro h e he hcapability
    obtain ⟨-, g, hg, hheld, -⟩ := mem_explicitGrants.mp he
    rw [of_decide_eq_true hcapability] at hheld
    exact h g hg hheld

theorem mem_implicitGrants :
    e ∈ implicitGrants now db principal participantId (explicitGrants db principal participantId)
      ↔ e = ⟨e.capability, implicitResource e.capability, "implicit"⟩
        ∧ e.capability ∈ knownCapabilities
        ∧ (∀ g ∈ db.principalGrants, ¬ (⟨principal, participantId, e.capability,
            implicitResource e.capability, none⟩ : AccessRequest).HoldsDurable g)
        ∧ ((⟨principal, participantId, e.capability, implicitResource e.capability, none⟩
            : AccessRequest).decision now db).allowed = true := by
  unfold implicitGrants
  rw [List.mem_filterMap]
  constructor
  · intro ⟨capability, hknown, he⟩
    split at he
    · exact absurd he (by simp)
    · rename_i hfree
      split at he
      · rename_i hallowed
        obtain rfl := Option.some.inj he
        exact ⟨rfl, hknown, any_explicitGrants.mp (Bool.not_eq_true _ ▸ hfree), hallowed⟩
      · exact absurd he (by simp)
  · intro ⟨he, hknown, hfree, hallowed⟩
    refine ⟨e.capability, hknown, ?_⟩
    rw [if_neg (by rw [any_explicitGrants.mpr hfree]; simp)]
    exact (if_pos hallowed).trans (congrArg some he.symm)

theorem mem_effectiveGrants :
    e ∈ effectiveGrants now db principal participantId
      ↔ (∃ p ∈ db.webParticipants, p.participantId = participantId ∧ p.status = "active")
        ∧ (e ∈ explicitGrants db principal participantId
          ∨ e ∈ implicitGrants now db principal participantId
              (explicitGrants db principal participantId)) := by
  unfold effectiveGrants
  cases hrow : participantPolicyRow db participantId with
  | none =>
      refine iff_of_false List.not_mem_nil ?_
      intro ⟨⟨p, hp, hid, _⟩, _⟩
      rw [participantPolicyRow_eq_some.mpr ⟨p, hp, hid, rfl⟩] at hrow
      exact absurd hrow (by simp)
  | some row =>
      obtain ⟨p, hp, hid, rfl⟩ := participantPolicyRow_eq_some.mp hrow
      dsimp only
      by_cases hactive : p.status = "active"
      · rw [if_neg (not_not.mpr hactive), mem_orderBy, List.mem_append]
        exact ⟨fun h => ⟨⟨p, hp, hid, hactive⟩, h⟩, fun h => h.2⟩
      · rw [if_pos hactive]
        refine iff_of_false List.not_mem_nil ?_
        intro ⟨⟨p', hp', hid', hactive'⟩, _⟩
        obtain rfl : p' = p := Table.eq_of_key hp' hp (hid'.trans hid.symm)
        exact hactive hactive'

end Entries

/-! ## The listing and the kernel -/

/-- **The listing is exact**: without an intent the kernel allows a known capability on a resource
exactly when the list has an entry for the capability that covers the resource. -/
theorem effectiveGrants_exact (now : Int) (db : Database) (principal : Principal)
    (participantId capability : String) (resource : Option String)
    (hknown : capability ∈ knownCapabilities) :
    (evaluateAuthorizationCurrentSchema now db principal participantId capability resource
        none).allowed = true
      ↔ ∃ e ∈ effectiveGrants now db principal participantId,
        e.capability = capability ∧ (e.resource = none ∨ e.resource = resource) := by
  let q : AccessRequest := ⟨principal, participantId, capability, resource, none⟩
  let listed : AccessRequest :=
    ⟨principal, participantId, capability, implicitResource capability, none⟩
  have hq : (q.decision now db).allowed = true ↔ _ := allowed_without_intent rfl
  have hlisted : (listed.decision now db).allowed = true ↔ _ := allowed_without_intent rfl
  refine Iff.trans hq ?_
  constructor
  · intro ⟨hactive, hauth⟩
    rcases hauth with ⟨g, hg, hheld, hcovers⟩ | ⟨hfree, row, hrow, hreason⟩
    · refine ⟨⟨g.capability, g.resource, "explicit"⟩, mem_effectiveGrants.mpr ⟨hactive, Or.inl ?_⟩,
        hheld.2.2.2.1, hcovers⟩
      obtain ⟨hprovider, hsubject, hparticipant, -, hstatus⟩ := hheld
      exact mem_explicitGrants.mpr
        ⟨rfl, g, hg, ⟨hprovider, hsubject, hparticipant, rfl, hstatus⟩, rfl⟩
    · obtain ⟨hreason', hcovers⟩ := (implicit_iff_listed hknown resource).mp hreason
      refine ⟨⟨capability, implicitResource capability, "implicit"⟩,
        mem_effectiveGrants.mpr ⟨hactive, Or.inr (mem_implicitGrants.mpr ?_)⟩, rfl, hcovers⟩
      exact ⟨rfl, hknown, hfree, hlisted.mpr ⟨hactive, Or.inr ⟨hfree, row, hrow, hreason'⟩⟩⟩
  · intro ⟨e, he, hcapability, hcovers⟩
    obtain ⟨hactive, hexplicit | himplicit⟩ := mem_effectiveGrants.mp he
    · obtain ⟨-, g, hg, hheld, hresource⟩ := mem_explicitGrants.mp hexplicit
      rw [hcapability] at hheld
      rw [← hresource] at hcovers
      exact ⟨hactive, Or.inl ⟨g, hg, hheld, hcovers⟩⟩
    · obtain ⟨hentry, -, hfree, hallowed⟩ := mem_implicitGrants.mp himplicit
      rw [hentry] at hcovers
      rw [hcapability] at hfree hallowed hcovers
      obtain ⟨-, hauth⟩ := hlisted.mp hallowed
      rcases hauth with ⟨g, hg, hheld, -⟩ | ⟨-, row, hrow, hreason⟩
      · exact absurd hheld (hfree g hg)
      · refine ⟨hactive, Or.inr ⟨hfree, row, hrow, ?_⟩⟩
        exact (implicit_iff_listed hknown resource).mpr ⟨hreason, hcovers⟩

/-- A store in which Alice is an administrator. -/
def administratorStore : Database :=
  { Database.initial with
    webParticipants := Table.empty.insertOrIgnore
      { newWebParticipant "alice" "chatgpt" none with role := "admin" } }

/-- What her browser session may explain, the list says. -/
theorem effectiveGrants_exact_of_administrator :
    (evaluateAuthorizationCurrentSchema 0 administratorStore ⟨"human-web", "alice"⟩ "alice"
        readAuthorizationDecision (some authorizationDecisionResource) none).allowed = true
      ↔ ∃ e ∈ effectiveGrants 0 administratorStore ⟨"human-web", "alice"⟩ "alice",
        e.capability = readAuthorizationDecision
          ∧ (e.resource = none ∨ e.resource = some authorizationDecisionResource) :=
  effectiveGrants_exact 0 administratorStore ⟨"human-web", "alice"⟩ "alice"
    readAuthorizationDecision (some authorizationDecisionResource) (by decide +kernel)

end Blackboard
