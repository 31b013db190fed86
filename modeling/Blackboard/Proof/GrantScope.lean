import Blackboard.Proof.Access
import Blackboard.Proof.GrantEffect

/-!
# Durable grants act on their own scope

The kernel reads the durable grants in two ways: does an active one speak about the
capability, and does one cover the resource. Both come down to the resources the active
grants of a principal, participant and capability are for (`granted`), so an operation
that leaves these alone leaves every decision alone (`allowed_congr`).

A creation adds one active grant to a scope that has none, or finds one there; a
deactivation leaves none in its scope. Outside the scope the active grants are the same,
and one after the other they are the same everywhere.
-/

namespace Blackboard

open Relational (Table TxEnd transaction)

/-! ## What the kernel reads of the durable grants -/

/-- The resources a request's principal has active durable grants on, for its participant and
capability. -/
def AccessRequest.granted (q : AccessRequest) (db : Database) : Set (Option String) :=
  { resource | ∃ g ∈ db.principalGrants, q.HoldsDurable g ∧ g.resource = resource }

/-- Two stores that differ in nothing the kernel reads but the durable grants. -/
structure SameButDurable (db db' : Database) : Prop where
  participants : db'.webParticipants = db.webParticipants
  delegated : db'.delegatedGrants = db.delegatedGrants
  receipts : db'.receipts = db.receipts

section Congruence

variable {db db' : Database} {q : AccessRequest}

theorem durableAuthority_iff : q.DurableAuthority db ↔ none ∈ q.granted db
    ∨ q.resource ∈ q.granted db := by
  constructor
  · intro ⟨g, hg, hheld, hcovers⟩
    rcases hcovers with hnone | hsome
    · exact Or.inl ⟨g, hg, hheld, hnone⟩
    · exact Or.inr ⟨g, hg, hheld, hsome⟩
  · intro h
    rcases h with ⟨g, hg, hheld, hresource⟩ | ⟨g, hg, hheld, hresource⟩
    · exact ⟨g, hg, hheld, Or.inl hresource⟩
    · exact ⟨g, hg, hheld, Or.inr hresource⟩

theorem implicitAuthority_iff : q.ImplicitAuthority db ↔ q.granted db = ∅
    ∧ ∃ row, participantPolicyRow db q.participantId = some row
      ∧ (implicitAuthorityReason q.principal q.participantId q.capability q.resource row).isSome := by
  have hnone : (∀ g ∈ db.principalGrants, ¬ q.HoldsDurable g) ↔ q.granted db = ∅ := by
    rw [Set.eq_empty_iff_forall_notMem]
    constructor
    · intro h resource ⟨g, hg, hheld, _⟩
      exact h g hg hheld
    · intro h g hg hheld
      exact h g.resource ⟨g, hg, hheld, rfl⟩
  unfold AccessRequest.ImplicitAuthority
  rw [hnone]

/-- The delegated part of the cascade reads delegated grants and receipts. -/
theorem delegatedLoop_congr (h : SameButDurable db db') {now : Int} {participantId : String}
    {resource : Option String} {intentId : String} (gs : List DelegatedGrant)
    (firstDenial : Option AuthorizationDecision) :
    delegatedLoop now db' participantId resource intentId gs firstDenial
      = delegatedLoop now db participantId resource intentId gs firstDenial := by
  rw [delegatedLoop_eq, delegatedLoop_eq]
  unfold delegatedDecision committedReceiptExists
  rw [h.receipts]

/-- **The kernel's answer depends on the durable grants through `granted` alone.** -/
theorem allowed_congr {now : Int} (h : SameButDurable db db') (hq : q.granted db' = q.granted db) :
    (q.decision now db').allowed = (q.decision now db).allowed := by
  have hrow : participantPolicyRow db' q.participantId = participantPolicyRow db q.participantId := by
    unfold participantPolicyRow
    rw [h.participants]
  have hauth : q.DurableAuthority db' ∨ q.ImplicitAuthority db'
      ↔ q.DurableAuthority db ∨ q.ImplicitAuthority db := by
    rw [durableAuthority_iff, durableAuthority_iff, implicitAuthority_iff, implicitAuthority_iff, hq,
      hrow]
  unfold AccessRequest.decision evaluateAuthorizationCurrentSchema
  rw [hrow]
  cases hp : participantPolicyRow db q.participantId with
  | none => rfl
  | some row =>
      dsimp only
      by_cases hactive : row.status = "active"
      · rw [if_neg (not_not.mpr hactive), if_neg (not_not.mpr hactive)]
        rcases durableOrImplicit_cases hp with ⟨d, hd, hallowed, -, hyes⟩ | ⟨hnone, hno⟩
        · rcases durableOrImplicit_cases (hrow.trans hp) with
            ⟨d', hd', hallowed', -, -⟩ | ⟨-, hno'⟩
          · rw [hd, hd']
            exact hallowed'.trans hallowed.symm
          · exact absurd (hauth.mpr hyes) hno'
        · rcases durableOrImplicit_cases (hrow.trans hp) with
            ⟨d', hd', -, -, hyes'⟩ | ⟨hnone', -⟩
          · exact absurd (hauth.mp hyes') hno
          · -- neither answers: the delegated part does, and it is the same
            rw [hnone, hnone']
            dsimp only
            unfold activeDelegatedGrants
            rw [h.delegated]
            have hloop : (fun intentId => delegatedLoop now db' q.participantId q.resource intentId
                  (Relational.orderBy (fun a b => delegatedGrantOrder a ≤ delegatedGrantOrder b)
                    (activeDelegatedGrants db q.principal q.participantId q.capability)) none)
                = fun intentId => delegatedLoop now db q.participantId q.resource intentId
                  (Relational.orderBy (fun a b => delegatedGrantOrder a ≤ delegatedGrantOrder b)
                    (activeDelegatedGrants db q.principal q.participantId q.capability)) none :=
              funext fun intentId => delegatedLoop_congr h _ none
            unfold activeDelegatedGrants at hloop
            rw [hloop]
            split
            · rfl
            · split <;> split <;> rfl
      · rw [if_pos hactive, if_pos hactive]

end Congruence

/-! ## Active grants of a scope -/

/-- A row of `principal_grants` the kernel counts. -/
def ActiveDurable (db : Database) (g : DurableGrant) : Prop :=
  g ∈ db.principalGrants ∧ g.status = "active"

/-- The request is about the principal, participant and capability of the scope. -/
def AccessRequest.InScope (q : AccessRequest) (s : GrantScope) : Prop :=
  q.principal.provider = s.principalProvider ∧ q.principal.subject = s.principalSubject
    ∧ q.participantId = s.participantId ∧ q.capability = s.capability

theorem AccessRequest.InScope.of_held {q : AccessRequest} {g : DurableGrant}
    (h : q.HoldsDurable g) : q.InScope g.scope := by
  obtain ⟨hprovider, hsubject, hparticipant, hcapability, -⟩ := h
  exact ⟨hprovider.symm, hsubject.symm, hparticipant.symm, hcapability.symm⟩

/-- Outside the scope the active grants are the same. -/
structure EditsScope (s : GrantScope) (db db' : Database) : Prop where
  same : SameButDurable db db'
  outside : ∀ g, g.scope ≠ s → (ActiveDurable db' g ↔ ActiveDurable db g)

section Scope

variable {db db' db'' : Database} {s : GrantScope} {q : AccessRequest}

theorem EditsScope.refl (s : GrantScope) (db : Database) : EditsScope s db db :=
  ⟨⟨rfl, rfl, rfl⟩, fun _ _ => Iff.rfl⟩

theorem SameButDurable.trans (h : SameButDurable db db') (h' : SameButDurable db' db'') :
    SameButDurable db db'' :=
  ⟨h'.participants.trans h.participants, h'.delegated.trans h.delegated,
    h'.receipts.trans h.receipts⟩

theorem granted_congr (h : ∀ g, q.HoldsDurable g → (ActiveDurable db' g ↔ ActiveDurable db g)) :
    q.granted db' = q.granted db := by
  ext resource
  constructor
  · intro ⟨g, hg, hheld, hresource⟩
    exact ⟨g, ((h g hheld).mp ⟨hg, hheld.2.2.2.2⟩).1, hheld, hresource⟩
  · intro ⟨g, hg, hheld, hresource⟩
    exact ⟨g, ((h g hheld).mpr ⟨hg, hheld.2.2.2.2⟩).1, hheld, hresource⟩

/-- **Locality**: requests outside the scope are answered as before. -/
theorem EditsScope.allowed (h : EditsScope s db db') (hq : ¬ q.InScope s) (now : Int) :
    (q.decision now db').allowed = (q.decision now db).allowed := by
  refine allowed_congr h.same (granted_congr fun g hheld => h.outside g ?_)
  intro hscope
  exact hq (hscope ▸ AccessRequest.InScope.of_held hheld)

/-- **Reversal**: a scope that had no active grant before and has none afterwards is answered as
before too. -/
theorem EditsScope.restored (h : EditsScope s db db') (h' : EditsScope s db' db'')
    (hbefore : ∀ g, ActiveDurable db g → g.scope ≠ s)
    (hafter : ∀ g, ActiveDurable db'' g → g.scope ≠ s) (now : Int) :
    (q.decision now db'').allowed = (q.decision now db).allowed := by
  refine allowed_congr (h.same.trans h'.same) (granted_congr fun g _ => ?_)
  by_cases hscope : g.scope = s
  · exact iff_of_false (fun hg => hafter g hg hscope) fun hg => hbefore g hg hscope
  · exact (h'.outside g hscope).trans (h.outside g hscope)

end Scope

/-! ## The transactions -/

section Transactions

variable {now : Int} {actor : NormalizedActor} {db db' : Database}

theorem active_of_requireActiveParticipant {participantId : String} {u : Unit}
    (h : requireActiveParticipant db participantId = .ok u) :
    ∃ p ∈ db.webParticipants, p.participantId = participantId ∧ p.status = "active" := by
  unfold requireActiveParticipant at h
  cases hp : db.webParticipants.find participantId with
  | none =>
      rw [hp] at h
      exact absurd h (by simp)
  | some row =>
      rw [hp] at h
      dsimp only at h
      split at h
      · rename_i hstatus
        exact ⟨row, Table.mem_of_find hp, Table.key_of_find hp, hstatus⟩
      · exact absurd h (by simp)

/-- What a creation does, whether it adds a grant, reactivates one or finds one. -/
structure DurableCreated (request : DurableGrantCreateRequest) (outcome : DurableGrantCreateOutcome)
    (db db' : Database) : Prop where
  edits : EditsScope (durableScope request) db db'
  participant : ∃ p ∈ db.webParticipants, p.participantId = request.participantId
    ∧ p.status = "active"
  active : ∃ g, ActiveDurable db' g ∧ g.scope = durableScope request ∧ g.id = outcome.id
  fresh : outcome.state ≠ .existing → ∀ g, ActiveDurable db g → g.scope ≠ durableScope request
  positive : (∀ g ∈ db.principalGrants, 0 < g.id) → 0 < outcome.id

/-- What a deactivation of a grant does. -/
structure DurableDeactivated (g : DurableGrant) (db db' : Database) : Prop where
  mem : g ∈ db.principalGrants
  edits : EditsScope g.scope db db'
  inactive : ∀ g', ActiveDurable db' g' → g'.scope ≠ g.scope

theorem createDurableGrantInTx_spec {request : DurableGrantCreateRequest}
    {ending : TxEnd Database DurableGrantCreateOutcome}
    (h : createDurableGrantInTx now actor request db = .ok ending) :
    ∃ outcome db', ending = .commit outcome db' ∧ DurableCreated request outcome db db' := by
  unfold createDurableGrantInTx at h
  obtain ⟨_, hrequired, h⟩ := Except.of_bind_eq_ok h
  have hparticipant := active_of_requireActiveParticipant hrequired
  dsimp only at h
  split at h
  · -- an active grant of the scope is there
    rename_i g hfind
    obtain rfl := Except.ok.inj h
    obtain ⟨hmem, hscope⟩ := mem_durableGrantsOfScope.mp (List.mem_of_find?_eq_some hfind)
    have hstatus : g.status = "active" := by simpa using List.find?_some hfind
    exact ⟨_, _, rfl, .refl _ db, hparticipant, ⟨g, ⟨hmem, hstatus⟩, hscope, rfl⟩,
      fun hne => absurd rfl hne, fun hids => hids g hmem⟩
  · rename_i hnone
    have hfresh : ∀ g, ActiveDurable db g → g.scope ≠ durableScope request := by
      intro g ⟨hg, hstatus⟩ hscope
      have hno := List.find?_eq_none.mp hnone g (mem_durableGrantsOfScope.mpr ⟨hg, hscope⟩)
      exact hno (decide_eq_true hstatus)
    split at h
    · -- an inactive one becomes active
      rename_i g hhead
      obtain rfl := Except.ok.inj h
      obtain ⟨hmem, hscope⟩ := mem_durableGrantsOfScope.mp (List.mem_of_head? hhead)
      refine ⟨_, _, rfl, ⟨⟨rfl, rfl, rfl⟩, fun g' hne => ?_⟩, hparticipant, ?_, fun _ => hfresh,
        fun hids => hids g hmem⟩
      · unfold ActiveDurable recordEvent
        dsimp only
        rw [Table.mem_update]
        constructor
        · rintro ⟨⟨row, hrow, hg'⟩, hstatus⟩
          by_cases hid : row.id = g.id
          · obtain rfl : row = g := Table.eq_of_key hrow hmem hid
            rw [if_pos (decide_eq_true rfl)] at hg'
            rw [hg'] at hne
            exact absurd hscope hne
          · rw [if_neg (by simpa using hid)] at hg'
            rw [hg'] at hstatus ⊢
            exact ⟨hrow, hstatus⟩
        · intro ⟨hg', hstatus⟩
          refine ⟨⟨g', hg', ?_⟩, hstatus⟩
          rw [if_neg]
          intro hid
          obtain rfl : g' = g := Table.eq_of_key hg' hmem (of_decide_eq_true hid)
          exact hne hscope
      · refine ⟨{ g with status := "active", updatedAt := now }, ⟨?_, rfl⟩, hscope, rfl⟩
        unfold recordEvent
        dsimp only
        rw [Table.mem_update]
        exact ⟨g, hmem, (if_pos (decide_eq_true rfl)).symm⟩
    · -- the scope is new
      obtain rfl := Except.ok.inj h
      refine ⟨_, _, rfl, ⟨⟨rfl, rfl, rfl⟩, fun g' hne => ?_⟩, hparticipant, ?_, fun _ => hfresh,
        fun _ => Table.nextId_pos db.principalGrants⟩
      · unfold ActiveDurable recordEvent insertDurableGrant
        dsimp only
        rw [Table.mem_append]
        constructor
        · intro ⟨hg', hstatus⟩
          rcases hg' with hold | rfl
          · exact ⟨hold, hstatus⟩
          · exact absurd rfl hne
        · intro ⟨hg', hstatus⟩
          exact ⟨Or.inl hg', hstatus⟩
      · refine ⟨_, ⟨Table.mem_append.mpr (Or.inr rfl), rfl⟩, rfl, rfl⟩

theorem deactivateDurableGrantInTx_spec {grantId : Int}
    {ending : TxEnd Database (Option GrantDeactivateOutcome)}
    (h : deactivateDurableGrantInTx now actor grantId db = .ok ending) :
    ∃ outcome db', ending = .commit outcome db'
      ∧ (outcome = none ∧ db' = db ∧ db.principalGrants.find grantId = none
        ∨ outcome ≠ none ∧ ∃ g, g.id = grantId ∧ DurableDeactivated g db db') := by
  unfold deactivateDurableGrantInTx at h
  split at h
  · exact absurd h (by simp)
  · split at h
    · rename_i hfind
      obtain rfl := Except.ok.inj h
      exact ⟨_, _, rfl, Or.inl ⟨rfl, rfl, hfind⟩⟩
    · rename_i scope hfind
      obtain rfl := Except.ok.inj h
      refine ⟨_, _, rfl, Or.inr ⟨by simp, scope, Table.key_of_find hfind, ?_⟩⟩
      obtain ⟨rows, hrows⟩ := recordEvents_frame now actor _ _ _
      rw [hrows]
      -- a row is active afterwards if it was and is of another scope
      have hactive : ∀ g', ActiveDurable { db with
          principalGrants := db.principalGrants.update
            (fun g => decide (g.principalProvider = scope.principalProvider
              ∧ g.principalSubject = scope.principalSubject
              ∧ g.participantId = scope.participantId ∧ g.capability = scope.capability
              ∧ g.resource = scope.resource ∧ g.status ≠ "inactive"))
            (fun row => { row with status := "inactive", updatedAt := now }) (fun _ => rfl)
          adminEvents := rows } g' ↔ ActiveDurable db g' ∧ g'.scope ≠ scope.scope := by
        intro g'
        unfold ActiveDurable
        dsimp only
        rw [Table.mem_update]
        constructor
        · rintro ⟨⟨row, hrow, hg'⟩, hstatus⟩
          split at hg'
          · rw [hg'] at hstatus
            exact absurd hstatus (by simp)
          · rename_i hno
            subst hg'
            refine ⟨⟨hrow, hstatus⟩, fun hscope => hno (decide_eq_true ?_)⟩
            obtain ⟨hp, hs, hpart, hc, hr⟩ := DurableGrant.scope_eq_scope_iff.mp hscope
            exact ⟨hp, hs, hpart, hc, hr, by rw [hstatus]; decide⟩
        · rintro ⟨⟨hg', hstatus⟩, hne⟩
          refine ⟨⟨g', hg', ?_⟩, hstatus⟩
          rw [if_neg]
          intro hselected
          obtain ⟨hp, hs, hpart, hc, hr, -⟩ := of_decide_eq_true hselected
          exact hne (DurableGrant.scope_eq_scope_iff.mpr ⟨hp, hs, hpart, hc, hr⟩)
      refine ⟨Table.mem_of_find hfind, ⟨⟨rfl, rfl, rfl⟩, fun g' hne => ?_⟩, fun g' hg' => ?_⟩
      · rw [hactive g']
        exact ⟨fun h => h.1, fun h => ⟨h, hne⟩⟩
      · exact ((hactive g').mp hg').2

end Transactions

/-! ## The operations -/

/-- A creation of a durable grant, on the command line or for a remote administrator. -/
inductive DurableCreation (now : Int) (raw : DurableGrantCreateRequest) :
    Administration DurableGrantCreateOutcome → Prop
  | local (actor : AuthorizationAdministrationActor) :
      DurableCreation now raw (createDurableGrant now actor raw)
  | authorized (surface : String) (caller : Principal) (callerParticipantId : String) :
      DurableCreation now raw
        (createDurableGrantAuthorized now surface caller callerParticipantId raw)

/-- A deactivation of a durable grant. -/
inductive DurableDeactivation (now : Int) (grantId : Int) :
    Administration (Option GrantDeactivateOutcome) → Prop
  | local (actor : AuthorizationAdministrationActor) :
      DurableDeactivation now grantId (deactivateDurableGrant now actor grantId)
  | authorized (surface : String) (caller : Principal) (callerParticipantId : String) :
      DurableDeactivation now grantId
        (deactivateDurableGrantAuthorized now surface caller callerParticipantId grantId)

section Operations

variable {α : Type} {now : Int} {db db' : Database} {a : α}
  {body : NormalizedActor → Database → Except String (TxEnd Database α)}

/-- What a local operation that went through did. -/
theorem of_administer_eq {actor : AuthorizationAdministrationActor}
    (hbody : ∀ actor ending, body actor db = .ok ending → ∃ a db', ending = .commit a db')
    (h : administer actor body db = (.ok a, db')) :
    ∃ normal, normalizeActor actor = .ok normal ∧ body normal db = .ok (.commit a db') := by
  rcases Relational.of_transaction_eq h with hrun | ⟨hrun, -⟩
  · exact Except.of_bind_eq_ok hrun
  · obtain ⟨normal, -, hrun⟩ := Except.of_bind_eq_ok hrun
    obtain ⟨_, _, hend⟩ := hbody normal _ hrun
    exact absurd hend (by simp)

/-- What an operation of a remote administrator that went through did, and who allowed it. -/
theorem of_administerAuthorized_eq {surface : String} {caller : Principal}
    {callerParticipantId : String}
    (hbody : ∀ actor ending, body actor db = .ok ending → ∃ a db', ending = .commit a db')
    (h : administerAuthorized now surface caller callerParticipantId body db = (.ok a, db')) :
    ∃ normal, normalizeActor ⟨surface, some caller, some callerParticipantId⟩ = .ok normal
      ∧ (evaluateAuthorizationCurrentSchema now db caller callerParticipantId
          manageAuthorizationPolicy (some authorizationPolicyAdminResource) none).allowed = true
      ∧ body normal db = .ok (.commit a db') := by
  have hrun : ∀ ending, (do
      let actor ← normalizeActor ⟨surface, some caller, some callerParticipantId⟩
      let decision := evaluateAuthorizationCurrentSchema now db caller callerParticipantId
        manageAuthorizationPolicy (some authorizationPolicyAdminResource) none
      if decision.allowed = false then .error "authorization denied"
      body actor db : Except String (TxEnd Database α)) = .ok ending →
      ∃ normal, normalizeActor ⟨surface, some caller, some callerParticipantId⟩ = .ok normal
        ∧ (evaluateAuthorizationCurrentSchema now db caller callerParticipantId
            manageAuthorizationPolicy (some authorizationPolicyAdminResource) none).allowed = true
        ∧ body normal db = .ok ending := by
    intro ending hend
    obtain ⟨normal, hnormal, hend⟩ := Except.of_bind_eq_ok hend
    dsimp only at hend
    split at hend
    · obtain ⟨_, hno, -⟩ := Except.of_bind_eq_ok hend
      exact absurd hno (by simp)
    · rename_i hallowed
      exact ⟨normal, hnormal, by simpa using hallowed, hend⟩
  rcases Relational.of_transaction_eq h with hcommit | ⟨hrollback, -⟩
  · exact hrun _ hcommit
  · obtain ⟨normal, -, -, hend⟩ := hrun _ hrollback
    obtain ⟨_, _, hcommit⟩ := hbody normal _ hend
    exact absurd hcommit (by simp)

theorem createDurableGrantBody_commits {raw : DurableGrantCreateRequest} (actor : NormalizedActor)
    (ending : TxEnd Database DurableGrantCreateOutcome)
    (h : createDurableGrantBody now raw actor db = .ok ending) :
    ∃ outcome db', ending = .commit outcome db' := by
  obtain ⟨request, -, h⟩ := Except.of_bind_eq_ok h
  obtain ⟨outcome, db', hend, -⟩ := createDurableGrantInTx_spec h
  exact ⟨outcome, db', hend⟩

/-- **Every creation that went through.** -/
theorem DurableCreation.spec {raw : DurableGrantCreateRequest}
    {op : Administration DurableGrantCreateOutcome} (hop : DurableCreation now raw op)
    {outcome : DurableGrantCreateOutcome} (h : op db = (.ok outcome, db')) :
    ∃ request, normalizeDurableGrantCreateRequest raw = .ok request
      ∧ DurableCreated request outcome db db' := by
  have hspec : ∀ normal request,
      createDurableGrantInTx now normal request db = .ok (.commit outcome db') →
        DurableCreated request outcome db db' := by
    intro normal request hrun
    obtain ⟨_, _, hend, hcreated⟩ := createDurableGrantInTx_spec hrun
    obtain ⟨rfl, rfl⟩ := TxEnd.commit.inj hend
    exact hcreated
  cases hop with
  | «local» actor =>
      obtain ⟨normal, -, hrun⟩ := of_administer_eq createDurableGrantBody_commits h
      obtain ⟨request, hrequest, hrun⟩ := Except.of_bind_eq_ok hrun
      exact ⟨request, hrequest, hspec normal request hrun⟩
  | authorized surface caller callerParticipantId =>
      unfold createDurableGrantAuthorized at h
      split at h
      · exact absurd (Prod.mk.inj h).1 (by simp)
      · exact absurd (Prod.mk.inj h).1 (by simp)
      · rename_i request _ hrequest
        obtain ⟨normal, -, -, hrun⟩ := of_administerAuthorized_eq (fun actor ending hend => by
          obtain ⟨outcome, db', heq, -⟩ := createDurableGrantInTx_spec hend
          exact ⟨outcome, db', heq⟩) h
        exact ⟨request, hrequest, hspec normal request hrun⟩

/-- **Every deactivation that went through.** -/
theorem DurableDeactivation.spec {grantId : Int}
    {op : Administration (Option GrantDeactivateOutcome)} (hop : DurableDeactivation now grantId op)
    {outcome : Option GrantDeactivateOutcome} (h : op db = (.ok outcome, db')) :
    outcome = none ∧ db' = db ∧ db.principalGrants.find grantId = none
      ∨ outcome ≠ none ∧ ∃ g, g.id = grantId ∧ DurableDeactivated g db db' := by
  have hcommits : ∀ normal ending, deactivateDurableGrantInTx now normal grantId db = .ok ending →
      ∃ outcome db', ending = .commit outcome db' := by
    intro normal ending hend
    obtain ⟨outcome, db', heq, -⟩ := deactivateDurableGrantInTx_spec hend
    exact ⟨outcome, db', heq⟩
  have hrun : ∃ normal,
      deactivateDurableGrantInTx now normal grantId db = .ok (.commit outcome db') := by
    cases hop with
    | «local» actor =>
        obtain ⟨normal, -, hrun⟩ := of_administer_eq hcommits h
        exact ⟨normal, hrun⟩
    | authorized surface caller callerParticipantId =>
        obtain ⟨normal, -, -, hrun⟩ := of_administerAuthorized_eq hcommits h
        exact ⟨normal, hrun⟩
  obtain ⟨normal, hrun⟩ := hrun
  obtain ⟨_, _, hend, hcases⟩ := deactivateDurableGrantInTx_spec hrun
  obtain ⟨rfl, rfl⟩ := TxEnd.commit.inj hend
  exact hcases

end Operations

/-! ## Two normalisers -/

/-- What the one normaliser takes out of a text, the other does. -/
theorem required_of_normalize {value normal field message : String} {maxBytes : Nat}
    (h : normalize value maxBytes field = .ok normal) :
    required (normalizeText value maxBytes) message = .ok normal := by
  unfold normalize at h
  cases hnormal : normalizeText value maxBytes with
  | some normal' =>
      rw [hnormal] at h
      exact h
  | none =>
      rw [hnormal] at h
      exact absurd h (by simp)

/-- **The normalisers agree**: a request a grant was created from is a target that can be
explained, and the same one. -/
theorem normalizeAuthorizationDecisionTarget_of_create {raw request : DurableGrantCreateRequest}
    (h : normalizeDurableGrantCreateRequest raw = .ok request) :
    normalizeAuthorizationDecisionTarget raw.principalProvider raw.principalSubject
        raw.participantId raw.capability raw.resource none
      = .ok ⟨⟨request.principalProvider, request.principalSubject⟩, request.participantId,
          request.capability, request.resource, none⟩ := by
  unfold normalizeDurableGrantCreateRequest at h
  obtain ⟨provider, hprovider, h⟩ := Except.of_bind_eq_ok h
  obtain ⟨subject, hsubject, h⟩ := Except.of_bind_eq_ok h
  obtain ⟨participantId, hparticipant, h⟩ := Except.of_bind_eq_ok h
  obtain ⟨capability, hcapability, h⟩ := Except.of_bind_eq_ok h
  dsimp only at h
  split at h
  · obtain ⟨_, hno, -⟩ := Except.of_bind_eq_ok h
    exact absurd hno (by simp)
  · rename_i hknown
    obtain ⟨resource, hresource, h⟩ := Except.of_bind_eq_ok h
    obtain rfl := Except.ok.inj h
    have hid : required (validateParticipantId raw.participantId) "invalid_participant_id"
        = .ok participantId := by
      unfold requireParticipantId at hparticipant
      cases hvalid : validateParticipantId raw.participantId with
      | some valid =>
          rw [hvalid] at hparticipant
          exact hparticipant
      | none =>
          rw [hvalid] at hparticipant
          exact absurd hparticipant (by simp)
    have hoptional : optional raw.resource
        (fun value => required (normalizeText value 256) "invalid_resource") = .ok resource := by
      cases hraw : raw.resource with
      | none =>
          rw [hraw] at hresource
          exact hresource
      | some value =>
          rw [hraw] at hresource
          unfold normalizeOptional at hresource
          cases hnormal : normalize value maxResourceBytes "resource" with
          | error e =>
              dsimp only at hresource
              rw [hnormal] at hresource
              exact absurd hresource (by simp [Except.map])
          | ok normal =>
              dsimp only at hresource
              rw [hnormal] at hresource
              unfold optional
              dsimp only
              rw [show required (normalizeText value 256) "invalid_resource" = .ok normal from
                required_of_normalize hnormal]
              exact hresource
    unfold normalizeAuthorizationDecisionTarget
    rw [show required (normalizeText raw.principalProvider 256) "invalid_principal_provider"
        = .ok provider from required_of_normalize hprovider,
      show required (normalizeText raw.principalSubject 256) "invalid_principal_subject"
        = .ok subject from required_of_normalize hsubject, hid,
      show required (normalizeText raw.capability 128) "invalid_capability" = .ok capability from
        required_of_normalize hcapability, hoptional]
    simp only [bind, Except.bind, pure, Except.pure, hknown]
    rfl

/-! ## The laws -/

/-- What administering durable grants does to the kernel's answers, in a store. -/
structure DurableGrantLaws (db : Database) : Prop where
  /-- A creation speaks about the scope that was asked for. -/
  created : ∀ now raw op outcome db', DurableCreation now raw op → op db = (.ok outcome, db') →
    ∃ request, normalizeDurableGrantCreateRequest raw = .ok request
      ∧ ∀ clock (q : AccessRequest), ¬ q.InScope (durableScope request) →
        (q.decision clock db').allowed = (q.decision clock db).allowed
  /-- A deactivation speaks about the scope of the grant it names, or does nothing. -/
  deactivated : ∀ now grantId op outcome db', DurableDeactivation now grantId op →
    op db = (.ok outcome, db') → db' = db ∨ ∃ g ∈ db.principalGrants, g.id = grantId
      ∧ ∀ clock (q : AccessRequest), ¬ q.InScope g.scope →
        (q.decision clock db').allowed = (q.decision clock db).allowed
  /-- To deactivate what was created or reactivated restores every answer. -/
  reversed : ∀ now raw op outcome db' now' op' outcome' db'', DurableCreation now raw op →
    op db = (.ok outcome, db') → outcome.state ≠ .existing →
      DurableDeactivation now' outcome.id op' → op' db' = (.ok outcome', db'') →
        ∀ clock (q : AccessRequest), (q.decision clock db'').allowed = (q.decision clock db).allowed
  /-- It can be deactivated, row ids being positive. -/
  reversible : ∀ now raw op outcome db', DurableCreation now raw op → op db = (.ok outcome, db') →
    (∀ g ∈ db.principalGrants, 0 < g.id) → ∀ now' actor normal, normalizeActor actor = .ok normal →
      ∃ changed, (deactivateDurableGrant now' actor outcome.id db').1 = .ok (some changed)
  /-- The request of a creation can be explained afterwards, and is allowed. -/
  explained : ∀ now raw op outcome db', DurableCreation now raw op → op db = (.ok outcome, db') →
    ∃ target, normalizeAuthorizationDecisionTarget raw.principalProvider raw.principalSubject
        raw.participantId raw.capability raw.resource none = .ok target
      ∧ ∀ clock, (explainAuthorization clock db' target).allowed = true

section Laws

variable {db db' : Database} {request : DurableGrantCreateRequest}
  {outcome : DurableGrantCreateOutcome}

/-- The principal of an active grant is allowed what the grant is for. -/
theorem DurableCreated.allowed (h : DurableCreated request outcome db db') (clock : Int) :
    (explainAuthorization clock db' ⟨⟨request.principalProvider, request.principalSubject⟩,
      request.participantId, request.capability, request.resource, none⟩).allowed = true := by
  let q : AccessRequest := ⟨⟨request.principalProvider, request.principalSubject⟩,
    request.participantId, request.capability, request.resource, none⟩
  obtain ⟨g, ⟨hg, hstatus⟩, hscope, -⟩ := h.active
  obtain ⟨hprovider, hsubject, hparticipant, hcapability, hresource⟩ :=
    DurableGrant.scope_eq_iff.mp hscope
  obtain ⟨p, hp, hid, hactive⟩ := h.participant
  have hp' : p ∈ db'.webParticipants := by
    rw [h.edits.same.participants]
    exact hp
  have hallowed : (q.decision clock db').allowed = true := by
    refine (allowed_without_intent rfl).mpr ⟨⟨p, hp', hid, hactive⟩, Or.inl ⟨g, hg, ?_, ?_⟩⟩
    · exact ⟨hprovider, hsubject, hparticipant, hcapability, hstatus⟩
    · exact Or.inr hresource
  exact hallowed

/-- A valid actor may deactivate what was created: it is in the table. -/
theorem deactivateDurableGrant_accepted {now' : Int} {actor : AuthorizationAdministrationActor}
    {normal : NormalizedActor} (h : DurableCreated request outcome db db')
    (hpositive : 0 < outcome.id) (hnormal : normalizeActor actor = .ok normal) :
    ∃ changed, (deactivateDurableGrant now' actor outcome.id db').1 = .ok (some changed) := by
  obtain ⟨g, ⟨hg, -⟩, -, hid⟩ := h.active
  have hfind : db'.principalGrants.find outcome.id = some g := hid ▸ Table.find_of_mem hg
  have hrun : ∃ changed after, (do
      let actor ← normalizeActor actor
      deactivateDurableGrantInTx now' actor outcome.id db'
        : Except String (TxEnd Database (Option GrantDeactivateOutcome)))
      = .ok (.commit (some changed) after) := by
    rw [hnormal]
    simp only [bind, Except.bind]
    unfold deactivateDurableGrantInTx
    rw [if_neg (by omega), hfind]
    exact ⟨_, _, rfl⟩
  obtain ⟨changed, after, hrun⟩ := hrun
  have hop : deactivateDurableGrant now' actor outcome.id db' = (.ok (some changed), after) := by
    unfold deactivateDurableGrant administer
    exact Relational.transaction_of_commit hrun
  exact ⟨changed, by rw [hop]⟩

end Laws

/-- **Durable grants act on their own scope**, can be taken back, and do what they say. -/
theorem durableGrantLaws (db : Database) : DurableGrantLaws db where
  created := by
    intro now raw op outcome db' hop h
    obtain ⟨request, hrequest, hcreated⟩ := hop.spec h
    exact ⟨request, hrequest, fun clock q hq => hcreated.edits.allowed hq clock⟩
  deactivated := by
    intro now grantId op outcome db' hop h
    rcases hop.spec h with ⟨-, hdb, -⟩ | ⟨-, g, hid, hdeactivated⟩
    · exact Or.inl hdb
    · exact Or.inr ⟨g, hdeactivated.mem, hid, fun clock q hq =>
        hdeactivated.edits.allowed hq clock⟩
  reversed := by
    intro now raw op outcome db' now' op' outcome' db'' hop h hstate hop' h' clock q
    obtain ⟨request, -, hcreated⟩ := hop.spec h
    obtain ⟨g, ⟨hg, -⟩, hscope, hid⟩ := hcreated.active
    have hfind : db'.principalGrants.find outcome.id = some g := hid ▸ Table.find_of_mem hg
    rcases hop'.spec h' with ⟨-, -, hnone⟩ | ⟨-, g', hid', hdeactivated⟩
    · rw [hfind] at hnone
      exact absurd hnone (by simp)
    · -- the grant that is deactivated is the one that was created
      obtain rfl : g' = g := Table.eq_of_key hdeactivated.mem hg (hid'.trans hid.symm)
      have hedits : EditsScope (durableScope request) db' db'' := hscope ▸ hdeactivated.edits
      refine hcreated.edits.restored hedits (hcreated.fresh hstate) (fun g₂ hg₂ => ?_) clock
      rw [← hscope]
      exact hdeactivated.inactive g₂ hg₂
  reversible := by
    intro now raw op outcome db' hop h hids now' actor normal hnormal
    obtain ⟨request, -, hcreated⟩ := hop.spec h
    exact deactivateDurableGrant_accepted hcreated (hcreated.positive hids) hnormal
  explained := by
    intro now raw op outcome db' hop h
    obtain ⟨request, hrequest, hcreated⟩ := hop.spec h
    exact ⟨_, normalizeAuthorizationDecisionTarget_of_create hrequest, hcreated.allowed⟩

end Blackboard
