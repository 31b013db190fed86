import Blackboard.Proof.StoreInv

/-!
# What a grant operation does

A grant operation does one of five things to one grant and writes the event that says so,
or it does nothing (`GrantEffect`). That takes an invariant: the table's own uniqueness
does not count a missing resource as a value, so that no two durable grants share a scope
is the operations' doing (`GrantsInv`).
-/

namespace Blackboard

open Relational (Table TxEnd transaction orderBy)

/-! ## Scopes -/

def DurableGrant.scope (g : DurableGrant) : GrantScope :=
  ⟨g.principalProvider, g.principalSubject, g.participantId, g.capability, g.resource, none, none,
    false⟩

def DelegatedGrant.scope (g : DelegatedGrant) : GrantScope :=
  ⟨g.principalProvider, g.principalSubject, g.participantId, g.capability, g.resource, g.intentId,
    g.expiresAt, decide (g.oneShot ≠ 0)⟩

/-- The scope a creation is recorded with. -/
def DelegatedGrantCreateRequest.scope (r : DelegatedGrantCreateRequest) : GrantScope :=
  ⟨r.principalProvider, r.principalSubject, r.participantId, r.capability, r.resource, r.intentId,
    r.expiresAt, r.oneShot⟩

theorem DurableGrant.scope_eq_iff {g : DurableGrant} {request : DurableGrantCreateRequest} :
    g.scope = durableScope request ↔ g.principalProvider = request.principalProvider
      ∧ g.principalSubject = request.principalSubject ∧ g.participantId = request.participantId
      ∧ g.capability = request.capability ∧ g.resource = request.resource := by
  unfold DurableGrant.scope durableScope
  rw [GrantScope.mk.injEq]
  simp

theorem DurableGrant.scope_eq_scope_iff {g h : DurableGrant} :
    g.scope = h.scope ↔ g.principalProvider = h.principalProvider
      ∧ g.principalSubject = h.principalSubject ∧ g.participantId = h.participantId
      ∧ g.capability = h.capability ∧ g.resource = h.resource := by
  unfold DurableGrant.scope
  rw [GrantScope.mk.injEq]
  simp

/-! ## The invariant -/

def IsStatus (status : String) : Prop := status = "active" ∨ status = "inactive"

theorem IsStatus.inactive {status : String} (h : IsStatus status) (hne : status ≠ "active") :
    status = "inactive" := h.resolve_left hne

theorem IsStatus.active {status : String} (h : IsStatus status) (hne : status ≠ "inactive") :
    status = "active" := h.resolve_right hne

/-- No two durable grants share a scope, a missing resource counting as one, and every grant is
active or inactive. -/
structure GrantsInv (db : Database) : Prop where
  unique : ∀ g ∈ db.principalGrants, ∀ h ∈ db.principalGrants, g.scope = h.scope → g = h
  durable : ∀ g ∈ db.principalGrants, IsStatus g.status
  delegated : ∀ g ∈ db.delegatedGrants, IsStatus g.status

/-! ## The effects -/

/-- `UPDATE principal_grants SET status = ? WHERE id = ?`. -/
def setDurableStatus (now : Int) (id : Int) (status : String) (db : Database) : Database :=
  { db with
    principalGrants := db.principalGrants.update (fun row => decide (row.id = id))
      (fun row => { row with status, updatedAt := now }) fun _ => rfl }

theorem DelegatedGrant.id_inactive (row : DelegatedGrant) :
    ({ row with status := "inactive" } : DelegatedGrant).id = row.id := rfl

/-- `UPDATE delegated_grants SET status = 'inactive' WHERE id = ? AND status != 'inactive'`. -/
def setDelegatedInactive (id : Int) (db : Database) : Database :=
  { db with
    delegatedGrants := db.delegatedGrants.update
      (fun g => decide (g.id = id ∧ g.status ≠ "inactive"))
      (fun row => { row with status := "inactive" }) DelegatedGrant.id_inactive }

/-- What a grant operation can do: nothing, or one change of one grant, with its event. A new
delegated grant is the one that was asked for. -/
inductive GrantEffect (now : Int) (db : Database) (creation : Option DelegatedGrantCreateRequest) :
    Database → Prop
  | nothing : GrantEffect now db creation db
  | createDurable (actor : NormalizedActor) (raw request : DurableGrantCreateRequest)
      (normal : normalizeDurableGrantCreateRequest raw = .ok request)
      (participant : (db.webParticipants.find request.participantId).isSome)
      (fresh : ∀ g ∈ db.principalGrants, g.scope ≠ durableScope request) :
      GrantEffect now db creation (recordEvent now actor
        ⟨"durable", db.principalGrants.nextId, "create", durableScope request, none, "active"⟩
        (insertDurableGrant now request db).2)
  | reactivate (actor : NormalizedActor) (g : DurableGrant) (mem : g ∈ db.principalGrants)
      (inactive : g.status = "inactive") :
      GrantEffect now db creation (recordEvent now actor
        ⟨"durable", g.id, "reactivate", g.scope, some "inactive", "active"⟩
        (setDurableStatus now g.id "active" db))
  | deactivateDurable (actor : NormalizedActor) (g : DurableGrant) (mem : g ∈ db.principalGrants)
      (active : g.status = "active") :
      GrantEffect now db creation (recordEvent now actor
        ⟨"durable", g.id, "deactivate", g.scope, some "active", "inactive"⟩
        (setDurableStatus now g.id "inactive" db))
  | createDelegated (actor : NormalizedActor) (raw request : DelegatedGrantCreateRequest)
      (asked : creation = some raw)
      (normal : normalizeDelegatedGrantCreateRequest raw = .ok request)
      (participant : (db.webParticipants.find request.participantId).isSome) :
      GrantEffect now db creation (recordEvent now actor
        ⟨"delegated", db.delegatedGrants.nextId, "create", request.scope, none, "active"⟩
        (insertDelegatedGrant request db).2)
  | deactivateDelegated (actor : NormalizedActor) (g : DelegatedGrant)
      (mem : g ∈ db.delegatedGrants) (active : g.status = "active") :
      GrantEffect now db creation (recordEvent now actor
        ⟨"delegated", g.id, "deactivate", g.scope, some "active", "inactive"⟩
        (setDelegatedInactive g.id db))

variable {now : Int} {actor : NormalizedActor} {db : Database}
  {creation : Option DelegatedGrantCreateRequest}

/-! ## The transactions -/

theorem isSome_of_requireActiveParticipant {participantId : String} {u : Unit}
    (h : requireActiveParticipant db participantId = .ok u) :
    (db.webParticipants.find participantId).isSome := by
  unfold requireActiveParticipant at h
  cases hp : db.webParticipants.find participantId with
  | none => rw [hp] at h; exact absurd h (by simp)
  | some row => rfl

/-- The rows of a scope, in the terms of scopes. -/
theorem mem_durableGrantsOfScope {request : DurableGrantCreateRequest} {g : DurableGrant} :
    g ∈ durableGrantsOfScope db request.principalProvider request.principalSubject
        request.participantId request.capability request.resource
      ↔ g ∈ db.principalGrants ∧ g.scope = durableScope request := by
  unfold durableGrantsOfScope
  rw [Relational.mem_orderBy, List.mem_filter, decide_eq_true_eq, DurableGrant.scope_eq_iff]
  exact Iff.rfl

theorem createDurableGrantInTx_effect (hi : GrantsInv db) {raw request : DurableGrantCreateRequest}
    {outcome : DurableGrantCreateOutcome} {db' : Database}
    (hnormal : normalizeDurableGrantCreateRequest raw = .ok request)
    (h : createDurableGrantInTx now actor request db = .ok (.commit outcome db')) :
    GrantEffect now db creation db' := by
  unfold createDurableGrantInTx at h
  obtain ⟨_, hactive, h⟩ := Except.of_bind_eq_ok h
  have hparticipant := isSome_of_requireActiveParticipant hactive
  simp only [insertDurableGrant] at h
  split at h
  · obtain ⟨-, rfl⟩ := TxEnd.commit.inj (Except.ok.inj h)
    exact .nothing
  · rename_i hnone
    split at h
    · rename_i g hhead
      obtain ⟨-, rfl⟩ := TxEnd.commit.inj (Except.ok.inj h)
      have hg := List.mem_of_head? hhead
      obtain ⟨hmem, hscope⟩ := mem_durableGrantsOfScope.mp hg
      have hne : g.status ≠ "active" := by
        simpa using List.find?_eq_none.mp hnone g hg
      rw [← hscope]
      exact .reactivate actor g hmem ((hi.durable g hmem).inactive hne)
    · rename_i hempty
      obtain ⟨-, rfl⟩ := TxEnd.commit.inj (Except.ok.inj h)
      refine .createDurable actor raw request hnormal hparticipant fun g hg hscope => ?_
      have hmem := mem_durableGrantsOfScope.mpr ⟨hg, hscope⟩
      rw [List.head?_eq_none_iff] at hempty
      rw [hempty] at hmem
      exact absurd hmem List.not_mem_nil

/-- The rows a deactivation selects are the grant itself, or nothing when it is inactive already. -/
theorem deactivateDurableGrantInTx_effect (hi : GrantsInv db) {grantId : Int}
    {outcome : Option GrantDeactivateOutcome} {db' : Database}
    (h : deactivateDurableGrantInTx now actor grantId db = .ok (.commit outcome db')) :
    GrantEffect now db creation db' := by
  unfold deactivateDurableGrantInTx at h
  split at h
  · exact absurd h (by simp)
  · split at h
    · obtain ⟨-, rfl⟩ := TxEnd.commit.inj (Except.ok.inj h)
      exact .nothing
    · rename_i g hfind
      obtain ⟨-, rfl⟩ := TxEnd.commit.inj (Except.ok.inj h)
      have hmem := Table.mem_of_find hfind
      have hid : g.id = grantId := Table.key_of_find hfind
      -- one row has the scope
      have hsame : ∀ row ∈ db.principalGrants,
          decide (row.principalProvider = g.principalProvider
            ∧ row.principalSubject = g.principalSubject ∧ row.participantId = g.participantId
            ∧ row.capability = g.capability ∧ row.resource = g.resource
            ∧ row.status ≠ "inactive")
          = decide (row.id = g.id ∧ g.status ≠ "inactive") := by
        intro row hrow
        rw [decide_eq_decide]
        constructor
        · rintro ⟨hp, hs, hpart, hc, hr, hst⟩
          have heq : row = g := hi.unique row hrow g hmem
            (DurableGrant.scope_eq_scope_iff.mpr ⟨hp, hs, hpart, hc, hr⟩)
          subst heq
          exact ⟨rfl, hst⟩
        · rintro ⟨hrid, hst⟩
          obtain rfl : row = g := Table.eq_of_key hrow hmem hrid
          exact ⟨rfl, rfl, rfl, rfl, rfl, hst⟩
      by_cases hst : g.status = "inactive"
      · -- the grant is inactive already: no row is selected and no event written
        have hnone : ∀ row ∈ db.principalGrants,
            decide (row.principalProvider = g.principalProvider
              ∧ row.principalSubject = g.principalSubject ∧ row.participantId = g.participantId
              ∧ row.capability = g.capability ∧ row.resource = g.resource
              ∧ row.status ≠ "inactive") = false := by
          intro row hrow
          rw [hsame row hrow, decide_eq_false_iff_not]
          exact fun hand => hand.2 hst
        rw [Table.update_eq_self hnone, List.filter_eq_nil_iff.mpr fun row hrow => by
          rw [hnone row hrow]; simp]
        exact .nothing
      · have hactive : g.status = "active" := (hi.durable g hmem).active hst
        have hone : ∀ row ∈ db.principalGrants,
            decide (row.principalProvider = g.principalProvider
              ∧ row.principalSubject = g.principalSubject ∧ row.participantId = g.participantId
              ∧ row.capability = g.capability ∧ row.resource = g.resource
              ∧ row.status ≠ "inactive") = decide (row.id = g.id) := by
          intro row hrow
          rw [hsame row hrow, decide_eq_decide]
          exact ⟨fun hand => hand.1, fun hrid => ⟨hrid, hst⟩⟩
        have hfilter : db.principalGrants.rows.filter (fun row =>
            decide (row.principalProvider = g.principalProvider
              ∧ row.principalSubject = g.principalSubject ∧ row.participantId = g.participantId
              ∧ row.capability = g.capability ∧ row.resource = g.resource
              ∧ row.status ≠ "inactive")) = [g] := by
          rw [List.filter_congr hone]
          exact Table.filter_key_of_mem hmem
        rw [hfilter, Table.update_congr hone]
        exact .deactivateDurable actor g hmem hactive

theorem createDelegatedGrantInTx_effect {raw request : DelegatedGrantCreateRequest}
    {outcome : DelegatedGrantCreateOutcome} {db' : Database} (hasked : creation = some raw)
    (hnormal : normalizeDelegatedGrantCreateRequest raw = .ok request)
    (h : createDelegatedGrantInTx now actor request db = .ok (.commit outcome db')) :
    GrantEffect now db creation db' := by
  unfold createDelegatedGrantInTx at h
  obtain ⟨_, hactive, h⟩ := Except.of_bind_eq_ok h
  have hparticipant := isSome_of_requireActiveParticipant hactive
  simp only [insertDelegatedGrant] at h
  split at h
  · obtain ⟨_, hno, -⟩ := Except.of_bind_eq_ok h
    exact absurd hno (by simp)
  · obtain ⟨-, rfl⟩ := TxEnd.commit.inj (Except.ok.inj h)
    exact .createDelegated actor raw request hasked hnormal hparticipant

theorem deactivateDelegatedGrantInTx_effect (hi : GrantsInv db) {grantId : Int}
    {outcome : Option GrantDeactivateOutcome} {db' : Database}
    (h : deactivateDelegatedGrantInTx now actor grantId db = .ok (.commit outcome db')) :
    GrantEffect now db creation db' := by
  unfold deactivateDelegatedGrantInTx at h
  split at h
  · exact absurd h (by simp)
  · split at h
    · obtain ⟨-, rfl⟩ := TxEnd.commit.inj (Except.ok.inj h)
      exact .nothing
    · rename_i g hfind
      have hmem := Table.mem_of_find hfind
      have hid : g.id = grantId := Table.key_of_find hfind
      subst hid
      dsimp only at h
      by_cases hst : g.status = "inactive"
      · have hnone : ∀ row ∈ db.delegatedGrants,
            decide (row.id = g.id ∧ row.status ≠ "inactive") = false := by
          intro row hrow
          rw [decide_eq_false_iff_not]
          rintro ⟨hrid, hne⟩
          obtain rfl : row = g := Table.eq_of_key hrow hmem hrid
          exact hne hst
        have hcount : db.delegatedGrants.count
            (fun row => decide (row.id = g.id ∧ row.status ≠ "inactive")) ≠ 1 := by
          rw [Table.count, List.countP_eq_zero.mpr fun row hrow => by rw [hnone row hrow]; simp]
          exact Nat.zero_ne_one
        rw [if_neg hcount, Table.update_eq_self hnone] at h
        obtain ⟨-, rfl⟩ := TxEnd.commit.inj (Except.ok.inj h)
        exact .nothing
      · have hactive : g.status = "active" := (hi.delegated g hmem).active hst
        have hone : ∀ row ∈ db.delegatedGrants,
            decide (row.id = g.id ∧ row.status ≠ "inactive") = decide (row.id = g.id) := by
          intro row hrow
          rw [decide_eq_decide]
          refine ⟨fun hand => hand.1, fun hrid => ⟨hrid, ?_⟩⟩
          obtain rfl : row = g := Table.eq_of_key hrow hmem hrid
          exact hst
        have hcount : db.delegatedGrants.count
            (fun row => decide (row.id = g.id ∧ row.status ≠ "inactive")) = 1 := by
          rw [Table.count, List.countP_congr fun row hrow => by rw [hone row hrow]]
          exact Table.count_eq_one_of_some hfind
        rw [if_pos hcount] at h
        obtain ⟨-, rfl⟩ := TxEnd.commit.inj (Except.ok.inj h)
        rw [hactive]
        exact .deactivateDelegated actor g hmem hactive

/-- **Every grant operation** has one of these effects. -/
theorem GrantOp.effect (hi : GrantsInv db) (now : Int) (op : GrantOp) :
    GrantEffect now db op.delegatedCreation (op.apply now db) := by
  refine op.rule now .nothing ?_ ?_ ?_ ?_
  · intro actor raw request outcome db' hnormal hb
    exact createDurableGrantInTx_effect hi hnormal hb
  · intro actor grantId outcome db' hb
    exact deactivateDurableGrantInTx_effect hi hb
  · intro actor raw request outcome db' hasked hnormal hb
    exact createDelegatedGrantInTx_effect hasked hnormal hb
  · intro actor grantId outcome db' hb
    exact deactivateDelegatedGrantInTx_effect hi hb

/-! ## The invariant is kept -/

/-- A new status for one durable grant, whatever is recorded about it. -/
theorem GrantsInv.setDurableStatus (hi : GrantsInv db) (id : Int) {status : String}
    (hs : IsStatus status) {event : AdministrationEvent} :
    GrantsInv (recordEvent now actor event (setDurableStatus now id status db)) := by
  simp only [recordEvent, Blackboard.setDurableStatus]
  refine ⟨fun g' hg' h' hh' hscope => ?_, fun g' hg' => ?_, hi.delegated⟩
  · rw [Table.mem_update] at hg' hh'
    obtain ⟨g, hg, rfl⟩ := hg'
    obtain ⟨h, hh, rfl⟩ := hh'
    have hscope' : g.scope = h.scope := by
      split at hscope <;> split at hscope <;> exact hscope
    rw [hi.unique g hg h hh hscope']
  · rw [Table.mem_update] at hg'
    obtain ⟨g, hg, rfl⟩ := hg'
    split
    · exact hs
    · exact hi.durable g hg

theorem GrantEffect.grantsInv {db' : Database} (h : GrantEffect now db creation db') (hi : GrantsInv db) :
    GrantsInv db' := by
  cases h with
  | nothing => exact hi
  | createDurable actor raw request normal participant fresh =>
      simp only [recordEvent, insertDurableGrant]
      refine ⟨fun g hg h hh hscope => ?_, fun g hg => ?_, hi.delegated⟩
      · rcases Table.mem_append.mp hg with hg | rfl <;> rcases Table.mem_append.mp hh with hh | rfl
        · exact hi.unique g hg h hh hscope
        · exact absurd hscope (fresh g hg)
        · exact absurd hscope.symm (fresh h hh)
        · rfl
      · rcases Table.mem_append.mp hg with hg | rfl
        · exact hi.durable g hg
        · exact Or.inl rfl
  | reactivate actor g mem inactive => exact hi.setDurableStatus g.id (Or.inl rfl)
  | deactivateDurable actor g mem active => exact hi.setDurableStatus g.id (Or.inr rfl)
  | createDelegated actor raw request asked normal participant =>
      simp only [recordEvent, insertDelegatedGrant]
      refine ⟨hi.unique, hi.durable, fun g hg => ?_⟩
      rcases Table.mem_append.mp hg with hg | rfl
      · exact hi.delegated g hg
      · exact Or.inl rfl
  | deactivateDelegated actor g mem active =>
      simp only [recordEvent, setDelegatedInactive]
      refine ⟨hi.unique, hi.durable, fun g' hg' => ?_⟩
      rw [Table.mem_update] at hg'
      obtain ⟨g, hg, rfl⟩ := hg'
      split
      · exact Or.inr rfl
      · exact hi.delegated g hg

/-! ## What other operations do to the grants -/

/-- The delegated grants as they were, or one of them consumed by an intent it is good for. -/
def Consumes (t t' : Table DelegatedGrant.id) : Prop :=
  t' = t ∨ ∃ now consumed intentId, GrantConsumed now consumed intentId t t'
    ∧ ∀ g ∈ t, consumed = some g.id → g.intentId = none ∨ g.intentId = some intentId

/-- A step that is no grant operation: it may consume a delegated grant, and it removes no
participant. -/
structure Ungranted (db db' : Database) : Prop where
  events : db'.adminEvents = db.adminEvents
  durable : db'.principalGrants = db.principalGrants
  participants : ∀ id, (db.webParticipants.find id).isSome → (db'.webParticipants.find id).isSome
  delegated : Consumes db.delegatedGrants db'.delegatedGrants

theorem Ungranted.of_eq {db' : Database} (hevents : db'.adminEvents = db.adminEvents)
    (hdurable : db'.principalGrants = db.principalGrants)
    (hparticipants : db'.webParticipants = db.webParticipants)
    (hdelegated : db'.delegatedGrants = db.delegatedGrants) : Ungranted db db' :=
  ⟨hevents, hdurable, fun _ h => by rw [hparticipants]; exact h, Or.inl hdelegated⟩

theorem updateWebParticipant_kept {participantId : String} {set : WebParticipant → WebParticipant}
    (hset : ∀ row, (set row).participantId = row.participantId) (id : String)
    (h : (db.webParticipants.find id).isSome) :
    ((updateWebParticipant participantId set hset db).webParticipants.find id).isSome := by
  simp only [updateWebParticipant]
  rw [Table.find_update, Option.isSome_map]
  exact h

/-- No participant operation removes a participant. -/
theorem ParticipantOp.kept (op : ParticipantOp) (db : Database) (id : String)
    (h : (db.webParticipants.find id).isSome) :
    ((op.apply db).webParticipants.find id).isSome := by
  cases op with
  | provision participantId source label =>
      simp only [ParticipantOp.apply, provisionWebParticipantIdentity]
      split
      · split
        · exact h
        · split
          · exact h
          · rename_i webParticipants hinsert
            obtain ⟨-, -, hfind⟩ := Table.of_tryInsert hinsert
            dsimp only
            rw [hfind]
            split
            · rfl
            · exact h
      · exact h
  | setRole participantId role =>
      simp only [ParticipantOp.apply, setWebParticipantRole]
      split
      · exact h
      · exact updateWebParticipant_kept _ id h
  | setStatus participantId status =>
      simp only [ParticipantOp.apply, setWebParticipantStatus]
      split
      · exact h
      · exact updateWebParticipant_kept _ id h
  | setOwner participantId provider subject login =>
      simp only [ParticipantOp.apply, setParticipantOwner]
      split
      · exact h
      · exact updateWebParticipant_kept _ id h
  | clearOwner participantId =>
      simp only [ParticipantOp.apply, clearParticipantOwner]
      split
      · exact h
      · exact updateWebParticipant_kept _ id h

section Steps

variable [Sha256]

/-- A first execution consumes the grant it stands on, which is good for its intent. -/
theorem FirstExecuted.consumes {identity : Identity} {request : MessageExecutionRequest}
    {m : Message} {db' : Database} (h : FirstExecuted now identity request db m db') :
    Consumes db.delegatedGrants db'.delegatedGrants := by
  refine Or.inr ⟨_, _, _, h.effects.grants, fun g hg hconsumed => ?_⟩
  obtain ⟨g₀, hg₀, hid, hbound⟩ :=
    bound_of_consumeGrantId (q := request.access) h.toAccepted.allowed hconsumed
  obtain rfl : g₀ = g := Table.eq_of_key hg₀ hg hid
  exact hbound

/-- The grant operation of an action. -/
def Action.grantOp (a : Action) : Option GrantOp :=
  match a.op with
  | .grant op => some op
  | _ => none

theorem Action.step_of_grantOp {a : Action} {op : GrantOp} (h : a.grantOp = some op)
    (db : Database) : (a.step db).2 = op.apply a.now db := by
  obtain ⟨now, op'⟩ := a
  cases op' <;> simp only [Action.grantOp, reduceCtorEq] at h
  rw [Option.some.inj h]
  rfl

/-- **Every step** that is no grant operation. -/
theorem Action.ungranted (a : Action) (db : Database) (hno : a.grantOp = none) :
    Ungranted db (a.step db).2 := by
  obtain ⟨now, op⟩ := a
  cases op with
  | grant op => exact absurd hno (by simp [Action.grantOp])
  | participant op =>
      have he : (op.apply db).adminEvents = db.adminEvents := by rw [(op.edited db).frame]
      have hp : (op.apply db).principalGrants = db.principalGrants := by
        rw [(op.edited db).frame]
      have hd : (op.apply db).delegatedGrants = db.delegatedGrants := by
        rw [(op.edited db).frame]
      exact ⟨he, hp, op.kept db, Or.inl hd⟩
  | channel op =>
      obtain ⟨channels, hch⟩ := op.edited now db
      have hstep : (Action.step ⟨now, .channel op⟩ db).2 = { db with channels } := hch
      rw [hstep]
      exact .of_eq rfl rfl rfl rfl
  | append identity channel kind body replyTo =>
      obtain ⟨channels, hrun⟩ := appendMessage_run now identity channel kind body replyTo db
      simp only [Action.step]
      rw [hrun]
      exact .of_eq rfl rfl rfl rfl
  | navigate participantId channel kind body replyTo nonce =>
      simp only [Action.step]
      cases getWebParticipant db participantId with
      | none => exact .of_eq rfl rfl rfl rfl
      | some identity =>
          simp only
          rcases appendNavigationMessage_cases now identity
              (navigationInput channel kind body replyTo nonce) db with
            ⟨m, -, hw⟩ | ⟨m, -, -, hs⟩ | ⟨hs, -⟩
          · rw [hw.frame]
            exact .of_eq rfl rfl rfl rfl
          · rw [hs]
            exact .of_eq rfl rfl rfl rfl
          · rw [hs]
            exact .of_eq rfl rfl rfl rfl
  | execute participantId request =>
      simp only [Action.step]
      cases getWebParticipant db participantId with
      | none => exact .of_eq rfl rfl rfl rfl
      | some identity =>
          simp only
          rcases executeMessageIntent_cases now identity request db with
            ⟨m, -, hf⟩ | ⟨m, -, hr⟩ | ⟨hs, -⟩
          · have hconsumes := hf.consumes
            rw [hf.frame]
            exact ⟨rfl, rfl, fun _ h => h, hconsumes⟩
          · rw [hr.frame]
            exact .of_eq rfl rfl rfl rfl
          · rw [hs]
            exact .of_eq rfl rfl rfl rfl

end Steps

end Blackboard
