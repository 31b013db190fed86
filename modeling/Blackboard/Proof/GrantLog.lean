import Blackboard.Proof.GrantEffect

/-!
# The administration event log

What the log says of a grant and what the grant tables say is one thing: the events of a
grant, in the order of their ids, are a path from nothing to the grant as it stands
(`LogInv`), by the only three transitions there are (`Lifecycle`). A grant operation adds
one transition to one path or does nothing, and no other operation adds any. How the
events of a grant follow each other is then a fact about paths, not about operations.
-/

namespace Blackboard

open Relational (Table transaction orderBy)
open Transition (Path)

/-! ## What the log is about -/

/-- What a grant is for, and whether it counts. -/
structure Standing where
  scope : GrantScope
  status : String

def DurableGrant.standing (g : DurableGrant) : Standing := ⟨g.scope, g.status⟩

def DelegatedGrant.standing (g : DelegatedGrant) : Standing := ⟨g.scope, g.status⟩

/-- The grant an event means by its store and its id. -/
def grantStanding (db : Database) (store : String) (id : Int) : Option Standing :=
  if store = "durable" then (db.principalGrants.find id).map DurableGrant.standing
  else if store = "delegated" then (db.delegatedGrants.find id).map DelegatedGrant.standing
  else none

/-- The status alone. -/
def grantStatus (db : Database) (store : String) (id : Int) : Option String :=
  (grantStanding db store id).map Standing.status

def AuthorizationAdministrationEvent.scope (e : AuthorizationAdministrationEvent) : GrantScope :=
  ⟨e.targetPrincipalProvider, e.targetPrincipalSubject, e.participantId, e.capability, e.resource,
    e.intentId, e.expiresAt, decide (e.oneShot ≠ 0)⟩

/-- The events of one grant, in the order of their ids. -/
def eventsOf (db : Database) (store : String) (id : Int) : List AuthorizationAdministrationEvent :=
  orderBy (fun a b => a.id ≤ b.id)
    (db.adminEvents.rows.filter fun e => decide (e.grantStore = store ∧ e.grantId = id))

/-- The life of a grant. -/
inductive Lifecycle :
    Option Standing → AuthorizationAdministrationEvent → Option Standing → Prop
  | create {e : AuthorizationAdministrationEvent} (operation : e.operation = "create")
      (before : e.beforeStatus = none) (after : e.afterStatus = "active") :
      Lifecycle none e (some ⟨e.scope, "active"⟩)
  | deactivate {e : AuthorizationAdministrationEvent} (operation : e.operation = "deactivate")
      (before : e.beforeStatus = some "active") (after : e.afterStatus = "inactive") :
      Lifecycle (some ⟨e.scope, "active"⟩) e (some ⟨e.scope, "inactive"⟩)
  | reactivate {e : AuthorizationAdministrationEvent} (operation : e.operation = "reactivate")
      (before : e.beforeStatus = some "inactive") (after : e.afterStatus = "active") :
      Lifecycle (some ⟨e.scope, "inactive"⟩) e (some ⟨e.scope, "active"⟩)

namespace Lifecycle

variable {e : AuthorizationAdministrationEvent} {s t : Option Standing}

theorem beforeStatus_eq (h : Lifecycle s e t) : e.beforeStatus = s.map Standing.status := by
  cases h with
  | create operation before after => exact before
  | deactivate operation before after => exact before
  | reactivate operation before after => exact before

theorem standing_eq (h : Lifecycle s e t) : t = some ⟨e.scope, e.afterStatus⟩ := by
  cases h with
  | create operation before after => rw [after]
  | deactivate operation before after => rw [after]
  | reactivate operation before after => rw [after]

theorem create_iff (h : Lifecycle s e t) : e.operation = "create" ↔ s = none := by
  cases h with
  | create operation before after => exact ⟨fun _ => rfl, fun _ => operation⟩
  | deactivate operation before after => rw [operation]; simp
  | reactivate operation before after => rw [operation]; simp

/-- What is done to a grant that is there depends on its status. -/
theorem operation_eq {standing : Standing} (h : Lifecycle (some standing) e t) :
    e.operation = if standing.status = "active" then "deactivate" else "reactivate" := by
  cases h with
  | deactivate operation before after => rw [operation, if_pos rfl]
  | reactivate operation before after => rw [operation, if_neg (show ¬ "inactive" = "active" by decide)]

theorem afterStatus_eq (h : Lifecycle s e t) :
    e.afterStatus = if e.operation = "deactivate" then "inactive" else "active" := by
  cases h with
  | create operation before after => rw [operation, after, if_neg (by decide)]
  | deactivate operation before after => rw [operation, after, if_pos rfl]
  | reactivate operation before after => rw [operation, after, if_neg (by decide)]

/-- No transition leaves the status as it was. -/
theorem changes (h : Lifecycle s e t) : e.beforeStatus ≠ some e.afterStatus := by
  cases h with
  | create operation before after => rw [before]; simp
  | deactivate operation before after => rw [before, after]; simp
  | reactivate operation before after => rw [before, after]; simp

/-- A grant keeps its scope. -/
theorem scope_eq {standing : Standing} (h : Lifecycle (some standing) e t) :
    standing.scope = e.scope := by
  cases h with
  | deactivate operation before after => rfl
  | reactivate operation before after => rfl

end Lifecycle

/-! ## What follows for the events of a grant -/

/-- The events of a grant explain what it is for and how it stands. -/
structure Explained (scope : GrantScope) (status : String)
    (events : List AuthorizationAdministrationEvent) : Prop where
  /-- They start with the creation and have no other. -/
  created : ∃ first rest, events = first :: rest ∧ first.operation = "create"
    ∧ first.beforeStatus = none ∧ ∀ e ∈ rest, e.operation ≠ "create"
  /-- Each starts from the status the one before it left. -/
  chained : events.IsChain fun e e' => e'.beforeStatus = some e.afterStatus
  /-- Deactivations and reactivations alternate. -/
  alternating : events.IsChain fun e e' =>
    e'.operation = if e.operation = "deactivate" then "reactivate" else "deactivate"
  /-- The last one left the status the grant has. -/
  last : ∃ e, events.getLast? = some e ∧ e.afterStatus = status
  /-- All of them are about the scope the grant has. -/
  sameScope : ∀ e ∈ events, e.scope = scope

section Paths

variable {events : List AuthorizationAdministrationEvent} {s t : Option Standing}

/-- No life leads back to nothing. -/
theorem eq_nil_of_path_none (h : Path Lifecycle s events none) : events = [] := by
  rcases List.eq_nil_or_concat events with hnil | ⟨front, e, rfl⟩
  · exact hnil
  · rw [List.concat_eq_append] at h
    obtain ⟨s', hlast⟩ := h.last (l := e) (by simp)
    exact absurd hlast.standing_eq (by simp)

/-- The events of a grant that is there are no creations, and all about its scope. -/
theorem rest_of_path {standing : Standing} (h : Path Lifecycle (some standing) events t) :
    (∀ e ∈ events, e.operation ≠ "create" ∧ e.scope = standing.scope)
      ∧ ∃ standing', t = some standing' ∧ standing'.scope = standing.scope := by
  generalize hs : some standing = s at h
  induction h generalizing standing with
  | nil s => exact ⟨fun e he => absurd he List.not_mem_nil, standing, hs.symm, rfl⟩
  | cons head tail ih =>
      subst hs
      have hscope := head.scope_eq
      obtain ⟨hall, standing', ht, hsame⟩ := ih head.standing_eq.symm
      refine ⟨fun e he => ?_, standing', ht, hsame.trans hscope.symm⟩
      rcases List.mem_cons.mp he with rfl | he
      · exact ⟨fun hcreate => absurd (head.create_iff.mp hcreate) (by simp), hscope.symm⟩
      · exact ⟨(hall e he).1, (hall e he).2.trans hscope.symm⟩

/-- **Paths explain.** -/
theorem explained_of_path {standing : Standing} (h : Path Lifecycle none events (some standing)) :
    Explained standing.scope standing.status events := by
  cases events with
  | nil => cases h
  | cons first rest =>
      have hpairs := h.isChain
      have hlast : ∃ e, (first :: rest).getLast? = some e :=
        Option.isSome_iff_exists.mp (by simp)
      obtain ⟨e, he⟩ := hlast
      obtain ⟨s, hle⟩ := h.last he
      cases h with
      | cons head tail =>
          have hcreate := head.create_iff.mpr rfl
          have hnone := head.beforeStatus_eq
          have hstanding := head.standing_eq
          subst hstanding
          obtain ⟨hrest, standing', heq, hscope⟩ := rest_of_path tail
          obtain rfl := Option.some.inj heq
          refine ⟨⟨first, rest, rfl, hcreate, hnone, fun e he => (hrest e he).1⟩, ?_, ?_,
            ⟨e, he, ?_⟩, fun e he => ?_⟩
          · refine hpairs.imp fun a b hab => ?_
            obtain ⟨r, t, v, ha, hb⟩ := hab
            rw [hb.beforeStatus_eq, ha.standing_eq]
            rfl
          · refine hpairs.imp fun a b hab => ?_
            obtain ⟨r, t, v, ha, hb⟩ := hab
            rw [ha.standing_eq] at hb
            rw [hb.operation_eq]
            dsimp only
            rw [ha.afterStatus_eq]
            by_cases hdeactivate : a.operation = "deactivate"
            · rw [if_pos hdeactivate, if_pos hdeactivate, if_neg (by decide)]
            · rw [if_neg hdeactivate, if_neg hdeactivate, if_pos rfl]
          · have hstand := hle.standing_eq
            rw [Option.some.injEq] at hstand
            rw [hstand]
          · rcases List.mem_cons.mp he with rfl | he
            · exact hscope.symm
            · exact (hrest e he).2.trans hscope.symm

end Paths

/-! ## One change, one event -/

/-- The event an operation records. -/
def eventRow (now : Int) (actor : NormalizedActor) (event : AdministrationEvent) (id : Int) :
    AuthorizationAdministrationEvent where
  id
  grantStore := event.grantStore
  grantId := event.grantId
  operation := event.operation
  actorSurface := actor.surface
  actorProvider := actor.provider
  actorSubject := actor.subject
  actorParticipantId := actor.participantId
  targetPrincipalProvider := event.scope.principalProvider
  targetPrincipalSubject := event.scope.principalSubject
  participantId := event.scope.participantId
  capability := event.scope.capability
  resource := event.scope.resource
  intentId := event.scope.intentId
  expiresAt := event.scope.expiresAt
  oneShot := if event.scope.oneShot then 1 else 0
  beforeStatus := event.beforeStatus
  afterStatus := event.afterStatus
  createdAt := now

variable {now : Int} {actor : NormalizedActor} {db db' : Database}

theorem recordEvent_eq (event : AdministrationEvent) :
    recordEvent now actor event db
      = { db with adminEvents := db.adminEvents.append (eventRow now actor event) fun _ => rfl } :=
  rfl

@[simp] theorem eventRow_scope (event : AdministrationEvent) (id : Int) :
    (eventRow now actor event id).scope = event.scope := by
  unfold AuthorizationAdministrationEvent.scope eventRow
  cases h : event.scope.oneShot <;> simp [← h]

/-- A step that writes one event, about the one grant it changes. -/
structure Logged (db db' : Database) (e : AuthorizationAdministrationEvent) : Prop where
  events : ∃ (mk : Int → AuthorizationAdministrationEvent) (hmk : ∀ id, (mk id).id = id),
    e = mk db.adminEvents.nextId ∧ db'.adminEvents = db.adminEvents.append mk hmk
  lifecycle : Lifecycle (grantStanding db e.grantStore e.grantId) e (some ⟨e.scope, e.afterStatus⟩)
  standing : ∀ store id, grantStanding db' store id
    = if store = e.grantStore ∧ id = e.grantId then some ⟨e.scope, e.afterStatus⟩
      else grantStanding db store id

theorem grantStanding_durable (id : Int) :
    grantStanding db "durable" id = (db.principalGrants.find id).map DurableGrant.standing :=
  if_pos rfl

theorem grantStanding_delegated (id : Int) :
    grantStanding db "delegated" id = (db.delegatedGrants.find id).map DelegatedGrant.standing := by
  rw [grantStanding, if_neg (by decide), if_pos rfl]

/-- A change of one durable grant. -/
theorem grantStanding_of_durable {id : Int} {standing : Standing}
    (hdel : db'.delegatedGrants = db.delegatedGrants)
    (hfind : ∀ k, (db'.principalGrants.find k).map DurableGrant.standing
      = if k = id then some standing else (db.principalGrants.find k).map DurableGrant.standing)
    (store : String) (k : Int) :
    grantStanding db' store k
      = if store = "durable" ∧ k = id then some standing else grantStanding db store k := by
  by_cases hs : store = "durable"
  · subst hs
    rw [grantStanding_durable, grantStanding_durable, hfind]
    by_cases hk : k = id
    · rw [if_pos hk, if_pos ⟨rfl, hk⟩]
    · rw [if_neg hk, if_neg fun h => hk h.2]
  · rw [if_neg fun h => hs h.1]
    unfold grantStanding
    rw [if_neg hs, if_neg hs, hdel]

/-- A change of one delegated grant. -/
theorem grantStanding_of_delegated {id : Int} {standing : Standing}
    (hdur : db'.principalGrants = db.principalGrants)
    (hfind : ∀ k, (db'.delegatedGrants.find k).map DelegatedGrant.standing
      = if k = id then some standing else (db.delegatedGrants.find k).map DelegatedGrant.standing)
    (store : String) (k : Int) :
    grantStanding db' store k
      = if store = "delegated" ∧ k = id then some standing else grantStanding db store k := by
  by_cases hs : store = "delegated"
  · subst hs
    rw [grantStanding_delegated, grantStanding_delegated, hfind]
    by_cases hk : k = id
    · rw [if_pos hk, if_pos ⟨rfl, hk⟩]
    · rw [if_neg hk, if_neg fun h => hk h.2]
  · rw [if_neg fun h => hs h.1]
    unfold grantStanding
    rw [if_neg hs, if_neg hs, hdur]

theorem find_nextId_eq_none {ρ : Type} {key : ρ → Int} (t : Table key) : t.find t.nextId = none :=
  Table.find_eq_none_iff.mpr fun _ hr => Int.ne_of_lt (Table.lt_nextId hr)

theorem standing_setDurableStatus {g : DurableGrant} (hg : g ∈ db.principalGrants) (status : String)
    (store : String) (k : Int) :
    grantStanding (setDurableStatus now g.id status db) store k
      = if store = "durable" ∧ k = g.id then some ⟨g.scope, status⟩
        else grantStanding db store k := by
  refine grantStanding_of_durable ?_ (fun k => ?_) store k
  · rfl
  · unfold setDurableStatus
    rw [Table.find_update]
    by_cases hk : k = g.id
    · rw [hk, Table.find_of_mem hg, if_pos rfl]
      simp [DurableGrant.standing, DurableGrant.scope]
    · rw [if_neg hk]
      cases hf : db.principalGrants.find k with
      | none => rfl
      | some row =>
          have hne : row.id ≠ g.id := fun h => hk ((Table.key_of_find hf).symm.trans h)
          simp [hne]

theorem standing_setDelegatedInactive {g : DelegatedGrant} (hg : g ∈ db.delegatedGrants)
    (hactive : g.status = "active") (store : String) (k : Int) :
    grantStanding (setDelegatedInactive g.id db) store k
      = if store = "delegated" ∧ k = g.id then some ⟨g.scope, "inactive"⟩
        else grantStanding db store k := by
  refine grantStanding_of_delegated ?_ (fun k => ?_) store k
  · rfl
  · unfold setDelegatedInactive
    rw [Table.find_update]
    by_cases hk : k = g.id
    · rw [hk, Table.find_of_mem hg, if_pos rfl]
      simp [DelegatedGrant.standing, DelegatedGrant.scope, hactive]
    · rw [if_neg hk]
      cases hf : db.delegatedGrants.find k with
      | none => rfl
      | some row =>
          have hne : row.id ≠ g.id := fun h => hk ((Table.key_of_find hf).symm.trans h)
          simp [hne]

theorem standing_insertDurableGrant (request : DurableGrantCreateRequest) (store : String)
    (k : Int) :
    grantStanding (insertDurableGrant now request db).2 store k
      = if store = "durable" ∧ k = db.principalGrants.nextId then
          some ⟨durableScope request, "active"⟩
        else grantStanding db store k := by
  refine grantStanding_of_durable ?_ (fun k => ?_) store k
  · rfl
  · simp only [insertDurableGrant]
    rw [Table.find_append]
    by_cases hk : k = db.principalGrants.nextId
    · rw [if_pos hk, if_pos hk.symm]
      rfl
    · rw [if_neg hk, if_neg fun h => hk h.symm]

theorem standing_insertDelegatedGrant (request : DelegatedGrantCreateRequest) (store : String)
    (k : Int) :
    grantStanding (insertDelegatedGrant request db).2 store k
      = if store = "delegated" ∧ k = db.delegatedGrants.nextId then
          some ⟨request.scope, "active"⟩
        else grantStanding db store k := by
  refine grantStanding_of_delegated ?_ (fun k => ?_) store k
  · rfl
  · simp only [insertDelegatedGrant]
    rw [Table.find_append]
    by_cases hk : k = db.delegatedGrants.nextId
    · rw [if_pos hk, if_pos hk.symm]
      cases ho : request.oneShot <;>
        simp [DelegatedGrant.standing, DelegatedGrant.scope, DelegatedGrantCreateRequest.scope, ho]
    · rw [if_neg hk, if_neg fun h => hk h.symm]

/-- An event recorded about a change, when the change and the event say the same. -/
theorem logged_of_recorded {event : AdministrationEvent} {db₁ : Database}
    (hevents : db₁.adminEvents = db.adminEvents)
    (hlife : ∀ e : AuthorizationAdministrationEvent, e.operation = event.operation →
      e.beforeStatus = event.beforeStatus → e.afterStatus = event.afterStatus →
      e.scope = event.scope →
      Lifecycle (grantStanding db event.grantStore event.grantId) e
        (some ⟨e.scope, e.afterStatus⟩))
    (hstanding : ∀ store k, grantStanding db₁ store k
      = if store = event.grantStore ∧ k = event.grantId then some ⟨event.scope, event.afterStatus⟩
        else grantStanding db store k) :
    Logged db (recordEvent now actor event db₁)
      (eventRow now actor event db.adminEvents.nextId) := by
  rw [recordEvent_eq]
  refine ⟨⟨eventRow now actor event, fun _ => rfl, rfl, ?_⟩, ?_, fun store k => ?_⟩
  · dsimp only
    rw [hevents]
  · exact hlife _ rfl rfl rfl (eventRow_scope event _)
  · rw [eventRow_scope]
    exact hstanding store k

/-- **A grant operation logs what it does.** -/
theorem GrantEffect.logged {creation : Option DelegatedGrantCreateRequest}
    (h : GrantEffect now db creation db') : db' = db ∨ ∃ e, Logged db db' e := by
  cases h with
  | nothing => exact Or.inl rfl
  | createDurable actor raw request normal participant fresh =>
      refine Or.inr ⟨_, logged_of_recorded rfl ?_ (standing_insertDurableGrant request)⟩
      intro e hoperation hbefore hafter hscope
      rw [grantStanding_durable, find_nextId_eq_none, hafter]
      exact .create hoperation hbefore hafter
  | reactivate actor g mem inactive =>
      refine Or.inr ⟨_, logged_of_recorded rfl ?_ (standing_setDurableStatus mem "active")⟩
      intro e hoperation hbefore hafter hscope
      have hstands : g.standing = ⟨e.scope, "inactive"⟩ := by
        rw [hscope, DurableGrant.standing, inactive]
      rw [grantStanding_durable, Table.find_of_mem mem, Option.map_some, hstands, hafter]
      exact .reactivate hoperation hbefore hafter
  | deactivateDurable actor g mem active =>
      refine Or.inr ⟨_, logged_of_recorded rfl ?_ (standing_setDurableStatus mem "inactive")⟩
      intro e hoperation hbefore hafter hscope
      have hstands : g.standing = ⟨e.scope, "active"⟩ := by
        rw [hscope, DurableGrant.standing, active]
      rw [grantStanding_durable, Table.find_of_mem mem, Option.map_some, hstands, hafter]
      exact .deactivate hoperation hbefore hafter
  | createDelegated actor raw request asked normal participant =>
      refine Or.inr ⟨_, logged_of_recorded rfl ?_ (standing_insertDelegatedGrant request)⟩
      intro e hoperation hbefore hafter hscope
      rw [grantStanding_delegated, find_nextId_eq_none, hafter]
      exact .create hoperation hbefore hafter
  | deactivateDelegated actor g mem active =>
      refine Or.inr ⟨_, logged_of_recorded rfl ?_ (standing_setDelegatedInactive mem active)⟩
      intro e hoperation hbefore hafter hscope
      have hstands : g.standing = ⟨e.scope, "active"⟩ := by
        rw [hscope, DelegatedGrant.standing, active]
      rw [grantStanding_delegated, Table.find_of_mem mem, Option.map_some, hstands, hafter]
      exact .deactivate hoperation hbefore hafter

/-! ## The invariant -/

/-- **The log and the tables agree.** -/
structure LogInv (db : Database) : Prop where
  grants : GrantsInv db
  ascending : db.adminEvents.Ascending
  paths : ∀ store id, Path Lifecycle none (eventsOf db store id) (grantStanding db store id)

theorem logInv_initial : LogInv Database.initial where
  grants := ⟨fun _ h => absurd h (Table.not_mem_empty _), fun _ h => absurd h (Table.not_mem_empty _),
    fun _ h => absurd h (Table.not_mem_empty _)⟩
  ascending := Table.ascending_empty
  paths := by
    intro store id
    have hnone : grantStanding Database.initial store id = none := by
      unfold grantStanding
      split
      · rfl
      · split <;> rfl
    rw [hnone]
    exact .nil none

theorem eventsOf_of_ascending (h : db.adminEvents.Ascending) (store : String) (id : Int) :
    eventsOf db store id
      = db.adminEvents.rows.filter fun e => decide (e.grantStore = store ∧ e.grantId = id) :=
  Relational.orderBy_filter_of_ascending h _

/-- A logged step adds its event to the events of its grant. -/
theorem Logged.eventsOf_eq {e : AuthorizationAdministrationEvent} (h : Logged db db' e)
    (ha : db.adminEvents.Ascending) (store : String) (id : Int) :
    db'.adminEvents.Ascending ∧ eventsOf db' store id
      = eventsOf db store id ++ if store = e.grantStore ∧ id = e.grantId then [e] else [] := by
  obtain ⟨mk, hmk, he, hevents⟩ := h.events
  have ha' : db'.adminEvents.Ascending := by
    rw [hevents]
    exact ha.append
  refine ⟨ha', ?_⟩
  rw [eventsOf_of_ascending ha', eventsOf_of_ascending ha, hevents, Table.rows_append,
    List.filter_append, ← he]
  congr 1
  by_cases hmatch : store = e.grantStore ∧ id = e.grantId
  · have hselected : decide (e.grantStore = store ∧ e.grantId = id) = true := by
      rw [decide_eq_true_eq]
      exact ⟨hmatch.1.symm, hmatch.2.symm⟩
    rw [if_pos hmatch, List.filter_singleton, hselected, cond_true]
  · have hother : decide (e.grantStore = store ∧ e.grantId = id) = false := by
      rw [decide_eq_false_iff_not]
      exact fun hboth => hmatch ⟨hboth.1.symm, hboth.2.symm⟩
    rw [if_neg hmatch, List.filter_singleton, hother, cond_false]

theorem Logged.logInv {e : AuthorizationAdministrationEvent} (h : Logged db db' e)
    (hg : GrantsInv db') (hi : LogInv db) : LogInv db' := by
  refine ⟨hg, (h.eventsOf_eq hi.ascending e.grantStore e.grantId).1, fun store id => ?_⟩
  rw [(h.eventsOf_eq hi.ascending store id).2, h.standing]
  by_cases hmatch : store = e.grantStore ∧ id = e.grantId
  · -- the path of the grant goes one transition further
    rw [if_pos hmatch, if_pos hmatch, hmatch.1, hmatch.2]
    exact (hi.paths e.grantStore e.grantId).snoc h.lifecycle
  · rw [if_neg hmatch, if_neg hmatch, List.append_nil]
    exact hi.paths store id

theorem GrantConsumed.standing {consumed : Option Int} {intentId : String}
    {t t' : Table DelegatedGrant.id} (h : GrantConsumed now consumed intentId t t') (id : Int) :
    (t'.find id).map DelegatedGrant.standing = (t.find id).map DelegatedGrant.standing := by
  cases hf : t.find id with
  | none =>
      have hnone : t'.find id = none := by
        rw [Table.find_eq_none_iff]
        intro g' hg'
        obtain ⟨g, hg, rfl⟩ := (h.mem g').mp hg'
        have hne := Table.find_eq_none_iff.mp hf g hg
        split <;> exact hne
      rw [hnone]
  | some g =>
      have hg' := (h.mem _).mpr ⟨g, Table.mem_of_find hf, rfl⟩
      have hid := Table.key_of_find hf
      have hfind := Table.find_of_mem hg'
      split at hfind
      · rw [show t'.find id = some _ from hid ▸ hfind]
        rfl
      · rw [show t'.find id = some g from hid ▸ hfind]

/-- Consumption is not a matter of the log. -/
theorem Ungranted.standing (h : Ungranted db db') (store : String) (id : Int) :
    grantStanding db' store id = grantStanding db store id := by
  have hdelegated : (db'.delegatedGrants.find id).map DelegatedGrant.standing
      = (db.delegatedGrants.find id).map DelegatedGrant.standing := by
    rcases h.delegated with hsame | ⟨now, consumed, intentId, hconsumed, -⟩
    · rw [hsame]
    · exact hconsumed.standing id
  unfold grantStanding
  rw [h.durable, hdelegated]

theorem Ungranted.logInv (h : Ungranted db db') (hi : LogInv db) : LogInv db' := by
  refine ⟨⟨?_, ?_, fun g' hg' => ?_⟩, by rw [h.events]; exact hi.ascending, fun store id => ?_⟩
  · rw [h.durable]
    exact hi.grants.unique
  · rw [h.durable]
    exact hi.grants.durable
  · have hfind := h.standing "delegated" g'.id
    rw [grantStanding_delegated, grantStanding_delegated, Table.find_of_mem hg',
      Option.map_some] at hfind
    obtain ⟨g, hg, hstanding⟩ := Option.map_eq_some_iff.mp hfind.symm
    have hstatus : g.status = g'.status := congrArg Standing.status hstanding
    rw [← hstatus]
    exact hi.grants.delegated g (Table.mem_of_find hg)
  · have hevents : eventsOf db' store id = eventsOf db store id := by
      unfold eventsOf
      rw [h.events]
    rw [h.standing, hevents]
    exact hi.paths store id

/-! ## Every step -/

section Steps

variable [Sha256]

theorem logInv_step (db : Database) (a : Action) (hi : LogInv db) : LogInv (a.step db).2 := by
  cases hop : a.grantOp with
  | none => exact (a.ungranted db hop).logInv hi
  | some op =>
      rw [Action.step_of_grantOp hop]
      have heffect := op.effect hi.grants a.now
      rcases heffect.logged with hsame | ⟨e, hlogged⟩
      · rw [hsame]
        exact hi
      · exact hlogged.logInv (heffect.grantsInv hi.grants) hi

theorem logInv_stateAfter (actions : List Action) : LogInv (stateAfter actions) :=
  Transition.inv_run_of_forall (P := fun _ => True) (fun db a h _ => logInv_step db a h)
    logInv_initial fun _ _ => trivial

/-! ## The log explains the grants -/

/-- Whether a grant operation was accepted, if only to find nothing to do. -/
def GrantOp.accepted (now : Int) (db : Database) : GrantOp → Bool
  | createDurable actor request => (Blackboard.createDurableGrant now actor request db).1.isOk
  | deactivateDurable actor grantId =>
      (Blackboard.deactivateDurableGrant now actor grantId db).1.isOk
  | createDelegated actor request => (Blackboard.createDelegatedGrant now actor request db).1.isOk
  | deactivateDelegated actor grantId =>
      (Blackboard.deactivateDelegatedGrant now actor grantId db).1.isOk
  | createDurableAuthorized surface caller participantId request =>
      (Blackboard.createDurableGrantAuthorized now surface caller participantId request db).1.isOk
  | deactivateDurableAuthorized surface caller participantId grantId =>
      (Blackboard.deactivateDurableGrantAuthorized now surface caller participantId grantId db).1.isOk
  | createDelegatedAuthorized surface caller participantId request =>
      (Blackboard.createDelegatedGrantAuthorized now surface caller participantId request db).1.isOk
  | deactivateDelegatedAuthorized surface caller participantId grantId =>
      (Blackboard.deactivateDelegatedGrantAuthorized now surface caller participantId grantId
        db).1.isOk

omit [Sha256] in
/-- **A rejected operation changes nothing.** -/
theorem GrantOp.apply_of_rejected {op : GrantOp} (h : op.accepted now db = false) :
    op.apply now db = db := by
  cases op with
  | createDurable actor request => exact Relational.transaction_of_not_ok h
  | deactivateDurable actor grantId => exact Relational.transaction_of_not_ok h
  | createDelegated actor request => exact Relational.transaction_of_not_ok h
  | deactivateDelegated actor grantId => exact Relational.transaction_of_not_ok h
  | createDurableAuthorized surface caller participantId request =>
      simp only [GrantOp.accepted, GrantOp.apply, createDurableGrantAuthorized] at h ⊢
      split
      · rfl
      · rfl
      · rename_i hactor hnormal
        rw [hactor, hnormal] at h
        exact Relational.transaction_of_not_ok h
  | deactivateDurableAuthorized surface caller participantId grantId =>
      exact Relational.transaction_of_not_ok h
  | createDelegatedAuthorized surface caller participantId request =>
      simp only [GrantOp.accepted, GrantOp.apply, createDelegatedGrantAuthorized] at h ⊢
      split
      · rfl
      · rfl
      · rename_i hactor hnormal
        rw [hactor, hnormal] at h
        exact Relational.transaction_of_not_ok h
  | deactivateDelegatedAuthorized surface caller participantId grantId =>
      exact Relational.transaction_of_not_ok h

/-- What the log and the grant tables say of each other, in one state. -/
structure GrantsExplained (db : Database) : Prop where
  durable : ∀ g ∈ db.principalGrants, Explained g.scope g.status (eventsOf db "durable" g.id)
  delegated : ∀ g ∈ db.delegatedGrants, Explained g.scope g.status (eventsOf db "delegated" g.id)
  /-- No event is about a grant that is not there. -/
  known : ∀ e ∈ db.adminEvents, (grantStanding db e.grantStore e.grantId).isSome
  /-- A scope has one durable grant, a missing resource counting as one. -/
  unique : ∀ g ∈ db.principalGrants, ∀ h ∈ db.principalGrants,
    g.principalProvider = h.principalProvider → g.principalSubject = h.principalSubject →
    g.participantId = h.participantId → g.capability = h.capability → g.resource = h.resource →
    g = h

/-- The step wrote one event and changed the status of one grant, the one the event names. -/
def OneChange (db db' : Database) : Prop :=
  ∃ e, db'.adminEvents.rows = db.adminEvents.rows ++ [e]
    ∧ ∀ store id, grantStatus db' store id ≠ grantStatus db store id
      ↔ store = e.grantStore ∧ id = e.grantId

/-- What a step does to the log and to the grants. -/
structure LoggedStep (e : Happening) : Prop where
  /-- A grant operation changes one grant and says so, or changes nothing at all. -/
  operation : ∀ op, e.act.grantOp = some op → e.after = e.before ∨ OneChange e.before e.after
  rejected : ∀ op, e.act.grantOp = some op → op.accepted e.act.now e.before = false →
    e.after = e.before
  /-- Nothing else writes events, or changes what a grant is for or its status. -/
  other : e.act.grantOp = none → e.after.adminEvents = e.before.adminEvents
    ∧ ∀ store id, grantStanding e.after store id = grantStanding e.before store id

omit [Sha256] in
theorem LogInv.explained (hi : LogInv db) : GrantsExplained db where
  durable := by
    intro g hg
    have hpath := hi.paths "durable" g.id
    rw [grantStanding_durable, Table.find_of_mem hg] at hpath
    exact explained_of_path hpath
  delegated := by
    intro g hg
    have hpath := hi.paths "delegated" g.id
    rw [grantStanding_delegated, Table.find_of_mem hg] at hpath
    exact explained_of_path hpath
  known := by
    intro e he
    rw [Option.isSome_iff_ne_none]
    intro hnone
    have hpath := hi.paths e.grantStore e.grantId
    rw [hnone] at hpath
    have hmem : e ∈ eventsOf db e.grantStore e.grantId := by
      unfold eventsOf
      rw [Relational.mem_orderBy, List.mem_filter]
      exact ⟨he, by simp⟩
    rw [eq_nil_of_path_none hpath] at hmem
    exact absurd hmem List.not_mem_nil
  unique := by
    intro g hg h hh hprovider hsubject hparticipant hcapability hresource
    refine hi.grants.unique g hg h hh ?_
    exact DurableGrant.scope_eq_scope_iff.mpr
      ⟨hprovider, hsubject, hparticipant, hcapability, hresource⟩

omit [Sha256] in
theorem Logged.oneChange {e : AuthorizationAdministrationEvent} (h : Logged db db' e) :
    OneChange db db' := by
  obtain ⟨mk, hmk, he, hevents⟩ := h.events
  refine ⟨e, by rw [hevents, Table.rows_append, he], fun store id => ?_⟩
  unfold grantStatus
  rw [h.standing]
  by_cases hmatch : store = e.grantStore ∧ id = e.grantId
  · rw [if_pos hmatch, hmatch.1, hmatch.2, ← h.lifecycle.beforeStatus_eq]
    exact ⟨fun _ => ⟨rfl, rfl⟩, fun _ heq => h.lifecycle.changes heq.symm⟩
  · rw [if_neg hmatch]
    exact ⟨fun hne => absurd rfl hne, fun hboth => absurd hboth hmatch⟩

theorem LogInv.loggedStep (hi : LogInv db) (a : Action) :
    LoggedStep ⟨db, a, (a.step db).1, (a.step db).2⟩ where
  operation := by
    intro op hop
    have hstep := Action.step_of_grantOp hop db
    rcases (op.effect hi.grants a.now).logged with hsame | ⟨e, hlogged⟩
    · exact Or.inl (hstep.trans hsame)
    · refine Or.inr ?_
      rw [hstep]
      exact hlogged.oneChange
  rejected := by
    intro op hop hno
    rw [Action.step_of_grantOp hop]
    exact GrantOp.apply_of_rejected hno
  other := by
    intro hno
    have hun := a.ungranted db hno
    exact ⟨hun.events, hun.standing⟩

/-- **The event log explains the grant tables**, after every run, and every step of a run keeps the
books: one event for one change, none where nothing changed. -/
theorem grantLog (actions : List Action) :
    GrantsExplained (stateAfter actions) ∧ ∀ e ∈ happenings actions, LoggedStep e := by
  refine ⟨(logInv_stateAfter actions).explained, fun e he => ?_⟩
  obtain ⟨pre, post, -, hbefore⟩ := Transition.before_eq_run he
  have hi : LogInv e.before := by
    rw [hbefore]
    exact logInv_stateAfter pre
  have hstep := hi.loggedStep e.act
  rw [Transition.step_of_mem he] at hstep
  exact hstep

end Steps

end Blackboard
