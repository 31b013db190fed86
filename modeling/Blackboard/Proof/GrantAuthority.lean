import Blackboard.Proof.GrantLog
import Blackboard.Proof.GrantScope

/-!
# Who administers grants for others

A remote administrator's operation asks the kernel, in its own transaction, whether the
caller may manage the policy, and asks it without an intent, so no delegated grant can
answer. What it then does to the grant tables it also does to the log: one event for every
row that is new or has another status, under the caller's name.
-/

namespace Blackboard

open Relational (Table TxEnd)

/-! ## Operations of a caller -/

/-- What a remote administrator may ask for. -/
inductive AuthorizedGrantOp where
  | createDurable (request : DurableGrantCreateRequest)
  | deactivateDurable (grantId : Int)
  | createDelegated (request : DelegatedGrantCreateRequest)
  | deactivateDelegated (grantId : Int)

/-- Who asks, and through what. -/
structure Caller where
  surface : String
  principal : Principal
  participantId : String

/-- The operation as the caller's. -/
def AuthorizedGrantOp.by (c : Caller) : AuthorizedGrantOp → GrantOp
  | createDurable request => .createDurableAuthorized c.surface c.principal c.participantId request
  | deactivateDurable grantId =>
      .deactivateDurableAuthorized c.surface c.principal c.participantId grantId
  | createDelegated request =>
      .createDelegatedAuthorized c.surface c.principal c.participantId request
  | deactivateDelegated grantId =>
      .deactivateDelegatedAuthorized c.surface c.principal c.participantId grantId

/-- May the caller manage the policy? -/
def Caller.access (c : Caller) : AccessRequest :=
  ⟨c.principal, c.participantId, manageAuthorizationPolicy, some authorizationPolicyAdminResource,
    none⟩

/-- The actor the caller is recorded as. -/
def Caller.actor (c : Caller) : NormalizedActor :=
  ⟨Text.trim c.surface, some (Text.trim c.principal.provider), some (Text.trim c.principal.subject),
    some (Text.trim c.participantId)⟩

/-! ## Rows and events -/

/-- The grants that are new or have another status. -/
def changedGrants (db db' : Database) : Nat :=
  Table.changed DurableGrant.status db.principalGrants db'.principalGrants
    + Table.changed DelegatedGrant.status db.delegatedGrants db'.delegatedGrants

/-- The event names this actor. -/
structure ByActor (actor : NormalizedActor) (e : AuthorizationAdministrationEvent) : Prop where
  surface : e.actorSurface = actor.surface
  provider : e.actorProvider = actor.provider
  subject : e.actorSubject = actor.subject
  participantId : e.actorParticipantId = actor.participantId

/-- The log has one event more for every changed grant, all of them the actor's. -/
def RecordedBy (actor : NormalizedActor) (db db' : Database) : Prop :=
  ∃ new, db'.adminEvents.rows = db.adminEvents.rows ++ new ∧ new.length = changedGrants db db'
    ∧ ∀ e ∈ new, ByActor actor e

theorem RecordedBy.refl (actor : NormalizedActor) (db : Database) : RecordedBy actor db db := by
  refine ⟨[], (List.append_nil _).symm, ?_, fun e he => absurd he List.not_mem_nil⟩
  unfold changedGrants
  rw [Table.changed_self, Table.changed_self]
  rfl

section Recording

variable {now : Int} {actor : NormalizedActor} {db : Database}

theorem byActor_eventRow (event : AdministrationEvent) (id : Int) :
    ByActor actor (eventRow now actor event id) := ⟨rfl, rfl, rfl, rfl⟩

/-- One event for each id. -/
theorem rows_recordEvents (event : Int → AdministrationEvent) (ids : List Int) (db : Database) :
    ∃ new, (recordEvents now actor event ids db).adminEvents.rows = db.adminEvents.rows ++ new
      ∧ new.length = ids.length ∧ ∀ e ∈ new, ByActor actor e := by
  induction ids generalizing db with
  | nil => exact ⟨[], (List.append_nil _).symm, rfl, fun e he => absurd he List.not_mem_nil⟩
  | cons id ids ih =>
      obtain ⟨new, hrows, hlength, hactor⟩ := ih (recordEvent now actor (event id) db)
      have hone : (recordEvent now actor (event id) db).adminEvents.rows
          = db.adminEvents.rows ++ [eventRow now actor (event id) db.adminEvents.nextId] := rfl
      refine ⟨eventRow now actor (event id) db.adminEvents.nextId :: new, ?_, ?_, ?_⟩
      · rw [recordEvents, hrows, hone, List.append_assoc]
        rfl
      · rw [List.length_cons, List.length_cons, hlength]
      · intro e he
        rcases List.mem_cons.mp he with rfl | he
        · exact byActor_eventRow (event id) _
        · exact hactor e he

/-- One event, for one changed grant. -/
theorem recordedBy_recordEvent {db' : Database} (event : AdministrationEvent)
    (hevents : db'.adminEvents = db.adminEvents) (hchanged : changedGrants db db' = 1) :
    RecordedBy actor db (recordEvent now actor event db') := by
  refine ⟨[eventRow now actor event db'.adminEvents.nextId], ?_, ?_, ?_⟩
  · rw [← hevents]
    rfl
  · exact hchanged.symm
  · intro e he
    rw [List.mem_singleton.mp he]
    exact byActor_eventRow event _

end Recording

/-! ## The transactions -/

section Transactions

variable {now : Int} {actor : NormalizedActor} {db : Database}

theorem createDurableGrantInTx_recorded {request : DurableGrantCreateRequest}
    {ending : TxEnd Database DurableGrantCreateOutcome}
    (h : createDurableGrantInTx now actor request db = .ok ending) :
    ∃ outcome db', ending = .commit outcome db' ∧ RecordedBy actor db db' := by
  unfold createDurableGrantInTx at h
  obtain ⟨_, -, h⟩ := Except.of_bind_eq_ok h
  dsimp only at h
  split at h
  · obtain rfl := Except.ok.inj h
    exact ⟨_, _, rfl, .refl actor db⟩
  · rename_i hnone
    split at h
    · rename_i g hhead
      obtain rfl := Except.ok.inj h
      have hg := List.mem_of_head? hhead
      have hmem := (mem_durableGrantsOfScope.mp hg).1
      have hinactive : g.status ≠ "active" := by
        simpa using List.find?_eq_none.mp hnone g hg
      refine ⟨_, _, rfl, recordedBy_recordEvent _ rfl ?_⟩
      unfold changedGrants
      rw [Table.changed_update, Table.count_eq_one_of_some (Table.find_of_mem hmem),
        Table.changed_self]
      intro row hrow hid
      obtain rfl : row = g := Table.eq_of_key hrow hmem (of_decide_eq_true hid)
      exact hinactive.symm
    · obtain rfl := Except.ok.inj h
      refine ⟨_, _, rfl, recordedBy_recordEvent _ rfl ?_⟩
      unfold changedGrants insertDurableGrant
      rw [Table.changed_append, Table.changed_self]

theorem deactivateDurableGrantInTx_recorded {grantId : Int}
    {ending : TxEnd Database (Option GrantDeactivateOutcome)}
    (h : deactivateDurableGrantInTx now actor grantId db = .ok ending) :
    ∃ outcome db', ending = .commit outcome db' ∧ RecordedBy actor db db' := by
  unfold deactivateDurableGrantInTx at h
  split at h
  · exact absurd h (by simp)
  · split at h
    · obtain rfl := Except.ok.inj h
      exact ⟨_, _, rfl, .refl actor db⟩
    · obtain rfl := Except.ok.inj h
      refine ⟨_, _, rfl, ?_⟩
      generalize hevent : (fun id => _ : Int → AdministrationEvent) = event
      generalize hids : List.map DurableGrant.id _ = ids
      generalize hdb' : ({ db with principalGrants := _ } : Database) = db'
      obtain ⟨new, hrows, hlength, hactor⟩ := @rows_recordEvents now actor event ids db'
      obtain ⟨events, hframe⟩ := recordEvents_frame now actor event ids db'
      refine ⟨new, ?_, ?_, hactor⟩
      · rw [hrows, ← hdb']
      · -- the events are as many as the rows that were selected
        rw [hlength, hframe, ← hids, ← hdb']
        unfold changedGrants
        rw [Table.changed_update, Table.changed_self, Table.count, List.countP_eq_length_filter,
          List.length_map]
        · exact (List.perm_insertionSort _ _).length_eq
        · intro row _ hselected
          exact (of_decide_eq_true hselected).2.2.2.2.2.symm

theorem createDelegatedGrantInTx_recorded {request : DelegatedGrantCreateRequest}
    {ending : TxEnd Database DelegatedGrantCreateOutcome}
    (h : createDelegatedGrantInTx now actor request db = .ok ending) :
    ∃ outcome db', ending = .commit outcome db' ∧ RecordedBy actor db db' := by
  unfold createDelegatedGrantInTx at h
  obtain ⟨_, -, h⟩ := Except.of_bind_eq_ok h
  dsimp only at h
  split at h
  · obtain ⟨_, hno, -⟩ := Except.of_bind_eq_ok h
    exact absurd hno (by simp)
  · obtain rfl := Except.ok.inj h
    refine ⟨_, _, rfl, recordedBy_recordEvent _ rfl ?_⟩
    unfold changedGrants insertDelegatedGrant
    rw [Table.changed_append, Table.changed_self]

theorem deactivateDelegatedGrantInTx_recorded {grantId : Int}
    {ending : TxEnd Database (Option GrantDeactivateOutcome)}
    (h : deactivateDelegatedGrantInTx now actor grantId db = .ok ending) :
    ∃ outcome db', ending = .commit outcome db' ∧ RecordedBy actor db db' := by
  unfold deactivateDelegatedGrantInTx at h
  split at h
  · exact absurd h (by simp)
  · split at h
    · obtain rfl := Except.ok.inj h
      exact ⟨_, _, rfl, .refl actor db⟩
    · rename_i scope hfind
      dsimp only at h
      have hchanged : changedGrants db { db with
          delegatedGrants := db.delegatedGrants.update
            (fun g => decide (g.id = grantId ∧ g.status ≠ "inactive"))
            (fun row => { row with status := "inactive" }) (fun _ => rfl) }
          = db.delegatedGrants.count fun g => decide (g.id = grantId ∧ g.status ≠ "inactive") := by
        unfold changedGrants
        rw [Table.changed_self, Table.changed_update, Nat.zero_add]
        intro row _ hselected
        exact (of_decide_eq_true hselected).2.symm
      split at h
      · rename_i hone
        obtain rfl := Except.ok.inj h
        exact ⟨_, _, rfl, recordedBy_recordEvent _ rfl (hchanged.trans hone)⟩
      · -- the id selects no other row, so none was selected
        rename_i hne
        obtain rfl := Except.ok.inj h
        have hle : (db.delegatedGrants.count fun g =>
            decide (g.id = grantId ∧ g.status ≠ "inactive")) ≤ 1 := by
          rw [← Table.count_eq_one_of_some hfind]
          refine List.countP_mono_left fun g _ hselected => ?_
          exact decide_eq_true (of_decide_eq_true hselected).1
        refine ⟨_, _, rfl, [], (List.append_nil _).symm, ?_, fun e he => absurd he List.not_mem_nil⟩
        rw [hchanged]
        simp only [List.length_nil]
        omega

end Transactions

/-! ## Names -/

/-- The names a caller's are compared with have no blanks around them. -/
structure NamesTrimmed (db : Database) : Prop where
  durable : ∀ g ∈ db.principalGrants, Text.trim g.principalProvider = g.principalProvider
    ∧ Text.trim g.principalSubject = g.principalSubject
  participants : ∀ p ∈ db.webParticipants, Text.trim p.participantId = p.participantId

/-- What `normalize` answers is what it was given, without the blanks around it. -/
theorem eq_trim_of_normalize {value normal : String} {maxBytes : Nat} {field : String}
    (h : normalize value maxBytes field = .ok normal) : normal = Text.trim value := by
  unfold normalize normalizeText at h
  dsimp only at h
  split at h
  · rename_i value' hvalue
    split at hvalue
    · exact absurd hvalue (by simp)
    · exact (Except.ok.inj h).symm.trans (Option.some.inj hvalue).symm
  · exact absurd h (by simp)

theorem trimmed_of_normalizeDurable {raw request : DurableGrantCreateRequest}
    (h : normalizeDurableGrantCreateRequest raw = .ok request) :
    Text.trim request.principalProvider = request.principalProvider
      ∧ Text.trim request.principalSubject = request.principalSubject := by
  unfold normalizeDurableGrantCreateRequest at h
  obtain ⟨provider, hprovider, h⟩ := Except.of_bind_eq_ok h
  obtain ⟨subject, hsubject, h⟩ := Except.of_bind_eq_ok h
  obtain ⟨participantId, -, h⟩ := Except.of_bind_eq_ok h
  obtain ⟨capability, -, h⟩ := Except.of_bind_eq_ok h
  dsimp only at h
  split at h
  · obtain ⟨_, hno, -⟩ := Except.of_bind_eq_ok h
    exact absurd hno (by simp)
  · obtain ⟨resource, -, h⟩ := Except.of_bind_eq_ok h
    obtain rfl := Except.ok.inj h
    dsimp only
    rw [eq_trim_of_normalize hprovider, eq_trim_of_normalize hsubject, Text.trim_trim,
      Text.trim_trim]
    exact ⟨rfl, rfl⟩

theorem namesTrimmed_initial : NamesTrimmed Database.initial :=
  ⟨fun _ h => absurd h (Table.not_mem_empty _), fun _ h => absurd h (Table.not_mem_empty _)⟩

/-- A new status is not a new name. -/
theorem NamesTrimmed.setDurableStatus {now : Int} {db : Database} (h : NamesTrimmed db) (id : Int)
    (status : String) : NamesTrimmed (setDurableStatus now id status db) := by
  refine ⟨fun g' hg' => ?_, h.participants⟩
  simp only [Blackboard.setDurableStatus] at hg'
  rw [Table.mem_update] at hg'
  obtain ⟨g, hg, rfl⟩ := hg'
  split
  · exact h.durable g hg
  · exact h.durable g hg

theorem GrantEffect.namesTrimmed {now : Int} {db db' : Database}
    {creation : Option DelegatedGrantCreateRequest} (heffect : GrantEffect now db creation db')
    (h : NamesTrimmed db) : NamesTrimmed db' := by
  cases heffect with
  | nothing => exact h
  | createDurable actor raw request normal participant fresh =>
      refine ⟨fun g hg => ?_, h.participants⟩
      rcases Table.mem_append.mp hg with hold | rfl
      · exact h.durable g hold
      · exact trimmed_of_normalizeDurable normal
  | reactivate actor g mem inactive =>
      have hset := @NamesTrimmed.setDurableStatus now db h g.id "active"
      exact ⟨hset.durable, hset.participants⟩
  | deactivateDurable actor g mem active =>
      have hset := @NamesTrimmed.setDurableStatus now db h g.id "inactive"
      exact ⟨hset.durable, hset.participants⟩
  | createDelegated actor raw request asked normal participant => exact ⟨h.durable, h.participants⟩
  | deactivateDelegated actor g mem active => exact ⟨h.durable, h.participants⟩

theorem updateWebParticipant_trimmed {participantId : String}
    {set : WebParticipant → WebParticipant} {hset} {db : Database} (h : NamesTrimmed db) :
    NamesTrimmed (updateWebParticipant participantId set hset db) := by
  refine ⟨h.durable, fun p' hp' => ?_⟩
  simp only [updateWebParticipant] at hp'
  rw [Table.mem_update] at hp'
  obtain ⟨p, hp, rfl⟩ := hp'
  split
  · rw [hset]
    exact h.participants p hp
  · exact h.participants p hp

theorem ParticipantOp.namesTrimmed (op : ParticipantOp) {db : Database} (h : NamesTrimmed db) :
    NamesTrimmed (op.apply db) := by
  cases op with
  | provision participantId source label =>
      simp only [ParticipantOp.apply, provisionWebParticipantIdentity]
      split
      · rename_i id source label hid _ _
        split
        · exact h
        · split
          · exact h
          · rename_i webParticipants hinsert
            obtain ⟨-, hmem, -⟩ := Table.of_tryInsert hinsert
            refine ⟨h.durable, fun p hp => ?_⟩
            rcases (hmem p).mp hp with hold | rfl
            · exact h.participants p hold
            · unfold validateParticipantId at hid
              split at hid
              · obtain rfl := Option.some.inj hid
                exact Text.trim_trim participantId
              · exact absurd hid (by simp)
      · exact h
  | setRole participantId role =>
      simp only [ParticipantOp.apply, setWebParticipantRole]
      split
      · exact h
      · exact updateWebParticipant_trimmed h
  | setStatus participantId status =>
      simp only [ParticipantOp.apply, setWebParticipantStatus]
      split
      · exact h
      · exact updateWebParticipant_trimmed h
  | setOwner participantId provider subject login =>
      simp only [ParticipantOp.apply, setParticipantOwner]
      split
      · exact h
      · exact updateWebParticipant_trimmed h
  | clearOwner participantId =>
      simp only [ParticipantOp.apply, clearParticipantOwner]
      split
      · exact h
      · exact updateWebParticipant_trimmed h

/-! ## Callers -/

/-- What an accepted operation of a caller went through. -/
structure Administered (c : Caller) (now : Int) (db db' : Database) : Prop where
  allowed : (c.access.decision now db).allowed = true
  /-- The caller's own authority, or a durable grant: nothing that was delegated. -/
  source : (c.access.decision now db).source = .principalGrants
    ∨ (c.access.decision now db).source = .implicitAuthority
  /-- One event for every changed grant, under the caller's name without the blanks around it. -/
  recorded : RecordedBy c.actor db db'
  /-- There are no blanks around it where the store's own names have none. -/
  verbatim : NamesTrimmed db → c.actor = ⟨Text.trim c.surface, some c.principal.provider,
    some c.principal.subject, some c.participantId⟩

/-- The actor is recorded without the blanks around its texts. -/
theorem normalizeActor_caller {c : Caller} {normal : NormalizedActor}
    (h : normalizeActor ⟨c.surface, some c.principal, some c.participantId⟩ = .ok normal) :
    normal = c.actor := by
  unfold normalizeActor at h
  obtain ⟨surface, hsurface, h⟩ := Except.of_bind_eq_ok h
  dsimp only at h
  obtain ⟨provider, hprovider, h⟩ := Except.of_bind_eq_ok h
  obtain ⟨subject, hsubject, h⟩ := Except.of_bind_eq_ok h
  obtain ⟨named, hnamed, h⟩ := Except.of_bind_eq_ok h
  obtain rfl := Except.ok.inj hnamed
  obtain ⟨participant?, hparticipant, h⟩ := Except.of_bind_eq_ok h
  obtain rfl := Except.ok.inj h
  have hid : participant? = some (Text.trim c.participantId) := by
    unfold requireParticipantId validateParticipantId at hparticipant
    split at hparticipant
    · rename_i valid hvalid
      split at hvalid
      · obtain rfl := Option.some.inj hvalid
        exact (Except.ok.inj hparticipant).symm
      · exact absurd hvalid (by simp)
    · exact absurd hparticipant (by simp [Except.map])
  unfold Caller.actor
  rw [hid, eq_trim_of_normalize hsurface, eq_trim_of_normalize hprovider,
    eq_trim_of_normalize hsubject]

/-- Without an intent, what is allowed is allowed by durable or implicit authority. -/
theorem source_without_intent {q : AccessRequest} {now : Int} {db : Database}
    (hintent : q.intentId = none) (h : (q.decision now db).allowed = true) :
    (q.decision now db).source = .principalGrants
      ∨ (q.decision now db).source = .implicitAuthority := by
  obtain ⟨-, hgrounds⟩ := grounds_of_allowed h
  generalize q.decision now db = d at hgrounds
  cases hgrounds with
  | durable g hg held covers => exact Or.inl rfl
  | implicit row reason hrow hreason hnone => exact Or.inr rfl
  | replay g intentId hg held hsome =>
      rw [hintent] at hsome
      exact absurd hsome (by simp)
  | delegated g intentId hg held hsome =>
      rw [hintent] at hsome
      exact absurd hsome (by simp)

/-- Only an administrator's own browser session may manage the policy with no grant for it. -/
theorem human_of_implicit_manage {principal : Principal} {participantId : String}
    {resource : Option String} {row : ParticipantPolicyRow} {reason : DecisionReason}
    (h : implicitAuthorityReason principal participantId manageAuthorizationPolicy resource row
      = some reason) :
    principal.provider = "human-web" ∧ principal.subject = participantId := by
  have hlookup : humanWebAdminCapabilities.lookup manageAuthorizationPolicy
      = some (authorizationPolicyAdminResource,
        .implicitHumanWebAdminAuthorizationAdministration) := by decide +kernel
  have hown : ownCapabilities.contains manageAuthorizationPolicy = false := by decide +kernel
  unfold implicitAuthorityReason at h
  rw [hlookup, hown] at h
  dsimp only at h
  split at h
  · rename_i hself
    split at h
    · rename_i hadmin
      exact ⟨hadmin.1.1, hself.2⟩
    · exact absurd h (by simp)
  · exact absurd h (by simp)

/-- A caller the kernel allows is named as the store has it. -/
theorem Caller.actor_eq {c : Caller} {now : Int} {db : Database} (hnames : NamesTrimmed db)
    (h : (c.access.decision now db).allowed = true) :
    c.actor = ⟨Text.trim c.surface, some c.principal.provider, some c.principal.subject,
      some c.participantId⟩ := by
  obtain ⟨⟨p, hp, hid, -⟩, hgrounds⟩ := grounds_of_allowed h
  have hparticipant : Text.trim c.participantId = c.participantId := by
    have hpid : p.participantId = c.participantId := hid
    rw [← hpid]
    exact hnames.participants p hp
  have hprincipal : Text.trim c.principal.provider = c.principal.provider
      ∧ Text.trim c.principal.subject = c.principal.subject := by
    generalize c.access.decision now db = d at hgrounds
    cases hgrounds with
    | durable g hg held covers =>
        have hprovider : g.principalProvider = c.principal.provider := held.1
        have hsubject : g.principalSubject = c.principal.subject := held.2.1
        rw [← hprovider, ← hsubject]
        exact hnames.durable g hg
    | implicit row reason hrow hreason hnone =>
        obtain ⟨hprovider, hsubject⟩ := human_of_implicit_manage hreason
        have hsubject' : c.principal.subject = c.participantId := hsubject
        rw [show c.principal.provider = "human-web" from hprovider, hsubject']
        exact ⟨by decide +kernel, hparticipant⟩
    | replay g intentId hg held hsome => exact absurd hsome (by simp [Caller.access])
    | delegated g intentId hg held hsome => exact absurd hsome (by simp [Caller.access])
  unfold Caller.actor
  rw [hprincipal.1, hprincipal.2, hparticipant]

section Callers

variable {α : Type} {now : Int} {db : Database} {c : Caller}
  {body : NormalizedActor → Database → Except String (TxEnd Database α)}

theorem isOk_eq_true {ε : Type} {x : Except ε α} (h : x.isOk = true) : ∃ a, x = .ok a := by
  cases x with
  | ok a => exact ⟨a, rfl⟩
  | error e => exact absurd h (by simp [Except.isOk, Except.toBool])

/-- **A caller's operation**, from what its body records. -/
theorem administered_of_body
    (hbody : ∀ actor ending, body actor db = .ok ending →
      ∃ a db', ending = .commit a db' ∧ RecordedBy actor db db')
    (h : (administerAuthorized now c.surface c.principal c.participantId body db).1.isOk = true) :
    Administered c now db
      (administerAuthorized now c.surface c.principal c.participantId body db).2 := by
  have hcommits : ∀ actor ending, body actor db = .ok ending → ∃ a db', ending = .commit a db' := by
    intro actor ending hend
    obtain ⟨a, db', heq, -⟩ := hbody actor ending hend
    exact ⟨a, db', heq⟩
  obtain ⟨a, ha⟩ := isOk_eq_true h
  have heq : administerAuthorized now c.surface c.principal c.participantId body db
      = (.ok a, (administerAuthorized now c.surface c.principal c.participantId body db).2) :=
    Prod.ext ha rfl
  obtain ⟨normal, hnormal, hallowed, hrun⟩ := of_administerAuthorized_eq hcommits heq
  obtain ⟨_, _, hend, hrecorded⟩ := hbody normal _ hrun
  obtain ⟨-, hdb⟩ := TxEnd.commit.inj hend
  rw [← hdb, normalizeActor_caller hnormal] at hrecorded
  have hdecision : (c.access.decision now db).allowed = true := hallowed
  exact ⟨hdecision, source_without_intent rfl hdecision, hrecorded,
    fun hnames => Caller.actor_eq hnames hdecision⟩

end Callers

section Runs

variable [Sha256]

/-- A step that is no participant operation and no grant operation leaves the participants. -/
theorem Action.participants_eq {a : Action} (hgrant : a.grantOp = none)
    (hparticipant : ∀ op, a.op ≠ .participant op) (db : Database) :
    (a.step db).2.webParticipants = db.webParticipants := by
  obtain ⟨now, op⟩ := a
  cases op with
  | grant op => exact absurd hgrant (by simp [Action.grantOp])
  | participant op => exact absurd rfl (hparticipant op)
  | channel op =>
      obtain ⟨channels, hdb⟩ := op.edited now db
      rw [show (Action.step ⟨now, .channel op⟩ db).2 = { db with channels } from hdb]
  | append identity channel kind body replyTo =>
      obtain ⟨channels, hdb⟩ := appendMessage_run now identity channel kind body replyTo db
      have hstep : (Action.step ⟨now, .append identity channel kind body replyTo⟩ db).2
          = ((appendMessage identity channel kind body replyTo).run ⟨db, now⟩).2.db := rfl
      rw [hstep, hdb]
  | navigate participantId channel kind body replyTo nonce =>
      simp only [Action.step]
      cases getWebParticipant db participantId with
      | none => rfl
      | some identity =>
          dsimp only
          rcases appendNavigationMessage_cases now identity
              (navigationInput channel kind body replyTo nonce) db with
            ⟨m, -, hw⟩ | ⟨m, -, -, hdb⟩ | ⟨hdb, -⟩
          · rw [hw.frame]
          · rw [hdb]
          · rw [hdb]
  | execute participantId request =>
      simp only [Action.step]
      cases getWebParticipant db participantId with
      | none => rfl
      | some identity =>
          dsimp only
          rcases executeMessageIntent_cases now identity request db with
            ⟨m, -, hf⟩ | ⟨m, -, hr⟩ | ⟨hdb, -⟩
          · rw [hf.frame]
          · rw [hr.frame]
          · rw [hdb]

theorem namesTrimmed_step (db : Database) (a : Action) (hi : LogInv db) (h : NamesTrimmed db) :
    NamesTrimmed (a.step db).2 := by
  cases hop : a.grantOp with
  | some op =>
      rw [Action.step_of_grantOp hop]
      exact (op.effect hi.grants a.now).namesTrimmed h
  | none =>
      by_cases hparticipant : ∃ op, a.op = .participant op
      · obtain ⟨op, hop⟩ := hparticipant
        have hstep : (a.step db).2 = op.apply db := by
          unfold Action.step
          rw [hop]
        rw [hstep]
        exact op.namesTrimmed h
      · have hsame := Action.participants_eq hop
          (fun op hop => hparticipant ⟨op, hop⟩) db
        refine ⟨?_, ?_⟩
        · rw [(a.ungranted db hop).durable]
          exact h.durable
        · rw [hsame]
          exact h.participants

/-- **Names are trimmed** in every store a run reaches. -/
theorem namesTrimmed_stateAfter (actions : List Action) : NamesTrimmed (stateAfter actions) := by
  have hinv := Transition.inv_run_of_forall (I := fun db => LogInv db ∧ NamesTrimmed db)
    (P := fun _ => True)
    (fun db a h _ => ⟨logInv_step db a h.1, namesTrimmed_step db a h.1 h.2⟩)
    ⟨logInv_initial, namesTrimmed_initial⟩ (fun (_ : Action) (_ : _ ∈ actions) => trivial)
  exact hinv.2

end Runs

/-- **Authorised administration**, in every store, for every caller and request: what is denied or
fails changes nothing, and what goes through was allowed by the kernel and is in the log. -/
structure AuthorizedAdministration (now : Int) (db : Database) (c : Caller)
    (op : AuthorizedGrantOp) : Prop where
  rejected : (op.by c).accepted now db = false → (op.by c).apply now db = db
  accepted : (op.by c).accepted now db = true → Administered c now db ((op.by c).apply now db)

theorem authorizedAdministration (now : Int) (db : Database) (c : Caller)
    (op : AuthorizedGrantOp) : AuthorizedAdministration now db c op where
  rejected := fun h => GrantOp.apply_of_rejected h
  accepted := by
    intro h
    cases op with
    | createDurable request =>
        simp only [AuthorizedGrantOp.by, GrantOp.accepted, GrantOp.apply,
          createDurableGrantAuthorized] at h ⊢
        split at h
        · exact absurd h (by simp [Except.isOk, Except.toBool])
        · exact absurd h (by simp [Except.isOk, Except.toBool])
        · exact administered_of_body (fun _ _ hend => createDurableGrantInTx_recorded hend) h
    | deactivateDurable grantId =>
        exact administered_of_body (fun _ _ hend => deactivateDurableGrantInTx_recorded hend) h
    | createDelegated request =>
        simp only [AuthorizedGrantOp.by, GrantOp.accepted, GrantOp.apply,
          createDelegatedGrantAuthorized] at h ⊢
        split at h
        · exact absurd h (by simp [Except.isOk, Except.toBool])
        · exact absurd h (by simp [Except.isOk, Except.toBool])
        · exact administered_of_body (fun _ _ hend => createDelegatedGrantInTx_recorded hend) h
    | deactivateDelegated grantId =>
        exact administered_of_body (fun _ _ hend => deactivateDelegatedGrantInTx_recorded hend) h

end Blackboard
