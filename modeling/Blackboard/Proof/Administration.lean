import Blackboard.Model.System
import Blackboard.Proof.Execute

/-!
# What administration can do

Grant operations touch the two grant tables and the event log and nothing else: they add
grants whose principal has a name, and change nothing of a grant but its status
(`GrantsEdited`). Participant operations touch the participants, channel operations the
channels, a plain append the channels and the messages. The lemmas about the system only
ever use these.
-/

namespace Blackboard

open Relational (Table TxEnd transaction)

/-! ## Names -/

/-- A principal whose provider and subject say something. -/
def Named (provider subject : String) : Prop :=
  Text.isBlank provider = false ∧ Text.isBlank subject = false

theorem not_isBlank_of_normalizeText {value normal : String} {maxBytes : Nat}
    (h : normalizeText value maxBytes = some normal) : Text.isBlank normal = false := by
  simp only [normalizeText] at h
  split at h
  · exact absurd h (by simp)
  · rename_i hok
    simp only [not_or] at hok
    rw [Option.some.injEq] at h
    subst h
    rw [Text.isBlank_trim]
    unfold Text.isBlank
    rw [List.isEmpty_eq_false_iff]
    exact fun hnil => hok.1 (String.toList_inj.mp hnil)

theorem not_isBlank_of_normalize {value normal : String} {maxBytes : Nat} {field : String}
    (h : normalize value maxBytes field = .ok normal) : Text.isBlank normal = false := by
  unfold normalize at h
  split at h
  · rename_i value' hvalue
    rw [Except.ok.injEq] at h
    subst h
    exact not_isBlank_of_normalizeText hvalue
  · exact absurd h (by simp)

/-- A step of an `Except` computation that went through. -/
theorem Except.of_bind_eq_ok {ε α β : Type} {x : Except ε α} {f : α → Except ε β} {b : β}
    (h : x >>= f = .ok b) : ∃ a, x = .ok a ∧ f a = .ok b := by
  cases x with
  | error e => exact absurd h (by simp [bind, Except.bind])
  | ok a => exact ⟨a, rfl, h⟩

theorem named_of_normalizeDurable {request normal : DurableGrantCreateRequest}
    (h : normalizeDurableGrantCreateRequest request = .ok normal) :
    Named normal.principalProvider normal.principalSubject := by
  unfold normalizeDurableGrantCreateRequest at h
  obtain ⟨provider, hprovider, h⟩ := Except.of_bind_eq_ok h
  obtain ⟨subject, hsubject, h⟩ := Except.of_bind_eq_ok h
  obtain ⟨participantId, -, h⟩ := Except.of_bind_eq_ok h
  obtain ⟨capability, -, h⟩ := Except.of_bind_eq_ok h
  have hnormal : normal.principalProvider = provider ∧ normal.principalSubject = subject := by
    split at h
    · obtain ⟨_, hno, -⟩ := Except.of_bind_eq_ok h
      exact absurd hno (by simp)
    · obtain ⟨resource, -, h⟩ := Except.of_bind_eq_ok h
      obtain rfl := Except.ok.inj h
      exact ⟨rfl, rfl⟩
  rw [hnormal.1, hnormal.2]
  exact ⟨not_isBlank_of_normalize hprovider, not_isBlank_of_normalize hsubject⟩

theorem named_of_normalizeDelegated {request normal : DelegatedGrantCreateRequest}
    (h : normalizeDelegatedGrantCreateRequest request = .ok normal) :
    Named normal.principalProvider normal.principalSubject := by
  unfold normalizeDelegatedGrantCreateRequest at h
  obtain ⟨provider, hprovider, h⟩ := Except.of_bind_eq_ok h
  obtain ⟨subject, hsubject, h⟩ := Except.of_bind_eq_ok h
  obtain ⟨participantId, -, h⟩ := Except.of_bind_eq_ok h
  obtain ⟨capability, -, h⟩ := Except.of_bind_eq_ok h
  obtain ⟨resource, -, h⟩ := Except.of_bind_eq_ok h
  have hnormal : normal.principalProvider = provider ∧ normal.principalSubject = subject := by
    dsimp only at h
    split at h
    · obtain rfl := Except.ok.inj h
      exact ⟨rfl, rfl⟩
    · split at h
      · obtain rfl := Except.ok.inj h
        exact ⟨rfl, rfl⟩
      · exact absurd h (by simp [bind, Except.bind])
  rw [hnormal.1, hnormal.2]
  exact ⟨not_isBlank_of_normalize hprovider, not_isBlank_of_normalize hsubject⟩

/-! ## Grants -/

/-- A grant before and after an operation: only its status may have changed. -/
def SameGrant (g g' : DelegatedGrant) : Prop := g' = { g with status := g'.status }

theorem SameGrant.refl (g : DelegatedGrant) : SameGrant g g := rfl

/-- A grant nobody has used, of a principal with a name. -/
structure FreshGrant (g : DelegatedGrant) : Prop where
  named : Named g.principalProvider g.principalSubject
  unconsumed : g.consumedAt = none ∧ g.consumedIntentId = none

/-- What a grant operation can do. -/
structure GrantsEdited (db db' : Database) : Prop where
  frame : db' = { db with
    principalGrants := db'.principalGrants, delegatedGrants := db'.delegatedGrants
    adminEvents := db'.adminEvents }
  durable : ∀ g' ∈ db'.principalGrants, Named g'.principalProvider g'.principalSubject
    ∨ ∃ g ∈ db.principalGrants, g'.principalProvider = g.principalProvider
      ∧ g'.principalSubject = g.principalSubject
  kept : ∀ g ∈ db.delegatedGrants, ∃ g' ∈ db'.delegatedGrants, SameGrant g g'
  delegated : ∀ g' ∈ db'.delegatedGrants, FreshGrant g' ∨ ∃ g ∈ db.delegatedGrants, SameGrant g g'

theorem GrantsEdited.refl (db : Database) : GrantsEdited db db :=
  ⟨rfl, fun g hg => Or.inr ⟨g, hg, rfl, rfl⟩, fun g hg => ⟨g, hg, rfl⟩,
    fun g hg => Or.inr ⟨g, hg, rfl⟩⟩

theorem recordEvents_frame (now : Int) (actor : NormalizedActor)
    (event : Int → AdministrationEvent) (ids : List Int) (db : Database) :
    ∃ rows, recordEvents now actor event ids db = { db with adminEvents := rows } := by
  induction ids generalizing db with
  | nil => exact ⟨db.adminEvents, rfl⟩
  | cons id ids ih =>
      obtain ⟨rows, hrows⟩ := ih (recordEvent now actor (event id) db)
      exact ⟨rows, hrows⟩

variable {now : Int} {actor : NormalizedActor} {db : Database}

theorem createDurableGrantInTx_edited {request : DurableGrantCreateRequest}
    {outcome : DurableGrantCreateOutcome} {db' : Database}
    (hnamed : Named request.principalProvider request.principalSubject)
    (h : createDurableGrantInTx now actor request db = .ok (.commit outcome db')) :
    GrantsEdited db db' := by
  unfold createDurableGrantInTx at h
  obtain ⟨_, -, h⟩ := Except.of_bind_eq_ok h
  simp only [insertDurableGrant, recordEvent] at h
  split at h
  · obtain ⟨-, rfl⟩ := TxEnd.commit.inj (Except.ok.inj h)
    exact GrantsEdited.refl db
  · split at h
    · obtain ⟨-, rfl⟩ := TxEnd.commit.inj (Except.ok.inj h)
      refine ⟨rfl, fun g' hg' => ?_, fun g hg => ⟨g, hg, rfl⟩, fun g hg => Or.inr ⟨g, hg, rfl⟩⟩
      rw [Table.mem_update] at hg'
      obtain ⟨g, hg, rfl⟩ := hg'
      refine Or.inr ⟨g, hg, ?_⟩
      split <;> exact ⟨rfl, rfl⟩
    · obtain ⟨-, rfl⟩ := TxEnd.commit.inj (Except.ok.inj h)
      refine ⟨rfl, fun g' hg' => ?_, fun g hg => ⟨g, hg, rfl⟩, fun g hg => Or.inr ⟨g, hg, rfl⟩⟩
      rcases Table.mem_append.mp hg' with hg | rfl
      · exact Or.inr ⟨g', hg, rfl, rfl⟩
      · exact Or.inl hnamed

theorem deactivateDurableGrantInTx_edited {grantId : Int}
    {outcome : Option GrantDeactivateOutcome} {db' : Database}
    (h : deactivateDurableGrantInTx now actor grantId db = .ok (.commit outcome db')) :
    GrantsEdited db db' := by
  unfold deactivateDurableGrantInTx at h
  split at h
  · exact absurd h (by simp)
  · split at h
    · obtain ⟨-, rfl⟩ := TxEnd.commit.inj (Except.ok.inj h)
      exact GrantsEdited.refl db
    · obtain ⟨-, rfl⟩ := TxEnd.commit.inj (Except.ok.inj h)
      obtain ⟨rows, hrows⟩ := recordEvents_frame now actor _ _ _
      rw [hrows]
      dsimp only
      refine ⟨rfl, fun g' hg' => ?_, fun g hg => ⟨g, hg, rfl⟩, fun g hg => Or.inr ⟨g, hg, rfl⟩⟩
      rw [Table.mem_update] at hg'
      obtain ⟨g, hg, rfl⟩ := hg'
      refine Or.inr ⟨g, hg, ?_⟩
      split <;> exact ⟨rfl, rfl⟩

theorem createDelegatedGrantInTx_edited {request : DelegatedGrantCreateRequest}
    {outcome : DelegatedGrantCreateOutcome} {db' : Database}
    (hnamed : Named request.principalProvider request.principalSubject)
    (h : createDelegatedGrantInTx now actor request db = .ok (.commit outcome db')) :
    GrantsEdited db db' := by
  unfold createDelegatedGrantInTx at h
  obtain ⟨_, -, h⟩ := Except.of_bind_eq_ok h
  simp only [insertDelegatedGrant, recordEvent] at h
  split at h
  · obtain ⟨_, hno, -⟩ := Except.of_bind_eq_ok h
    exact absurd hno (by simp)
  · obtain ⟨-, rfl⟩ := TxEnd.commit.inj (Except.ok.inj h)
    refine ⟨rfl, fun g hg => Or.inr ⟨g, hg, rfl, rfl⟩,
      fun g hg => ⟨g, Table.mem_append.mpr (Or.inl hg), rfl⟩, fun g' hg' => ?_⟩
    rcases Table.mem_append.mp hg' with hg | rfl
    · exact Or.inr ⟨g', hg, rfl⟩
    · exact Or.inl ⟨hnamed, rfl, rfl⟩

theorem deactivateDelegatedGrantInTx_edited {grantId : Int}
    {outcome : Option GrantDeactivateOutcome} {db' : Database}
    (h : deactivateDelegatedGrantInTx now actor grantId db = .ok (.commit outcome db')) :
    GrantsEdited db db' := by
  simp only [deactivateDelegatedGrantInTx, recordEvent] at h
  split at h
  · exact absurd h (by simp)
  · split at h
    · obtain ⟨-, rfl⟩ := TxEnd.commit.inj (Except.ok.inj h)
      exact GrantsEdited.refl db
    · -- whether an event is recorded or not, the grants are the same
      have hedit : ∀ events, GrantsEdited db { db with
          delegatedGrants := db.delegatedGrants.update
            (fun g => decide (g.id = grantId ∧ g.status ≠ "inactive"))
            (fun row => { row with status := "inactive" }) (fun _ => rfl)
          adminEvents := events } := by
        intro events
        refine ⟨rfl, fun g hg => Or.inr ⟨g, hg, rfl, rfl⟩, fun g hg =>
          ⟨if decide (g.id = grantId ∧ g.status ≠ "inactive") then { g with status := "inactive" }
            else g, ?_, ?_⟩, fun g' hg' => ?_⟩
        · rw [Table.mem_update]
          exact ⟨g, hg, rfl⟩
        · split <;> rfl
        · rw [Table.mem_update] at hg'
          obtain ⟨g, hg, rfl⟩ := hg'
          refine Or.inr ⟨g, hg, ?_⟩
          split <;> rfl
      split at h
      · obtain ⟨-, rfl⟩ := TxEnd.commit.inj (Except.ok.inj h)
        exact hedit _
      · obtain ⟨-, rfl⟩ := TxEnd.commit.inj (Except.ok.inj h)
        exact hedit db.adminEvents

/-- What holds before, and of whatever the body of a local operation commits, holds after it. -/
theorem administer_rule {α : Type} {P : Database → Prop} (h₀ : P db)
    {actor : AuthorizationAdministrationActor}
    {body : NormalizedActor → Database → Except String (TxEnd Database α)}
    (h : ∀ actor a db', body actor db = .ok (.commit a db') → P db') :
    P (administer actor body db).2 := by
  refine Relational.transaction_rule h₀ fun a db' hb => ?_
  obtain ⟨actor, -, hb⟩ := Except.of_bind_eq_ok hb
  exact h actor a db' hb

/-- The same for a remote administrator, whom the kernel has allowed it. -/
theorem administerAuthorized_rule {α : Type} {P : Database → Prop} (h₀ : P db) {surface : String}
    {caller : Principal} {callerParticipantId : String}
    {body : NormalizedActor → Database → Except String (TxEnd Database α)}
    (h : ∀ actor a db', body actor db = .ok (.commit a db') → P db') :
    P (administerAuthorized now surface caller callerParticipantId body db).2 := by
  refine Relational.transaction_rule h₀ fun a db' hb => ?_
  obtain ⟨actor, -, hb⟩ := Except.of_bind_eq_ok hb
  dsimp only at hb
  split at hb
  · obtain ⟨_, hno, -⟩ := Except.of_bind_eq_ok hb
    exact absurd hno (by simp)
  · exact h actor a db' hb

/-- The delegated grant an operation asks for. -/
def GrantOp.delegatedCreation : GrantOp → Option DelegatedGrantCreateRequest
  | createDelegated _ request => some request
  | createDelegatedAuthorized _ _ _ request => some request
  | _ => none

/-- **Grant operation rule.** What holds before, and of whatever one of the four transactions
commits, holds after every grant operation, however it was asked for. -/
theorem GrantOp.rule {P : Database → Prop} (now : Int) (op : GrantOp) (h₀ : P db)
    (createDurable : ∀ actor raw request outcome db',
      normalizeDurableGrantCreateRequest raw = .ok request →
      createDurableGrantInTx now actor request db = .ok (.commit outcome db') → P db')
    (deactivateDurable : ∀ actor grantId outcome db',
      deactivateDurableGrantInTx now actor grantId db = .ok (.commit outcome db') → P db')
    (createDelegated : ∀ actor raw request outcome db', op.delegatedCreation = some raw →
      normalizeDelegatedGrantCreateRequest raw = .ok request →
      createDelegatedGrantInTx now actor request db = .ok (.commit outcome db') → P db')
    (deactivateDelegated : ∀ actor grantId outcome db',
      deactivateDelegatedGrantInTx now actor grantId db = .ok (.commit outcome db') → P db') :
    P (op.apply now db) := by
  cases op with
  | createDurable actor raw =>
      refine administer_rule h₀ fun actor a db' hb => ?_
      obtain ⟨request, hnormal, hb⟩ := Except.of_bind_eq_ok hb
      exact createDurable actor raw request a db' hnormal hb
  | deactivateDurable actor grantId =>
      exact administer_rule h₀ fun actor a db' => deactivateDurable actor grantId a db'
  | createDelegated actor raw =>
      refine administer_rule h₀ fun actor a db' hb => ?_
      obtain ⟨request, hnormal, hb⟩ := Except.of_bind_eq_ok hb
      exact createDelegated actor raw request a db' rfl hnormal hb
  | deactivateDelegated actor grantId =>
      exact administer_rule h₀ fun actor a db' => deactivateDelegated actor grantId a db'
  | createDurableAuthorized surface caller callerParticipantId raw =>
      simp only [GrantOp.apply, createDurableGrantAuthorized]
      split
      · exact h₀
      · exact h₀
      · rename_i request _ hnormal
        exact administerAuthorized_rule h₀ fun actor a db' =>
          createDurable actor raw request a db' hnormal
  | deactivateDurableAuthorized surface caller callerParticipantId grantId =>
      exact administerAuthorized_rule h₀ fun actor a db' => deactivateDurable actor grantId a db'
  | createDelegatedAuthorized surface caller callerParticipantId raw =>
      simp only [GrantOp.apply, createDelegatedGrantAuthorized]
      split
      · exact h₀
      · exact h₀
      · rename_i request _ hnormal
        exact administerAuthorized_rule h₀ fun actor a db' =>
          createDelegated actor raw request a db' rfl hnormal
  | deactivateDelegatedAuthorized surface caller callerParticipantId grantId =>
      exact administerAuthorized_rule h₀ fun actor a db' => deactivateDelegated actor grantId a db'

/-- **Grant operations edit grants.** -/
theorem GrantOp.edited (now : Int) (op : GrantOp) (db : Database) :
    GrantsEdited db (op.apply now db) := by
  refine op.rule now (GrantsEdited.refl db) ?_ ?_ ?_ ?_
  · intro actor raw request outcome db' hnormal hb
    exact createDurableGrantInTx_edited (named_of_normalizeDurable hnormal) hb
  · intro actor grantId outcome db' hb
    exact deactivateDurableGrantInTx_edited hb
  · intro actor raw request outcome db' _ hnormal hb
    exact createDelegatedGrantInTx_edited (named_of_normalizeDelegated hnormal) hb
  · intro actor grantId outcome db' hb
    exact deactivateDelegatedGrantInTx_edited hb

/-! ## Participants -/

/-- What a participant operation can do. Ids and owners' subjects are never blank. -/
structure ParticipantsEdited (db db' : Database) : Prop where
  frame : db' = { db with webParticipants := db'.webParticipants }
  ids : ∀ p' ∈ db'.webParticipants, Text.isBlank p'.participantId = false
    ∨ ∃ p ∈ db.webParticipants, p'.participantId = p.participantId
  owners : ∀ p' ∈ db'.webParticipants, ∀ subject, p'.ownerSubject = some subject →
    Text.isBlank subject = false ∨ ∃ p ∈ db.webParticipants, p.ownerSubject = some subject

theorem ParticipantsEdited.refl (db : Database) : ParticipantsEdited db db :=
  ⟨rfl, fun p hp => Or.inr ⟨p, hp, rfl⟩, fun p hp _ hs => Or.inr ⟨p, hp, hs⟩⟩

/-- An update keeps the ids; what it may do to an owner is the caller's to say. -/
theorem updateWebParticipant_edited {participantId : String}
    {set : WebParticipant → WebParticipant} (hset : ∀ row, (set row).participantId = row.participantId)
    (howner : ∀ row subject, (set row).ownerSubject = some subject →
      Text.isBlank subject = false ∨ row.ownerSubject = some subject) (db : Database) :
    ParticipantsEdited db (updateWebParticipant participantId set hset db) := by
  refine ⟨rfl, fun p' hp' => ?_, fun p' hp' subject hs => ?_⟩
  · simp only [updateWebParticipant] at hp'
    rw [Table.mem_update] at hp'
    obtain ⟨p, hp, rfl⟩ := hp'
    refine Or.inr ⟨p, hp, ?_⟩
    split
    · exact hset p
    · rfl
  · simp only [updateWebParticipant] at hp'
    rw [Table.mem_update] at hp'
    obtain ⟨p, hp, rfl⟩ := hp'
    split at hs
    · exact (howner p subject hs).imp_right fun h => ⟨p, hp, h⟩
    · exact Or.inr ⟨p, hp, hs⟩

theorem not_isBlank_of_validateParticipantId {participantId valid : String}
    (h : validateParticipantId participantId = some valid) : Text.isBlank valid = false := by
  unfold validateParticipantId at h
  split at h
  · rename_i htoken
    rw [Option.some.injEq] at h
    subst h
    exact Text.not_isBlank_of_isToken htoken
  · exact absurd h (by simp)

theorem provision_edited (participantId source : String) (label : Option String) (db : Database) :
    ParticipantsEdited db (provisionWebParticipantIdentity participantId source label db).2 := by
  unfold provisionWebParticipantIdentity
  split
  · rename_i id source label hid _ _
    split
    · exact ParticipantsEdited.refl db
    · split
      · exact ParticipantsEdited.refl db
      · rename_i webParticipants hinsert
        obtain ⟨-, hmem, -⟩ := Table.of_tryInsert hinsert
        refine ⟨rfl, fun p' hp' => ?_, fun p' hp' subject hs => ?_⟩
        · rcases (hmem p').mp hp' with hp | rfl
          · exact Or.inr ⟨p', hp, rfl⟩
          · exact Or.inl (not_isBlank_of_validateParticipantId hid)
        · rcases (hmem p').mp hp' with hp | rfl
          · exact Or.inr ⟨p', hp, hs⟩
          · exact absurd hs (by simp [newWebParticipant])
  · exact ParticipantsEdited.refl db

/-- **Participant operations edit participants.** -/
theorem ParticipantOp.edited (op : ParticipantOp) (db : Database) :
    ParticipantsEdited db (op.apply db) := by
  cases op with
  | provision participantId source label => exact provision_edited participantId source label db
  | setRole participantId role =>
      simp only [ParticipantOp.apply, setWebParticipantRole]
      split
      · exact ParticipantsEdited.refl db
      · refine updateWebParticipant_edited _ ?_ db
        exact fun _ _ h => Or.inr h
  | setStatus participantId status =>
      simp only [ParticipantOp.apply, setWebParticipantStatus]
      split
      · exact ParticipantsEdited.refl db
      · refine updateWebParticipant_edited _ ?_ db
        exact fun _ _ h => Or.inr h
  | setOwner participantId provider subject login =>
      simp only [ParticipantOp.apply, setParticipantOwner]
      split
      · exact ParticipantsEdited.refl db
      · rename_i hvalid
        simp only [not_or, Bool.not_eq_true] at hvalid
        refine updateWebParticipant_edited _ (fun row s h => Or.inl ?_) db
        obtain rfl := Option.some.inj h
        rw [Text.isBlank_trim]
        exact hvalid.2.2.1
  | clearOwner participantId =>
      simp only [ParticipantOp.apply, clearParticipantOwner]
      split
      · exact ParticipantsEdited.refl db
      · exact updateWebParticipant_edited _ (fun _ _ h => absurd h (by simp)) db

/-! ## Channels and plain messages -/

/-- **Channel operations edit channels.** -/
theorem ChannelOp.edited (now : Int) (op : ChannelOp) (db : Database) :
    ∃ channels, op.apply now db = { db with channels } := by
  cases op with
  | create channel visibility createdBy =>
      simp only [ChannelOp.apply, createChannel, insertChannel]
      split
      · exact ⟨_, rfl⟩
      · exact ⟨db.channels, rfl⟩
  | update channel visibility status =>
      simp only [ChannelOp.apply, updateChannel]
      split
      · exact ⟨db.channels, rfl⟩
      · split
        · exact ⟨db.channels, rfl⟩
        · split
          · exact ⟨db.channels, rfl⟩
          · exact ⟨_, rfl⟩

/-- A plain append creates the channel if need be and adds one message. -/
theorem appendMessage_run (now : Int) (identity : Identity) (channel kind body : String)
    (replyTo : Option Int) (db : Database) :
    ∃ channels, ((appendMessage identity channel kind body replyTo).run ⟨db, now⟩).2.db
      = { db with
          channels
          messages := db.messages.append (messageRow now identity channel none kind body replyTo)
            (messageRow_id now identity channel none kind body replyTo) } := by
  obtain ⟨channels, hens⟩ := ensureChannel_frame now channel (some identity.inst) db
  refine ⟨channels, ?_⟩
  have hrun : ((appendMessage identity channel kind body replyTo).run ⟨db, now⟩).2.db
      = (insertMessage now identity channel none kind body replyTo
          (ensureChannel now channel (some identity.inst) db)).2 := rfl
  rw [hrun, hens]
  rfl

end Blackboard
