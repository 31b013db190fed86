import Blackboard.Proof.Calls
import Blackboard.Proof.Effects
import Blackboard.Proof.GrantLog
import Blackboard.Proof.PolicyIntegrity

/-!
# The books of the whole server

What holds after every run of operations holds of the store of the server at every moment,
whatever arrives by REST, as a tool call or by webhook, on standard input or at the
machine, and however the transactions of the calls in flight interleave.

The steps are effects now (`Call.May`). Accounts and logins change credentials only, so
they are quiet (`CredentialsEdited`); and whoever executes an intent is somebody the kernel
knows, so no transport has to be asked whether it has checked the participant's name.
-/

namespace Blackboard

open Relational (Table)
open Concurrent (Program)

/-! ## Credentials -/

/-- What of a participant is not a credential. -/
def WebParticipant.withoutCredentials (p : WebParticipant) : WebParticipant :=
  { p with
    totpSecret := none, totpLastStep := none, totpFailCount := 0, totpLockedUntil := none
    authScheme := none, authSecret := none }

/-- What of a participant no login changes. -/
def WebParticipant.withoutCounters (p : WebParticipant) : WebParticipant :=
  { p with totpLastStep := none, totpFailCount := 0, totpLockedUntil := none }

/-- A step that changes nothing but credentials and clients. -/
structure CredentialsEdited (db db' : Database) : Prop where
  frame : db' = { db with webParticipants := db'.webParticipants, identities := db'.identities }
  participants : ∀ id, (db'.webParticipants.find id).map WebParticipant.withoutCredentials
    = (db.webParticipants.find id).map WebParticipant.withoutCredentials

theorem CredentialsEdited.refl (db : Database) : CredentialsEdited db db := ⟨rfl, fun _ => rfl⟩

theorem credentialsEdited_identities {db : Database} (identities : Table ClientIdentity.inst) :
    CredentialsEdited db { db with identities } := ⟨rfl, fun _ => rfl⟩

theorem credentialsEdited_update (participantId : String) {set : WebParticipant → WebParticipant}
    (hset : ∀ row, (set row).participantId = row.participantId)
    (h : ∀ row, (set row).withoutCredentials = row.withoutCredentials) (db : Database) :
    CredentialsEdited db (updateWebParticipant participantId set hset db) := by
  refine ⟨rfl, fun id => ?_⟩
  simp only [updateWebParticipant, Table.find_update]
  cases db.webParticipants.find id with
  | none => rfl
  | some row =>
      simp only [Option.map_some]
      split
      · rw [h]
      · rfl

theorem CredentialsEdited.find {db db' : Database} (h : CredentialsEdited db db') {id : String}
    {p' : WebParticipant} (hp' : db'.webParticipants.find id = some p') :
    ∃ p, db.webParticipants.find id = some p ∧ p'.withoutCredentials = p.withoutCredentials := by
  have hboth := h.participants id
  rw [hp', Option.map_some] at hboth
  obtain ⟨p, hp, heq⟩ := Option.map_eq_some_iff.mp hboth.symm
  exact ⟨p, hp, heq.symm⟩

/-- The kernel does not see a change of credentials. -/
theorem CredentialsEdited.policyRow {db db' : Database} (h : CredentialsEdited db db')
    (participantId : String) :
    participantPolicyRow db' participantId = participantPolicyRow db participantId := by
  have hrow : ∀ p : WebParticipant,
      (⟨p.status, p.role, p.ownerProvider, p.ownerSubject⟩ : ParticipantPolicyRow)
        = ⟨p.withoutCredentials.status, p.withoutCredentials.role,
          p.withoutCredentials.ownerProvider, p.withoutCredentials.ownerSubject⟩ := fun _ => rfl
  have hboth := congrArg (Option.map fun p : WebParticipant =>
    (⟨p.status, p.role, p.ownerProvider, p.ownerSubject⟩ : ParticipantPolicyRow))
      (h.participants participantId)
  simp only [Option.map_map, Function.comp_def, ← hrow] at hboth
  exact hboth

theorem CredentialsEdited.kept {db db' : Database} (h : CredentialsEdited db db') (id : String)
    (hid : (db.webParticipants.find id).isSome) : (db'.webParticipants.find id).isSome := by
  have hboth := congrArg Option.isSome (h.participants id)
  rw [Option.isSome_map, Option.isSome_map] at hboth
  rw [hboth]
  exact hid

theorem CredentialsEdited.quiet {db db' : Database} (h : CredentialsEdited db db') :
    Quiet db db' := by
  rw [h.frame]
  refine ⟨fun _ h => h, rfl, rfl, rfl, rfl, fun g hg => ⟨g, hg, rfl⟩,
    fun g hg => Or.inr ⟨g, hg, rfl⟩, fun ht => ⟨fun p' hp' => ?_, fun p' hp' subject hs => ?_,
      ht.durable, ht.delegated⟩⟩
  · obtain ⟨p, hp, heq⟩ := h.find (Table.find_of_mem hp')
    have hid : p'.withoutCredentials.participantId = p.withoutCredentials.participantId := by
      rw [heq]
    rw [show p'.participantId = p.participantId from hid]
    exact ht.participants p (Table.mem_of_find hp)
  · obtain ⟨p, hp, heq⟩ := h.find (Table.find_of_mem hp')
    have howner : p'.withoutCredentials.ownerSubject = p.withoutCredentials.ownerSubject := by
      rw [heq]
    rw [show p'.ownerSubject = p.ownerSubject from howner] at hs
    exact ht.owners p (Table.mem_of_find hp) subject hs

/-- A step that changes nothing but the counters of a participant. -/
def Counted (participantId : String) (db db' : Database) : Prop :=
  db' = db ∨ ∃ set hset, (∀ row, (set row).withoutCounters = row.withoutCounters)
    ∧ db' = updateWebParticipant participantId set hset db

theorem counted_update (participantId : String) {set : WebParticipant → WebParticipant}
    (hset : ∀ row, (set row).participantId = row.participantId)
    (h : ∀ row, (set row).withoutCounters = row.withoutCounters) (db : Database) :
    Counted participantId db (updateWebParticipant participantId set hset db) :=
  Or.inr ⟨set, hset, h, rfl⟩

section Accounts

variable [Sha256] [Hmac] [Base64Url]

omit [Sha256] [Base64Url] in
/-- A login changes nothing, or the counters of its participant. -/
theorem counted_login (participantId code : String) (now : Nat) (db : Database) :
    Counted participantId db (authenticateWebTotp participantId code now db).2 := by
  unfold authenticateWebTotp
  split
  · exact Or.inl rfl
  · split
    · exact Or.inl rfl
    · split
      · exact Or.inl rfl
      · split
        · split
          · exact Or.inl rfl
          · refine counted_update participantId _ (fun row => ?_) db
            rfl
        · dsimp only
          -- whichever way the failures are counted
          split
          · split
            · refine counted_update participantId _ (fun row => ?_) db
              rfl
            · refine counted_update participantId _ (fun row => ?_) db
              rfl
          · split
            · refine counted_update participantId _ (fun row => ?_) db
              rfl
            · refine counted_update participantId _ (fun row => ?_) db
              rfl

omit [Sha256] [Base64Url] in
/-- **A login edits credentials.** -/
theorem credentialsEdited_login (participantId code : String) (now : Nat) (db : Database) :
    CredentialsEdited db (authenticateWebTotp participantId code now db).2 := by
  rcases counted_login participantId code now db with hsame | ⟨set, hset, hcounters, hdb⟩
  · rw [hsame]
    exact .refl db
  · rw [hdb]
    refine credentialsEdited_update participantId hset (fun row => ?_) db
    -- the counters are credentials
    have hboth := congrArg WebParticipant.withoutCredentials (hcounters row)
    exact hboth

/-- **Credential operations edit credentials.** -/
theorem credentialsEdited_credentialOp (op : CredentialOp) (db : Database) :
    CredentialsEdited db (op.apply db) := by
  cases op with
  | setTotp participantId secret =>
      simp only [CredentialOp.apply, setWebParticipantTotp]
      split
      · exact .refl db
      · refine credentialsEdited_update participantId _ (fun row => ?_) db
        rfl
  | revokeTotp participantId =>
      simp only [CredentialOp.apply, revokeWebParticipantTotp]
      split
      · exact .refl db
      · refine credentialsEdited_update participantId _ (fun row => ?_) db
        split
        · rfl
        · rfl
  | setAuthSecret participantId secret =>
      simp only [CredentialOp.apply, setWebParticipantAuthSecret]
      split
      · exact .refl db
      · refine credentialsEdited_update participantId _ (fun row => ?_) db
        rfl
  | revokeAuth participantId =>
      simp only [CredentialOp.apply, revokeWebParticipantAuth]
      split
      · exact .refl db
      · refine credentialsEdited_update participantId _ (fun row => ?_) db
        split
        · rfl
        · rfl
  | register source label inst token =>
      simp only [CredentialOp.apply, registerIdentity]
      split
      · split
        · exact credentialsEdited_identities _
        · exact .refl db
      · exact .refl db
  | rotateToken inst token => exact credentialsEdited_identities _
  | revokeToken inst => exact credentialsEdited_identities _

end Accounts

/-! ## What an effect does to the trail -/

section Effects

variable [Sha256] [Hmac] [Base64Url]

omit [Sha256] [Hmac] [Base64Url] in
theorem insertMessage_quiet (now : Int) (identity : Identity) (fields : Http.MessageFields)
    (db : Database) :
    Quiet db (insertMessage now identity fields.channel none fields.kind fields.body fields.replyTo
      db).2 :=
  ⟨fun _ h => mem_append_messageRow.mpr (Or.inl h), rfl, rfl, rfl, rfl, fun g hg => ⟨g, hg, rfl⟩,
    fun g hg => Or.inr ⟨g, hg, rfl⟩,
    fun ht => ⟨ht.participants, ht.owners, ht.durable, ht.delegated⟩⟩

/-- **Every effect** is quiet, or writes a reserved message, or executes an intent, or replays
one. -/
theorem Effect.cases_trail (e : Effect) (w : World) :
    Quiet w.db (e.apply w).db
    ∨ (∃ writer payload m, e = .navigate writer payload
        ∧ NavigationWritten w.now writer payload.navigationInput w.db m (e.apply w).db)
    ∨ (∃ writer request m, e = .execute writer request
        ∧ FirstExecuted w.now writer request w.db m (e.apply w).db)
    ∨ ∃ writer request m, e = .execute writer request
        ∧ Replayed w.now writer request w.db m (e.apply w).db := by
  cases e with
  | nothing => exact Or.inl (Quiet.refl w.db)
  | ensureChannel name createdBy =>
      obtain ⟨channels, hens⟩ := ensureChannel_frame w.now name createdBy w.db
      refine Or.inl ?_
      simp only [Effect.apply, hens]
      exact quiet_of_channels channels
  | insert identity fields => exact Or.inl (insertMessage_quiet w.now identity fields w.db)
  | navigate writer payload =>
      rcases appendNavigationMessage_cases w.now writer payload.navigationInput w.db with
        ⟨m, -, hw⟩ | ⟨m, -, -, hdb⟩ | ⟨hdb, -⟩
      · exact Or.inr (Or.inl ⟨writer, payload, m, rfl, hw⟩)
      · refine Or.inl ?_
        simp only [Effect.apply, hdb]
        exact Quiet.refl w.db
      · refine Or.inl ?_
        simp only [Effect.apply, hdb]
        exact Quiet.refl w.db
  | execute writer request =>
      rcases executeMessageIntent_cases w.now writer request w.db with
        ⟨m, -, hf⟩ | ⟨m, -, hr⟩ | ⟨hdb, -⟩
      · exact Or.inr (Or.inr (Or.inl ⟨writer, request, m, rfl, hf⟩))
      · exact Or.inr (Or.inr (Or.inr ⟨writer, request, m, rfl, hr⟩))
      · refine Or.inl ?_
        simp only [Effect.apply, hdb]
        exact Quiet.refl w.db
  | login participantId code now =>
      exact Or.inl (credentialsEdited_login participantId code now w.db).quiet
  | grant op => exact Or.inl (op.edited w.now w.db).quiet
  | participant op => exact Or.inl (op.edited w.db).quiet
  | channel op =>
      obtain ⟨channels, hdb⟩ := op.edited w.now w.db
      refine Or.inl ?_
      simp only [Effect.apply, hdb]
      exact quiet_of_channels channels
  | credential op => exact Or.inl (credentialsEdited_credentialOp op w.db).quiet
  | tick now => exact Or.inl (Quiet.refl w.db)

theorem Effect.grows (e : Effect) (w : World) : Grows w.db (e.apply w).db := by
  rcases e.cases_trail w with hq | ⟨_, _, _, -, hw⟩ | ⟨_, _, _, -, hf⟩ | ⟨_, _, _, -, hr⟩
  · exact hq.grows
  · exact hw.grows
  · exact hf.grows
  · exact hr.grows

omit [Hmac] [Base64Url] in
/-- Whoever executes an intent is a participant of the store. -/
theorem Accepted.inst_not_blank {now : Int} {identity : Identity}
    {request : MessageExecutionRequest} {db db' : Database}
    (h : Accepted now identity request db db') (ht : TextsInv db) :
    Text.isBlank identity.inst = false := by
  obtain ⟨⟨p, hp, hid, -⟩, -⟩ := grounds_of_allowed (q := request.access) h.allowed
  have hinst : p.participantId = identity.inst := hid.trans h.consistent.2.2.1.symm
  rw [← hinst]
  exact ht.participants p hp

theorem Effect.storeInv (e : Effect) (w : World) (h : StoreInv w.db) :
    StoreInv (e.apply w).db := by
  rcases e.cases_trail w with hq | ⟨_, _, _, -, hw⟩ | ⟨_, _, _, -, hf⟩ | ⟨_, _, _, -, hr⟩
  · exact hq.storeInv h
  · exact hw.storeInv h
  · exact hf.storeInv h (hf.toAccepted.inst_not_blank h.texts)
  · exact hr.storeInv h (hr.toAccepted.inst_not_blank h.texts)

/-! ## What an effect does to the grants -/

/-- The grant operation an effect is. -/
def Effect.grantOp : Effect → Option GrantOp
  | grant op => some op
  | _ => none

omit [Sha256] [Hmac] [Base64Url] in
theorem CredentialsEdited.ungranted {db db' : Database} (h : CredentialsEdited db db') :
    Ungranted db db' := by
  have hkept := h.kept
  rw [h.frame] at hkept ⊢
  exact ⟨rfl, rfl, hkept, Or.inl rfl⟩

/-- **Every effect** that is no grant operation. -/
theorem Effect.ungranted (e : Effect) (w : World) (hno : e.grantOp = none) :
    Ungranted w.db (e.apply w).db := by
  cases e with
  | nothing => exact .of_eq rfl rfl rfl rfl
  | ensureChannel name createdBy =>
      obtain ⟨channels, hens⟩ := ensureChannel_frame w.now name createdBy w.db
      simp only [Effect.apply, hens]
      exact .of_eq rfl rfl rfl rfl
  | insert identity fields => exact .of_eq rfl rfl rfl rfl
  | navigate writer payload =>
      simp only [Effect.apply]
      rcases appendNavigationMessage_cases w.now writer payload.navigationInput w.db with
        ⟨m, -, hw⟩ | ⟨m, -, -, hdb⟩ | ⟨hdb, -⟩
      · rw [hw.frame]
        exact .of_eq rfl rfl rfl rfl
      · rw [hdb]
        exact .of_eq rfl rfl rfl rfl
      · rw [hdb]
        exact .of_eq rfl rfl rfl rfl
  | execute writer request =>
      simp only [Effect.apply]
      rcases executeMessageIntent_cases w.now writer request w.db with
        ⟨m, -, hf⟩ | ⟨m, -, hr⟩ | ⟨hdb, -⟩
      · have hconsumes := hf.consumes
        rw [hf.frame]
        exact ⟨rfl, rfl, fun _ h => h, hconsumes⟩
      · rw [hr.frame]
        exact .of_eq rfl rfl rfl rfl
      · rw [hdb]
        exact .of_eq rfl rfl rfl rfl
  | login participantId code now =>
      exact (credentialsEdited_login participantId code now w.db).ungranted
  | grant op => exact absurd hno (by simp [Effect.grantOp])
  | participant op =>
      have hkept := op.kept w.db
      simp only [Effect.apply]
      rw [(op.edited w.db).frame] at hkept ⊢
      exact ⟨rfl, rfl, hkept, Or.inl rfl⟩
  | channel op =>
      obtain ⟨channels, hdb⟩ := op.edited w.now w.db
      simp only [Effect.apply, hdb]
      exact .of_eq rfl rfl rfl rfl
  | credential op => exact (credentialsEdited_credentialOp op w.db).ungranted
  | tick now => exact .of_eq rfl rfl rfl rfl

/-! ## The books -/

/-- Everything that holds of every reachable store: the trail of executions, the log of
administration and the grants themselves. -/
structure BooksInv (db : Database) : Prop where
  store : StoreInv db
  log : LogInv db
  policy : PolicyInv db

omit [Hmac] [Base64Url] in
theorem booksInv_initial : BooksInv Database.initial :=
  ⟨storeInv_initial, logInv_initial, ⟨fun _ h => absurd h (Table.not_mem_empty _),
    fun _ h => absurd h (Table.not_mem_empty _)⟩⟩

/-- **Every effect keeps the books.** -/
theorem Effect.booksInv (e : Effect) (w : World) (h : BooksInv w.db) : BooksInv (e.apply w).db := by
  refine ⟨e.storeInv w h.store, ?_, ?_⟩
  · cases hop : e.grantOp with
    | none => exact (e.ungranted w hop).logInv h.log
    | some op =>
        cases e with
        | grant op' =>
            rcases (op'.effect h.log.grants w.now).logged with hsame | ⟨event, hlogged⟩
            · simp only [Effect.apply]
              rw [hsame]
              exact h.log
            · exact hlogged.logInv ((op'.effect h.log.grants w.now).grantsInv h.log.grants) h.log
        | _ => exact absurd hop (by simp [Effect.grantOp])
  · cases hop : e.grantOp with
    | none => exact (e.ungranted w hop).policyInv h.policy
    | some op =>
        cases e with
        | grant op' => exact (op'.effect h.log.grants w.now).policyInv h.policy
        | _ => exact absurd hop (by simp [Effect.grantOp])

variable [Base64Standard] [JsonParser] [Jwt] [Mcp.UrlParser]

/-- A transaction of a call is one of the effects of the call. -/
theorem effect_of_event {settings : Settings} {w : World}
    {moves : List (Concurrent.Move Runtime.Call)} {e : Runtime.CallEvent}
    (he : e ∈ Runtime.history settings w moves) :
    (∃ c effect, e.out = some c ∧ c.May settings effect
      ∧ e.after.store = effect.apply e.before.store)
    ∨ e.out = none ∧ e.after.store = e.before.store := by
  rcases Concurrent.steps_history (call_steps settings) he with ⟨c, hc, effect, hmay, hstore⟩ | hno
  · exact Or.inl ⟨c, effect, hc, hmay, hstore⟩
  · exact Or.inr hno

/-- **Transactions take nothing off the trail.** -/
theorem calls_grow (settings : Settings) (c : Runtime.Call) :
    (Runtime.serve settings c).Steps fun w w' => Grows w.db w'.db := by
  refine (call_steps settings c).mono fun w w' h => ?_
  obtain ⟨effect, -, hstore⟩ := h
  rw [hstore]
  exact effect.grows w

theorem event_grows {settings : Settings} {w : World}
    {moves : List (Concurrent.Move Runtime.Call)} {e : Runtime.CallEvent}
    (he : e ∈ Runtime.history settings w moves) :
    Grows e.before.store.db e.after.store.db := by
  rcases Concurrent.steps_history (calls_grow settings) he with ⟨c, -, hgrows⟩ | ⟨-, hstore⟩
  · exact hgrows
  · rw [hstore]
    exact .refl _

/-- What holds of the empty store and is kept by every effect of a call holds at every moment. -/
theorem store_inv {I : Database → Prop} (h₀ : I Database.initial) {settings : Settings} {now : Int}
    {moves : List (Concurrent.Move Runtime.Call)}
    (heffect : ∀ c e w, Runtime.Call.May settings c e → I w.db → I (e.apply w).db) :
    (∀ e ∈ Runtime.history settings ⟨Database.initial, now⟩ moves,
      I e.before.store.db ∧ I e.after.store.db)
    ∧ I (Runtime.config settings ⟨Database.initial, now⟩ moves).store.db := by
  have hkept : ∀ e ∈ Runtime.history settings ⟨Database.initial, now⟩ moves,
      I e.before.store.db → I e.after.store.db := by
    intro e he h
    rcases effect_of_event he with ⟨c, effect, -, hmay, hstore⟩ | ⟨-, hstore⟩
    · rw [hstore]
      exact heffect c effect _ hmay h
    · rw [hstore]
      exact h
  refine ⟨Concurrent.store_history (I := fun w : World => I w.db) h₀ hkept, ?_⟩
  let R := fun c c' : Concurrent.Config Runtime.Call World Runtime.Reply =>
    I c.store.db → I c'.store.db
  exact Transition.rel_history (R := R) (fun _ h => h) (fun h h' hi => h' (h hi)) hkept h₀

/-! ## The books of a run -/

/-- What the books of a server are good for, after these events. -/
structure BooksKept (events : List Runtime.CallEvent) (db : Database) : Prop where
  /-- The log of administration explains every grant there is. -/
  explained : GrantsExplained db
  /-- The policy audit objects to nothing but grants of capabilities the kernel does not know. -/
  policy : (auditAuthorizationIntegrity db).valid = true
    ↔ ∀ g ∈ db.delegatedGrants, isKnownCapability g.capability = true
  /-- A transaction changes one grant and logs that, or touches neither grants nor log. -/
  logged : ∀ e ∈ events, OneChange e.before.store.db e.after.store.db
    ∨ e.after.store.db.adminEvents = e.before.store.db.adminEvents
      ∧ ∀ store id, grantStanding e.after.store.db store id
        = grantStanding e.before.store.db store id
  /-- The trail of executions is only added to. -/
  grows : events.Pairwise fun e e' => Grows e.after.store.db e'.before.store.db

omit [Hmac] [Base64Url] [Base64Standard] [JsonParser] [Jwt] [Mcp.UrlParser] in
theorem BooksInv.policy_valid_iff {db : Database} (h : BooksInv db) :
    (auditAuthorizationIntegrity db).valid = true
      ↔ ∀ g ∈ db.delegatedGrants, isKnownCapability g.capability = true := by
  constructor
  · intro hvalid g hg
    by_contra hunknown
    rw [Bool.not_eq_true] at hunknown
    rw [auditAuthorizationIntegrity_invalid hg hunknown] at hvalid
    exact absurd hvalid (by simp)
  · intro hknown
    exact auditAuthorizationIntegrity_valid_iff.mpr
      (cleanPolicy h.store h.log.grants h.policy hknown)

omit [Base64Standard] [JsonParser] [Jwt] [Mcp.UrlParser] in
theorem Effect.logged (e : Effect) (w : World) (h : LogInv w.db) :
    OneChange w.db (e.apply w).db
    ∨ (e.apply w).db.adminEvents = w.db.adminEvents
      ∧ ∀ store id, grantStanding (e.apply w).db store id = grantStanding w.db store id := by
  cases hop : e.grantOp with
  | none =>
      have hun := e.ungranted w hop
      exact Or.inr ⟨hun.events, hun.standing⟩
  | some op =>
      cases e with
      | grant op' =>
          simp only [Effect.apply]
          rcases (op'.effect h.grants w.now).logged with hsame | ⟨event, hlogged⟩
          · rw [hsame]
            exact Or.inr ⟨rfl, fun _ _ => rfl⟩
          · exact Or.inl hlogged.oneChange
      | _ => exact absurd hop (by simp [Effect.grantOp])

theorem booksInv_history (settings : Settings) (now : Int)
    (moves : List (Concurrent.Move Runtime.Call)) :
    (∀ e ∈ Runtime.history settings ⟨Database.initial, now⟩ moves,
      BooksInv e.before.store.db ∧ BooksInv e.after.store.db)
    ∧ BooksInv (Runtime.config settings ⟨Database.initial, now⟩ moves).store.db :=
  store_inv booksInv_initial fun _ e w _ h => e.booksInv w h

end Effects

end Blackboard
