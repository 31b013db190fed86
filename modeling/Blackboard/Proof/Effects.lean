import Blackboard.Proof.Administration
import Blackboard.Proof.Admission
import Blackboard.Proof.Transactions

/-!
# What an effect leaves alone

Most effects do not touch the messages or the record of who wrote them. The ones that do
insert one message, for a plain request, a navigation write or an execution, or record
one more delivery of an execution.
-/

namespace Blackboard

/-- The messages and the record of their writes are the same. -/
structure SameLedger (db db' : Database) : Prop where
  messages : db'.messages = db.messages
  navigation : db'.navigationWrites = db.navigationWrites
  ingress : db'.ingress = db.ingress
  receipts : db'.receipts = db.receipts
  provenance : db'.provenance = db.provenance

theorem SameLedger.refl (db : Database) : SameLedger db db := ⟨rfl, rfl, rfl, rfl, rfl⟩

/-! ## Accounts -/

section Accounts

variable [Sha256] [Hmac] [Base64Url]

/-- **Credential operations edit participants and clients.** -/
theorem CredentialOp.edited (op : CredentialOp) (db : Database) :
    ∃ webParticipants identities, op.apply db = { db with webParticipants, identities } := by
  cases op with
  | setTotp participantId secret =>
      simp only [CredentialOp.apply, setWebParticipantTotp]
      split
      · exact ⟨db.webParticipants, db.identities, rfl⟩
      · exact ⟨_, db.identities, rfl⟩
  | revokeTotp participantId =>
      simp only [CredentialOp.apply, revokeWebParticipantTotp]
      split
      · exact ⟨db.webParticipants, db.identities, rfl⟩
      · exact ⟨_, db.identities, rfl⟩
  | setAuthSecret participantId secret =>
      simp only [CredentialOp.apply, setWebParticipantAuthSecret]
      split
      · exact ⟨db.webParticipants, db.identities, rfl⟩
      · exact ⟨_, db.identities, rfl⟩
  | revokeAuth participantId =>
      simp only [CredentialOp.apply, revokeWebParticipantAuth]
      split
      · exact ⟨db.webParticipants, db.identities, rfl⟩
      · exact ⟨_, db.identities, rfl⟩
  | register source label inst token =>
      simp only [CredentialOp.apply, registerIdentity]
      split
      · split
        · exact ⟨db.webParticipants, _, rfl⟩
        · exact ⟨db.webParticipants, db.identities, rfl⟩
      · exact ⟨db.webParticipants, db.identities, rfl⟩
  | rotateToken inst token => exact ⟨db.webParticipants, _, rfl⟩
  | revokeToken inst => exact ⟨db.webParticipants, _, rfl⟩

omit [Sha256] [Base64Url] in
/-- **A login edits its participant.** -/
theorem authenticateWebTotp_edited (participantId code : String) (now : Nat) (db : Database) :
    ∃ webParticipants, (authenticateWebTotp participantId code now db).2
      = { db with webParticipants } := by
  unfold authenticateWebTotp
  split
  · exact ⟨db.webParticipants, rfl⟩
  · split
    · exact ⟨db.webParticipants, rfl⟩
    · split
      · exact ⟨db.webParticipants, rfl⟩
      · split
        · split
          · exact ⟨db.webParticipants, rfl⟩
          · exact ⟨_, rfl⟩
        · dsimp only
          -- an expired lock starts the count afresh
          split
          · split
            · exact ⟨_, rfl⟩
            · exact ⟨_, rfl⟩
          · split
            · exact ⟨_, rfl⟩
            · exact ⟨_, rfl⟩

end Accounts

/-! ## All effects -/

section Effects

variable [Sha256] [Hmac] [Base64Url]

/-- **What an effect does to the messages and the record of their writes.** -/
theorem Effect.cases_ledger (e : Effect) (w : World) :
    SameLedger w.db (e.apply w).db
    ∨ (∃ identity fields, e = .insert identity fields)
    ∨ (∃ writer payload m, e = .navigate writer payload
        ∧ NavigationWritten w.now writer payload.navigationInput w.db m (e.apply w).db
        ∧ replyTargetMissing w.db payload.replyTo = false)
    ∨ (∃ writer request m, e = .execute writer request
        ∧ FirstExecuted w.now writer request w.db m (e.apply w).db)
    ∨ ∃ writer request m, e = .execute writer request
        ∧ Replayed w.now writer request w.db m (e.apply w).db := by
  cases e with
  | nothing => exact Or.inl (SameLedger.refl w.db)
  | ensureChannel name createdBy =>
      obtain ⟨channels, hens⟩ := ensureChannel_frame w.now name createdBy w.db
      refine Or.inl ?_
      simp only [Effect.apply, hens]
      exact ⟨rfl, rfl, rfl, rfl, rfl⟩
  | insert identity fields => exact Or.inr (Or.inl ⟨identity, fields, rfl⟩)
  | navigate writer payload =>
      rcases appendNavigationMessage_cases w.now writer payload.navigationInput w.db with
        ⟨m, hcreated, hw⟩ | ⟨-, -, -, hdb⟩ | ⟨hdb, -⟩
      · exact Or.inr (Or.inr (Or.inl ⟨writer, payload, m, rfl, hw, hw.replyTarget hcreated⟩))
      · refine Or.inl ?_
        simp only [Effect.apply, hdb]
        exact SameLedger.refl w.db
      · refine Or.inl ?_
        simp only [Effect.apply, hdb]
        exact SameLedger.refl w.db
  | execute writer request =>
      rcases executeMessageIntent_cases w.now writer request w.db with
        ⟨m, -, hf⟩ | ⟨m, -, hr⟩ | ⟨hdb, -⟩
      · exact Or.inr (Or.inr (Or.inr (Or.inl ⟨writer, request, m, rfl, hf⟩)))
      · exact Or.inr (Or.inr (Or.inr (Or.inr ⟨writer, request, m, rfl, hr⟩)))
      · refine Or.inl ?_
        simp only [Effect.apply, hdb]
        exact SameLedger.refl w.db
  | login participantId code now =>
      obtain ⟨webParticipants, hdb⟩ := authenticateWebTotp_edited participantId code now w.db
      refine Or.inl ?_
      simp only [Effect.apply, hdb]
      exact ⟨rfl, rfl, rfl, rfl, rfl⟩
  | grant op =>
      have hframe := (op.edited w.now w.db).frame
      refine Or.inl ?_
      simp only [Effect.apply]
      rw [hframe]
      exact ⟨rfl, rfl, rfl, rfl, rfl⟩
  | participant op =>
      have hframe := (op.edited w.db).frame
      refine Or.inl ?_
      simp only [Effect.apply]
      rw [hframe]
      exact ⟨rfl, rfl, rfl, rfl, rfl⟩
  | channel op =>
      obtain ⟨channels, hdb⟩ := op.edited w.now w.db
      refine Or.inl ?_
      simp only [Effect.apply, hdb]
      exact ⟨rfl, rfl, rfl, rfl, rfl⟩
  | credential op =>
      obtain ⟨webParticipants, identities, hdb⟩ := op.edited w.db
      refine Or.inl ?_
      simp only [Effect.apply, hdb]
      exact ⟨rfl, rfl, rfl, rfl, rfl⟩
  | tick now => exact Or.inl (SameLedger.refl w.db)

/-- **What an effect does to the messages**: nothing, or one more. A navigation write and an
execution have looked for the message they reply to; a plain insertion has not. -/
theorem Effect.cases_messages (e : Effect) (w : World) :
    (e.apply w).db.messages = w.db.messages
    ∨ ∃ identity channel conversationRef kind body replyTo,
        (e.apply w).db.messages = w.db.messages.append
          (messageRow w.now identity channel conversationRef kind body replyTo)
          (messageRow_id w.now identity channel conversationRef kind body replyTo)
        ∧ ((∃ fields, e = .insert identity fields ∧ fields.replyTo = replyTo)
          ∨ replyTargetMissing w.db replyTo = false) := by
  rcases e.cases_ledger w with
    hsame | ⟨identity, fields, rfl⟩ | ⟨writer, payload, m, rfl, hw, hreply⟩
      | ⟨writer, request, m, rfl, hf⟩ | ⟨writer, request, m, rfl, hr⟩
  · exact Or.inl hsame.messages
  · exact Or.inr ⟨identity, fields.channel, none, fields.kind, fields.body, fields.replyTo, rfl,
      Or.inl ⟨fields, rfl, rfl⟩⟩
  · exact Or.inr ⟨writer, _, none, _, _, _, hw.messages, Or.inr hreply⟩
  · exact Or.inr ⟨writer, _, _, _, _, _, hf.effects.messages, Or.inr hf.replyTarget⟩
  · refine Or.inl ?_
    rw [hr.frame]

/-- The channel an effect makes sure of. -/
def Effect.channelName : Effect → Option String
  | ensureChannel name _ => some name
  | navigate _ payload => some payload.channel
  | execute _ request => some request.channel
  | _ => none

/-- **What an effect does to the channels**: nothing, or it creates the one it names, or it is an
operation on channels. -/
theorem Effect.cases_channels (e : Effect) (w : World) :
    (e.apply w).db.channels = w.db.channels
    ∨ (∃ now name createdBy, e.channelName = some name
        ∧ (e.apply w).db.channels = (Blackboard.ensureChannel now name createdBy w.db).channels)
    ∨ ∃ op, e = .channel op := by
  cases e with
  | nothing => exact Or.inl rfl
  | ensureChannel name createdBy => exact Or.inr (Or.inl ⟨w.now, name, createdBy, rfl, rfl⟩)
  | insert identity fields => exact Or.inl rfl
  | navigate writer payload =>
      rcases appendNavigationMessage_cases w.now writer payload.navigationInput w.db with
        ⟨m, -, hw⟩ | ⟨m, -, -, hdb⟩ | ⟨hdb, -⟩
      · exact Or.inr (Or.inl ⟨_, _, _, rfl, hw.channels⟩)
      · exact Or.inl (congrArg Database.channels hdb)
      · exact Or.inl (congrArg Database.channels hdb)
  | execute writer request =>
      rcases executeMessageIntent_cases w.now writer request w.db with
        ⟨m, -, hf⟩ | ⟨m, -, hr⟩ | ⟨hdb, -⟩
      · exact Or.inr (Or.inl ⟨_, _, _, rfl, hf.toAccepted.channels⟩)
      · exact Or.inr (Or.inl ⟨_, _, _, rfl, hr.toAccepted.channels⟩)
      · exact Or.inl (congrArg Database.channels hdb)
  | login participantId code now =>
      obtain ⟨webParticipants, hdb⟩ := authenticateWebTotp_edited participantId code now w.db
      refine Or.inl ?_
      rw [show ((login participantId code now).apply w).db = _ from hdb]
  | grant op =>
      refine Or.inl ?_
      rw [show ((grant op).apply w).db = _ from (op.edited w.now w.db).frame]
  | participant op =>
      refine Or.inl ?_
      rw [show ((participant op).apply w).db = _ from (op.edited w.db).frame]
  | channel op => exact Or.inr (Or.inr ⟨op, rfl⟩)
  | credential op =>
      obtain ⟨webParticipants, identities, hdb⟩ := op.edited w.db
      refine Or.inl ?_
      rw [show ((credential op).apply w).db = _ from hdb]
  | tick now => exact Or.inl rfl

/-- **What an effect does to the participants**: nothing, or it is a login or an operation on
participants or credentials. -/
theorem Effect.cases_participants (e : Effect) (w : World) :
    (e.apply w).db.webParticipants = w.db.webParticipants
    ∨ (∃ participantId code now, e = .login participantId code now)
    ∨ (∃ op, e = .participant op)
    ∨ ∃ op, e = .credential op := by
  cases e with
  | nothing => exact Or.inl rfl
  | ensureChannel name createdBy =>
      obtain ⟨channels, hens⟩ := ensureChannel_frame w.now name createdBy w.db
      refine Or.inl ?_
      rw [show ((ensureChannel name createdBy).apply w).db = _ from hens]
  | insert identity fields => exact Or.inl rfl
  | navigate writer payload =>
      rcases appendNavigationMessage_cases w.now writer payload.navigationInput w.db with
        ⟨m, -, hw⟩ | ⟨m, -, -, hdb⟩ | ⟨hdb, -⟩
      · refine Or.inl ?_
        rw [show ((navigate writer payload).apply w).db = _ from hw.frame]
      · exact Or.inl (congrArg Database.webParticipants hdb)
      · exact Or.inl (congrArg Database.webParticipants hdb)
  | execute writer request =>
      rcases executeMessageIntent_cases w.now writer request w.db with
        ⟨m, -, hf⟩ | ⟨m, -, hr⟩ | ⟨hdb, -⟩
      · refine Or.inl ?_
        rw [show ((execute writer request).apply w).db = _ from hf.frame]
      · refine Or.inl ?_
        rw [show ((execute writer request).apply w).db = _ from hr.frame]
      · exact Or.inl (congrArg Database.webParticipants hdb)
  | login participantId code now => exact Or.inr (Or.inl ⟨participantId, code, now, rfl⟩)
  | grant op =>
      refine Or.inl ?_
      rw [show ((grant op).apply w).db = _ from (op.edited w.now w.db).frame]
  | participant op => exact Or.inr (Or.inr (Or.inl ⟨op, rfl⟩))
  | channel op =>
      obtain ⟨channels, hdb⟩ := op.edited w.now w.db
      refine Or.inl ?_
      rw [show ((channel op).apply w).db = _ from hdb]
  | credential op => exact Or.inr (Or.inr (Or.inr ⟨op, rfl⟩))
  | tick now => exact Or.inl rfl

/-! ## What every effect keeps -/

/-- Reservations and recorded deliveries stay. -/
structure RecordsKept (w w' : World) : Prop where
  reservations : ∀ p, w.db.navigationWrites.find p ≠ none → w'.db.navigationWrites.find p ≠ none
  ingress : ∀ i ∈ w.db.ingress, i ∈ w'.db.ingress

omit [Sha256] [Hmac] [Base64Url] in
theorem RecordsKept.refl (w : World) : RecordsKept w w := ⟨fun _ h => h, fun _ h => h⟩

omit [Sha256] [Hmac] [Base64Url] in
theorem RecordsKept.trans {w₁ w₂ w₃ : World} (h : RecordsKept w₁ w₂) (h' : RecordsKept w₂ w₃) :
    RecordsKept w₁ w₃ :=
  ⟨fun p hp => h'.reservations p (h.reservations p hp), fun i hi => h'.ingress i (h.ingress i hi)⟩

theorem Effect.recordsKept (e : Effect) (w : World) : RecordsKept w (e.apply w) := by
  rcases e.cases_ledger w with
    hsame | ⟨identity, fields, rfl⟩ | ⟨writer, payload, m, rfl, hw, -⟩
      | ⟨writer, request, m, rfl, hf⟩ | ⟨writer, request, m, rfl, hr⟩
  · refine ⟨fun p hp => ?_, fun i hi => ?_⟩
    · rw [hsame.navigation]
      exact hp
    · rw [hsame.ingress]
      exact hi
  · exact ⟨fun _ hp => hp, fun _ hi => hi⟩
  · refine ⟨fun p hp => ?_, fun i hi => ?_⟩
    · rw [hw.navigation]
      split
      · simp
      · exact hp
    · rw [hw.frame]
      exact hi
  · refine ⟨fun p hp => ?_, hf.effects.ingress.kept⟩
    rw [hf.navigation]
    split
    · simp
    · exact hp
  · refine ⟨fun p hp => ?_, hr.ingress.kept⟩
    rw [hr.frame]
    exact hp

theorem recordsKept_of_does {may : Effect → Prop} (w w' : World) (h : Does may w w') :
    RecordsKept w w' := by
  obtain ⟨e, -, rfl⟩ := h
  exact e.recordsKept w

end Effects

end Blackboard
