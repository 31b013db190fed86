import Blackboard.Model.Http

/-!
# Requests on their own

What the statements and look-ups of a request come to when no other request is in
flight, and what a look-up that finds somebody has checked.
-/

namespace Blackboard

open Concurrent (Program)

@[simp] theorem run_query {α : Type} (q : Database → α) (w : World) :
    (query q).run w = (q w.db, w) := rfl

@[simp] theorem run_statement {α : Type} (op : Int → Database → α × Database) (w : World) :
    (statement op).run w = ((op w.now w.db).1, { w with db := (op w.now w.db).2 }) := rfl

section Sessions

variable [Hmac] [Base64Url] [JsonParser]

/-- The session a request carries, at this clock. -/
def sessionAt (key : Bytes) (headers : Headers) (now : Int) : Option WebAuth.WebSession :=
  (headers.text WebAuth.webSessionHeader).bind fun token =>
    WebAuth.verifyWebSessionAt key token now.toNat

theorem run_verifiedWebSession (key : Bytes) (headers : Headers) (w : World) :
    (RequestAuth.verifiedWebSession key headers).run w = (sessionAt key headers w.now, w) := by
  unfold RequestAuth.verifiedWebSession sessionAt
  cases headers.text WebAuth.webSessionHeader with
  | none => rfl
  | some token => rfl

end Sessions

/-! ## Look-ups -/

theorem getWebParticipant_inst {db : Database} {participantId : String} {identity : Identity}
    (h : getWebParticipant db participantId = some identity) : identity.inst = participantId := by
  obtain ⟨row, hrow, rfl⟩ := Option.map_eq_some_iff.mp h
  have hkey : row.participantId = participantId := Relational.Table.key_of_find hrow
  exact hkey

/-- A participant that can sign is one that is there, is active and has a secret. -/
theorem getWebParticipantAuth_eq_some {db : Database} {participantId : String}
    {record : ParticipantAuthRecord} (h : getWebParticipantAuth db participantId = some record) :
    ∃ row, db.webParticipants.find participantId = some row ∧ row.status = "active"
      ∧ row.authSecret = some record.authSecret ∧ record.identity = row.identity := by
  unfold getWebParticipantAuth at h
  split at h
  · exact absurd h (by simp)
  · cases hfind : db.webParticipants.find participantId with
    | none =>
        rw [hfind] at h
        exact absurd h (by simp)
    | some row =>
        rw [hfind] at h
        simp only at h
        split at h
        · rename_i hactive
          split at h
          · rename_i scheme secret _ hsecret
            obtain rfl := Option.some.inj h
            exact ⟨row, rfl, hactive.1, hsecret, rfl⟩
          · exact absurd h (by simp)
        · exact absurd h (by simp)

theorem getWebParticipantAuth_inst {db : Database} {participantId : String}
    {record : ParticipantAuthRecord} (h : getWebParticipantAuth db participantId = some record) :
    record.identity.inst = participantId := by
  obtain ⟨row, hrow, -, -, hid⟩ := getWebParticipantAuth_eq_some h
  have hkey : row.participantId = participantId := Relational.Table.key_of_find hrow
  rw [hid]
  exact hkey

section Signed

variable [Hmac] [Base64Url]

/-- A signed write comes from the active participant it names, and the proof is good. -/
theorem signedWriter_eq_some {db : Database} {w : Http.SignedWrite} {writer : Identity}
    (h : Http.signedWriter db w = some writer) :
    ∃ row secret, db.webParticipants.find w.payload.participantId = some row
      ∧ row.status = "active" ∧ row.authSecret = some secret ∧ writer = row.identity
      ∧ ParticipantAuth.verifyWriteProof secret w.proof w.payload.participantId w.payload.channel
          w.payload.kind w.payload.body w.payload.replyTo w.payload.nonce = true := by
  unfold Http.signedWriter at h
  cases hrecord : getWebParticipantAuth db w.payload.participantId with
  | none =>
      rw [hrecord] at h
      exact absurd h (by simp)
  | some record =>
      rw [hrecord] at h
      simp only at h
      split at h
      · exact absurd h (by simp)
      · rename_i hproof
        rw [not_or, Bool.not_eq_false] at hproof
        obtain ⟨row, hrow, hactive, hsecret, hid⟩ := getWebParticipantAuth_eq_some hrecord
        exact ⟨row, record.authSecret, hrow, hactive, hsecret,
          (Option.some.inj h).symm.trans hid, hproof.2⟩

theorem signedWriter_inst {db : Database} {w : Http.SignedWrite} {writer : Identity}
    (h : Http.signedWriter db w = some writer) : writer.inst = w.payload.participantId := by
  obtain ⟨row, -, hrow, -, -, rfl, -⟩ := signedWriter_eq_some h
  have hkey : row.participantId = w.payload.participantId := Relational.Table.key_of_find hrow
  exact hkey

end Signed

end Blackboard
