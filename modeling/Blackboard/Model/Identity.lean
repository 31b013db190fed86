import Blackboard.Model.Schema
import Blackboard.Model.WebAuth

/-!
# Identities (`identity.rs`, owners from `github_webhook.rs`)

Participants are rows of `web_participants`; what they authenticate with is in the same
row. `getWebParticipant` is the plain look-up by id, `getWebParticipantRole` and
`getWebParticipantAuth` also ask that the participant is active.
-/

namespace Blackboard

/-- Who a message is attributed to. -/
structure Identity where
  source : String
  inst : String
  label : Option String
  deriving DecidableEq, Repr

structure ParticipantAuthRecord where
  identity : Identity
  authScheme : String
  authSecret : String
  deriving DecidableEq, Repr

namespace WebParticipant

def identity (p : WebParticipant) : Identity := ⟨p.source, p.participantId, p.label⟩

end WebParticipant

/-! ## Names -/

def sourceMarks : List Char := ['.', '_', ':', '/', '-']
def participantIdMarks : List Char := ['.', '_', ':', '-']

def validateSource (source : String) : Option String :=
  if Text.isToken sourceMarks 127 (Text.trim source) then some (Text.trim source) else none

def validateParticipantId (participantId : String) : Option String :=
  if Text.isToken participantIdMarks 63 (Text.trim participantId) then
    some (Text.trim participantId)
  else none

def normalizeLabel (label : Option String) : Except String (Option String) :=
  match (label.map Text.trim).filter fun value => decide (value ≠ "") with
  | some value => if value.toList.length > 256 then .error "invalid label" else .ok (some value)
  | none => .ok none

/-- `hash_token`: the digest in hexadecimal. -/
def hashToken [Sha256] (token : String) : String := Text.hex (Sha256.digest (Text.utf8 token))

/-! ## Look-ups -/

def resolveIdentity [Sha256] (db : Database) (token : String) : Option Identity :=
  if token = "" then none
  else
    (db.identities.rows.find? fun row => decide (row.tokenHash = some (hashToken token))).map
      fun row => ⟨row.source, row.inst, row.label⟩

def getWebParticipant (db : Database) (participantId : String) : Option Identity :=
  (db.webParticipants.find participantId).map WebParticipant.identity

def getWebParticipantRole (db : Database) (participantId : String) : Option String :=
  if (validateParticipantId participantId).isNone then none
  else
    ((db.webParticipants.find participantId).filter fun row => decide (row.status = "active")).map
      WebParticipant.role

def getWebParticipantAuth (db : Database) (participantId : String) :
    Option ParticipantAuthRecord :=
  if (validateParticipantId participantId).isNone then none
  else
    match db.webParticipants.find participantId with
    | none => none
    | some row =>
        if row.status = "active" ∧ row.authScheme = some ParticipantAuth.authScheme then
          match row.authScheme, row.authSecret with
          | some authScheme, some authSecret => some ⟨row.identity, authScheme, authSecret⟩
          | _, _ => none
        else none

/-! ## Administration -/

/-- `UPDATE web_participants SET .. WHERE participant_id = ?`. -/
def updateWebParticipant (participantId : String) (set : WebParticipant → WebParticipant)
    (hset : ∀ row, (set row).participantId = row.participantId) (db : Database) : Database :=
  { db with
    webParticipants := db.webParticipants.update
      (fun row => decide (row.participantId = participantId)) set hset }

/-- A participant as `INSERT INTO web_participants (participant_id, source, label)` makes it. -/
def newWebParticipant (participantId source : String) (label : Option String) : WebParticipant where
  participantId
  source
  label
  role := "user"
  status := "active"
  authScheme := none
  authSecret := none
  totpSecret := none
  totpLastStep := none
  totpFailCount := 0
  totpLockedUntil := none
  ownerProvider := none
  ownerSubject := none
  ownerLogin := none

def provisionWebParticipantIdentity (participantId source : String) (label : Option String) :
    Statement (Option Identity) := fun db =>
  match validateParticipantId participantId, validateSource source, normalizeLabel label with
  | some participantId, some source, .ok label =>
      if (getWebParticipant db participantId).isSome then (.ok none, db)
      else
        match db.webParticipants.tryInsert (newWebParticipant participantId source label) with
        | none => (.error .constraintViolation, db)
        | some webParticipants =>
            (.ok (some ⟨source, participantId, label⟩), { db with webParticipants })
  | _, _, _ => (.error .invalidQuery, db)

def setWebParticipantRole (participantId role : String) : Statement Bool := fun db =>
  if (validateParticipantId participantId).isNone ∨ ¬ (role = "user" ∨ role = "admin") then
    (.error .invalidQuery, db)
  else
    (.ok (db.webParticipants.find participantId).isSome,
      updateWebParticipant participantId (fun row => { row with role }) (fun _ => rfl) db)

def setWebParticipantStatus (participantId status : String) : Statement Bool := fun db =>
  if (validateParticipantId participantId).isNone
      ∨ ¬ (status = "active" ∨ status = "inactive") then
    (.error .invalidQuery, db)
  else
    (.ok (db.webParticipants.find participantId).isSome,
      updateWebParticipant participantId (fun row => { row with status }) (fun _ => rfl) db)

/-- Owners are GitHub accounts, by number. -/
def setParticipantOwner (participantId provider subject : String) (login : Option String) :
    Statement Bool := fun db =>
  if (validateParticipantId participantId).isNone ∨ Text.trim provider ≠ "github"
      ∨ Text.isBlank subject = true ∨ ¬ (subject.toList.all Text.isAsciiDigit = true)
      ∨ (login.any fun value => Text.isBlank value || decide (value.toList.length > 128)) then
    (.error .invalidQuery, db)
  else
    (.ok (db.webParticipants.find participantId).isSome,
      updateWebParticipant participantId
        (fun row => { row with
          ownerProvider := some (Text.trim provider)
          ownerSubject := some (Text.trim subject)
          ownerLogin := login.map Text.trim })
        (fun _ => rfl) db)

def clearParticipantOwner (participantId : String) : Statement Bool := fun db =>
  if (validateParticipantId participantId).isNone then (.error .invalidQuery, db)
  else
    (.ok (db.webParticipants.find participantId).isSome,
      updateWebParticipant participantId
        (fun row => { row with ownerProvider := none, ownerSubject := none, ownerLogin := none })
        (fun _ => rfl) db)

section Credentials

variable [Hmac] [Base64Url]

def setWebParticipantTotp (participantId secret : String) : Statement Bool := fun db =>
  if (validateParticipantId participantId).isNone ∨ WebAuth.validateTotpSecret secret = false then
    (.error .invalidQuery, db)
  else
    (.ok (db.webParticipants.find participantId).isSome,
      updateWebParticipant participantId
        (fun row => { row with
          totpSecret := some secret, totpLastStep := none
          totpFailCount := 0, totpLockedUntil := none })
        (fun _ => rfl) db)

def setWebParticipantAuthSecret (participantId secret : String) : Statement Bool := fun db =>
  if (validateParticipantId participantId).isNone
      ∨ ParticipantAuth.validateSecret secret = false then
    (.error .invalidQuery, db)
  else
    (.ok (db.webParticipants.find participantId).isSome,
      updateWebParticipant participantId
        (fun row => { row with
          authSecret := some secret, authScheme := some ParticipantAuth.authScheme })
        (fun _ => rfl) db)

end Credentials

def revokeWebParticipantTotp (participantId : String) : Statement Bool := fun db =>
  if (validateParticipantId participantId).isNone then (.error .invalidQuery, db)
  else
    (.ok ((db.webParticipants.find participantId).any fun row => row.totpSecret.isSome),
      updateWebParticipant participantId
        (fun row =>
          if row.totpSecret.isSome then
            { row with
              totpSecret := none, totpLastStep := none, totpFailCount := 0, totpLockedUntil := none }
          else row)
        (fun row => by split <;> rfl) db)

def revokeWebParticipantAuth (participantId : String) : Statement Bool := fun db =>
  if (validateParticipantId participantId).isNone then (.error .invalidQuery, db)
  else
    (.ok ((db.webParticipants.find participantId).any fun row => row.authSecret.isSome),
      updateWebParticipant participantId
        (fun row =>
          if row.authSecret.isSome then { row with authSecret := none, authScheme := none } else row)
        (fun row => by split <;> rfl) db)

section Clients

variable [Sha256]

/-- `register_identity`, for the instance id and the token that were drawn. An instance id that is
taken is drawn again. -/
def registerIdentity (source : String) (label : Option String) (inst token : String) :
    Statement Unit := fun db =>
  match validateSource source, normalizeLabel label with
  | some source, .ok label =>
      match db.identities.tryInsert ⟨inst, source, label, some (hashToken token)⟩ with
      | some identities => (.ok (), { db with identities })
      | none => (.error .constraintViolation, db)
  | _, _ => (.error .invalidQuery, db)

/-- `UPDATE identities SET token_hash = ? WHERE instance = ?`. -/
def setTokenHash (inst : String) (tokenHash : Option String) (db : Database) : Database :=
  { db with
    identities := db.identities.update (fun row => decide (row.inst = inst))
      (fun row => { row with tokenHash }) fun _ => rfl }

def rotateToken (inst token : String) : Statement Bool := fun db =>
  (.ok (db.identities.find inst).isSome, setTokenHash inst (some (hashToken token)) db)

end Clients

def revokeToken (inst : String) : Statement Bool := fun db =>
  (.ok (db.identities.find inst).isSome, setTokenHash inst none db)

/-! ## TOTP login -/

/-- The largest `i64`. -/
def i64Max : Int := 2 ^ 63 - 1

/-- `i64::try_from(n).unwrap_or(i64::MAX)`. -/
def toI64 (n : Nat) : Int := min (n : Int) i64Max

def authenticateWebTotp [Hmac] (participantId code : String) (now : Nat) :
    Statement (Option Identity) := fun db =>
  if (validateParticipantId participantId).isNone ∨ WebAuth.isTotpCode code = false then
    (.ok none, db)
  else
    match (db.webParticipants.find participantId).filter
        fun row => decide (row.status = "active" ∧ row.totpSecret ≠ none) with
    | none => (.ok none, db)
    | some row =>
        if row.totpLockedUntil.any (fun lockedUntil => decide (lockedUntil > toI64 now)) then
          (.ok none, db)
        else
          match WebAuth.matchingTotpStep (row.totpSecret.getD "") code now with
          | some step =>
              if row.totpLastStep.any (fun last => decide (toI64 step ≤ last)) then (.ok none, db)
              else
                (.ok (some row.identity),
                  updateWebParticipant participantId
                    (fun row => { row with
                      totpLastStep := some (toI64 step), totpFailCount := 0
                      totpLockedUntil := none })
                    (fun _ => rfl) db)
          | none =>
              let failCount := if row.totpLockedUntil.isSome then 0 else row.totpFailCount
              let failCount := min (failCount + 1) i64Max
              if failCount ≥ WebAuth.totpMaxFailures then
                (.ok none,
                  updateWebParticipant participantId
                    (fun row => { row with
                      totpFailCount := 0
                      totpLockedUntil :=
                        some (toI64 (min (now + WebAuth.totpLockSecs) WebAuth.u64Max)) })
                    (fun _ => rfl) db)
              else
                (.ok none,
                  updateWebParticipant participantId
                    (fun row => { row with totpFailCount := failCount, totpLockedUntil := none })
                    (fun _ => rfl) db)

end Blackboard
