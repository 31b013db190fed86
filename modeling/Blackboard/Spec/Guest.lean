import Mathlib.Data.Set.Basic
import Blackboard.Model.Server

/-!
# What a guest may see

A guest is a reader nobody has asked for a name: it carries a guest session, or no
credential at all. The part of a store that is for everybody is its public active
channels and their messages.
-/

namespace Blackboard

/-! ## The part for everybody -/

/-- A channel is for everybody. -/
def Channel.IsPublic (row : Channel) : Prop := row.visibility = "public" ∧ row.status = activeStatus

instance (row : Channel) : Decidable row.IsPublic := inferInstanceAs (Decidable (_ ∧ _))

structure GuestView where
  channels : Set Channel
  messages : Set Message

def Database.guestView (db : Database) : GuestView where
  channels := {row | row ∈ db.channels ∧ row.IsPublic}
  messages := {m | m ∈ db.messages ∧ ∃ row ∈ db.channels, row.IsPublic ∧ row.name = m.channel}

/-- A store without a channel and its messages. -/
def Database.without (db : Database) (channel : String) : Database :=
  { db with
    channels := db.channels.keep fun row => decide (row.name ≠ channel)
    messages := db.messages.keep fun m => decide (m.channel ≠ channel) }

/-! ## Its readers -/

namespace Headers

/-- No session, no proof and no token. -/
structure NoCredential (headers : Headers) : Prop where
  session : headers.containsKey WebAuth.webSessionHeader = false
  participantId : headers.containsKey RequestAuth.participantIdHeader = false
  scheme : headers.containsKey RequestAuth.authSchemeHeader = false
  proof : headers.containsKey RequestAuth.authProofHeader = false
  bearer : headers.containsKey "authorization" = false

variable [Hmac] [Base64Url] [JsonParser]

/-- A session of a guest, whether it has expired or not. -/
def GuestSession (key : Bytes) (headers : Headers) : Prop :=
  ∃ token now session, headers.text WebAuth.webSessionHeader = some token
    ∧ WebAuth.verifyWebSessionAt key token now = some session ∧ session.sessionType = .guest

def OfGuest (key : Bytes) (headers : Headers) : Prop :=
  headers.GuestSession key ∨ headers.NoCredential

end Headers

/-- A request that reads for a guest. -/
def Request.GuestRead [Hmac] [Base64Url] [JsonParser] (key : Bytes) : Request → Prop
  | .navigationRead .. => True
  | .messages headers .. => headers.OfGuest key
  | .channels headers .. => headers.OfGuest key
  | .messageWindow headers .. => headers.OfGuest key
  | .mcp headers tool arguments =>
      tool = .blackboardRead ∧ headers.containsKey "authorization" = false
        ∧ arguments.containsKey "participant_id" = false ∧ arguments.containsKey "auth" = false
  | _ => False

end Blackboard
