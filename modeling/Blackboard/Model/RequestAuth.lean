import Blackboard.Model.Db

/-!
# Who a request comes from (`request_auth.rs`)

A human web session, a signed request, or the bearer token of a registered client. The
look-ups run on one connection and read one row, so each is one query; a session is
checked against the clock before.
-/

namespace Blackboard

open Concurrent (Program)

/-- Header fields by lower case name, in the order received. A value that is no visible ASCII text
is `none`. -/
abbrev Headers := List (String × Option String)

namespace Headers

def get (headers : Headers) (name : String) : Option (Option String) := headers.lookup name

def containsKey (headers : Headers) (name : String) : Bool := (headers.get name).isSome

/-- The first value of a field, if it is text (`to_str`). -/
def toStr (headers : Headers) (name : String) : Option String := (headers.get name).join

/-- `header_text`: an empty value is none. -/
def text (headers : Headers) (name : String) : Option String :=
  (headers.toStr name).filter fun value => decide (value ≠ "")

/-- `bearer_token`. -/
def bearerToken (headers : Headers) : Option String :=
  match (headers.toStr "authorization").bind (Text.splitOnce ' ') with
  | some (scheme, token) =>
      if scheme.toLower ≠ "bearer" ∨ token = "" then none else some token
  | none => none

end Headers

namespace RequestAuth

def participantIdHeader : String := "x-blackboard-participant-id"
def authSchemeHeader : String := "x-blackboard-auth-scheme"
def authProofHeader : String := "x-blackboard-auth-proof"

/-- `current_unix_time`. -/
def currentUnixTime : Program World Nat := .read fun w => w.now.toNat

variable [Sha256] [Hmac] [Base64Url] [JsonParser]

/-- `key` is the process's session key. -/
def verifiedWebSession (key : Bytes) (headers : Headers) :
    Program World (Option WebAuth.WebSession) :=
  match headers.text WebAuth.webSessionHeader with
  | none => .done none
  | some token => do
      let now ← currentUnixTime
      return WebAuth.verifyWebSessionAt key token now

def resolveRequestIdentity (key : Bytes) (headers : Headers) : Program World (Option Identity) := do
  if headers.containsKey WebAuth.webSessionHeader then
    match ← verifiedWebSession key headers with
    | none => return none
    | some session =>
        if session.sessionType ≠ .humanWeb then return none
        else query fun db => getWebParticipant db session.participantId
  else if headers.containsKey participantIdHeader ∨ headers.containsKey authProofHeader
      ∨ headers.containsKey authSchemeHeader then
    return none
  else
    match headers.bearerToken with
    | none => return none
    | some token => query fun db => resolveIdentity db token

/-- The participant a signed request comes from, if the proof is its own. -/
def signedIdentity (db : Database) (participantId proof method requestTarget : String) :
    Option Identity :=
  match getWebParticipantAuth db participantId with
  | none => none
  | some auth =>
      if auth.authScheme ≠ ParticipantAuth.authScheme
          ∨ WebAuth.verifyHttpRequestAuth auth.authSecret proof participantId method
              requestTarget = false then
        none
      else some auth.identity

def resolveRequestIdentityForTarget (key : Bytes) (headers : Headers)
    (method requestTarget : String) : Program World (Option Identity) :=
  if ¬ (headers.containsKey authProofHeader ∨ headers.containsKey authSchemeHeader) then
    resolveRequestIdentity key headers
  else if headers.containsKey WebAuth.webSessionHeader then .done none
  else
    match headers.text participantIdHeader, headers.text authSchemeHeader,
        headers.text authProofHeader with
    | some participantId, some scheme, some proof =>
        if scheme ≠ ParticipantAuth.authScheme then .done none
        else query fun db => signedIdentity db participantId proof method requestTarget
    | _, _, _ => .done none

end RequestAuth

end Blackboard
