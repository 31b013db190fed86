import Blackboard.Model.Http

/-!
# The routes of `http.rs` for administrators

A human administrator lists every channel, creates channels and changes them. Whether the
caller is one is found out first, by statements of their own; what the route then does, it
does without asking again.
-/

namespace Blackboard

open Concurrent (Program)

namespace Http

/-- What `whoami` tells a caller about itself. -/
structure WhoAmI where
  source : String
  inst : String
  label : Option String
  role : String
  sessionType : String
  deriving DecidableEq, Repr

inductive AdminAnswer where
  | directory (channels : List ChannelSummary) (hasMore : Bool)
  | channel (status : Nat) (channel : Channel)
  | who (who : WhoAmI)
  | error (e : ApiError)

/-- What an administrator asks for. The path and the query reach a route decoded. -/
inductive AdminRoute where
  | adminChannels (query : Query)
  | adminCreateChannel (body : Bytes)
  | adminUpdateChannel (channel : String) (body : Bytes)

variable [Sha256] [Hmac] [Base64Url] [JsonParser]

def requireHumanAdmin (key : Bytes) (headers : Headers) :
    Program World (Except ApiError Identity) := do
  match ← RequestAuth.verifiedWebSession key headers with
  | none => return .error .unauthorized
  | some session =>
      if session.sessionType ≠ .humanWeb then return .error .forbidden
      else
        let identity ← query fun db => getWebParticipant db session.participantId
        let role ← query fun db => getWebParticipantRole db session.participantId
        match identity with
        | none => return .error .unauthorized
        | some identity =>
            if role = some "admin" then return .ok identity else return .error .forbidden

/-- `require_identity`. -/
def requireIdentity (key : Bytes) (headers : Headers) :
    Program World (Except ApiError Identity) := do
  match ← RequestAuth.resolveRequestIdentity key headers with
  | some identity => return .ok identity
  | none => return .error .unauthorized

def whoami (key : Bytes) (headers : Headers) : Program World AdminAnswer := do
  match ← RequestAuth.verifiedWebSession key headers with
  | some session =>
      if session.sessionType = .guest then
        return .who ⟨"anonymous", WebAuth.guestParticipantId, some "Guest", "guest", "guest"⟩
      else
        let identity ← query fun db => getWebParticipant db session.participantId
        let role ← query fun db => getWebParticipantRole db session.participantId
        match identity with
        | none => return .error .unauthorized
        | some identity =>
            return .who ⟨identity.source, identity.inst, identity.label, role.getD "user",
              "human-web"⟩
  | none =>
      match ← requireIdentity key headers with
      | .error e => return .error e
      | .ok identity =>
          return .who ⟨identity.source, identity.inst, identity.label, "user", "client"⟩

def adminChannels (query' : Query) : Program World AdminAnswer :=
  match parseChannelAfterName query', parseChannelDirectoryLimit query' with
  | .error e, _ => .done (.error e)
  | .ok _, .error e => .done (.error e)
  | .ok afterName, .ok limit => do
      match ← query fun db =>
          readChannelDirectoryWindow db { afterName, limit := some limit, publicOnly := false } with
      | .error _ => return .error .database
      | .ok (channels, hasMore) => return .directory channels hasMore

def visibilities : List String := ["public", "private"]
def statuses : List String := ["active", "archived"]

/-- A member that may be missing and is one of these texts. -/
def parseChoice (object : Json.Object) (key : String) (values : List String) (code : String) :
    Except ApiError (Option String) :=
  match object.get key with
  | none => .ok none
  | some value =>
      match value.asStr.filter values.contains with
      | some value => .ok (some value)
      | none => .error (.badRequest code)

def parseCreateChannel (object : Json.Object) : Except ApiError (String × String) := do
  if object.onlyKeys ["name", "visibility"] = false then .error (.badRequest "invalid_arguments")
  let channel ← match ((object.get "name").bind Json.Value.asStr).filter nameRe with
    | some channel => .ok channel
    | none => .error (.badRequest "invalid_channel")
  let visibility ← parseChoice object "visibility" visibilities "invalid_visibility"
  return (channel, visibility.getD "private")

def parseUpdateChannel (object : Json.Object) : Except ApiError (Option String × Option String) := do
  if object.isEmpty ∨ object.onlyKeys ["visibility", "status"] = false then
    .error (.badRequest "invalid_arguments")
  let visibility ← parseChoice object "visibility" visibilities "invalid_visibility"
  let status ← parseChoice object "status" statuses "invalid_status"
  return (visibility, status)

/-- The statement that changes a channel and the query that shows it, one connection. -/
def changedChannel (change : Int → Statement Bool) (channel : String) (status : Nat)
    (unchanged : ApiError) : Program World AdminAnswer := do
  match ← statement fun now db => change now db with
  | .error _ => return .error .database
  | .ok false => return .error unchanged
  | .ok true =>
      match ← query fun db => channelMetadata db channel with
      | some row => return .channel status row
      | none => return .error unchanged

def adminCreateChannel (body : Bytes) (admin : Identity) : Program World AdminAnswer :=
  match (readJsonObject body).bind parseCreateChannel with
  | .error e => .done (.error e)
  | .ok (channel, visibility) =>
      changedChannel (fun now => createChannel now channel visibility (some admin.inst)) channel 201
        ⟨409, "channel_exists"⟩

def adminUpdateChannel (channel : String) (body : Bytes) : Program World AdminAnswer :=
  if nameRe channel = false then .done (.error (.badRequest "invalid_channel"))
  else
    match (readJsonObject body).bind parseUpdateChannel with
    | .error e => .done (.error e)
    | .ok (visibility, status) =>
        changedChannel (fun now => updateChannel now channel visibility status) channel 200
          ⟨404, "channel_not_found"⟩

/-- What a route does for its administrator. -/
def AdminRoute.handle (admin : Identity) : AdminRoute → Program World AdminAnswer
  | .adminChannels query => Http.adminChannels query
  | .adminCreateChannel body => Http.adminCreateChannel body admin
  | .adminUpdateChannel channel body => Http.adminUpdateChannel channel body

def serveAdmin (key : Bytes) (headers : Headers) (route : AdminRoute) :
    Program World AdminAnswer := do
  match ← requireHumanAdmin key headers with
  | .error e => return .error e
  | .ok admin => route.handle admin

end Http

end Blackboard
