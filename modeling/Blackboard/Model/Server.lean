import Blackboard.Model.GithubWebhook
import Blackboard.Model.History
import Blackboard.Model.Mcp
import Blackboard.Model.System

/-!
# The server

Every request of the program that reads or writes messages, the administration that comes
in between, and the passing of time, as programs over one store. Requests are served
concurrently: an interleaving of them is a history of the pool.
-/

namespace Blackboard

open Concurrent (Program)

/-- Secrets and accounts set, drawn and revoked. -/
inductive CredentialOp where
  | setTotp (participantId secret : String)
  | revokeTotp (participantId : String)
  | setAuthSecret (participantId secret : String)
  | revokeAuth (participantId : String)
  | register (source : String) (label : Option String) (inst token : String)
  | rotateToken (inst token : String)
  | revokeToken (inst : String)

def CredentialOp.apply [Sha256] [Hmac] [Base64Url] : CredentialOp → Database → Database
  | setTotp participantId secret, db => (setWebParticipantTotp participantId secret db).2
  | revokeTotp participantId, db => (revokeWebParticipantTotp participantId db).2
  | setAuthSecret participantId secret, db => (setWebParticipantAuthSecret participantId secret db).2
  | revokeAuth participantId, db => (revokeWebParticipantAuth participantId db).2
  | register source label inst token, db => (registerIdentity source label inst token db).2
  | rotateToken inst token, db => (Blackboard.rotateToken inst token db).2
  | revokeToken inst, db => (Blackboard.revokeToken inst db).2

/-- What arrives at the server. -/
inductive Request where
  | navigationRead (channel : String) (query : Http.Query)
  | navigationWrite (participantId : String) (query : Http.Query)
  | authTotp (body : Bytes)
  | messages (headers : Headers) (requestTarget : String) (query : Http.Query)
  | channels (headers : Headers) (requestTarget : String) (query : Http.Query)
  | messageWindow (headers : Headers) (requestTarget : String) (q : History.MessageWindowQuery)
  | postMessage (headers : Headers) (body : Bytes)
  | mcp (headers : Headers) (tool : Mcp.Tool) (arguments : Json.Object)
  | oidc (participantId : String) (headers : Headers) (body : Bytes)
  | github (headers : Headers) (body : Bytes)
  | grant (op : GrantOp)
  | participant (op : ParticipantOp)
  | channel (op : ChannelOp)
  | credential (op : CredentialOp)
  /-- The clock is set. -/
  | tick (now : Int)

/-- What the process was started with. -/
structure Settings where
  sessionKey : Bytes
  github : GithubWebhook.Settings
  oidcVerifier : Option OidcVerifier

/-- One statement of an administrator. -/
def administered (apply : Int → Database → Database) : Program World Response := do
  statement fun now db => ((), apply now db)
  return ⟨200, .accepted⟩

variable [Sha256] [Hmac] [Base64Url] [JsonParser] [Jwt]

def serve (settings : Settings) : Request → Program World Response
  | .navigationRead channel query => Http.navigationRead channel query
  | .navigationWrite participantId query => Http.navigationWrite participantId query
  | .authTotp body => Http.authTotp settings.sessionKey body
  | .messages headers requestTarget query =>
      Http.messages settings.sessionKey headers requestTarget query
  | .channels headers requestTarget query =>
      Http.channels settings.sessionKey headers requestTarget query
  | .messageWindow headers requestTarget q =>
      History.messageWindow settings.sessionKey headers requestTarget q
  | .postMessage headers body => Http.postMessage settings.sessionKey headers body
  | .mcp headers tool arguments => Mcp.mcpPost settings.oidcVerifier headers tool arguments
  | .oidc participantId headers body =>
      match settings.oidcVerifier with
      | some verifier => Oidc.postMessage verifier participantId headers body
      | none => .done ⟨404, .error "not_found"⟩
  | .github headers body => GithubWebhook.githubIssueWebhook settings.github headers body
  | .grant op => administered op.apply
  | .participant op => administered fun _ => op.apply
  | .channel op => administered op.apply
  | .credential op => administered fun _ => op.apply
  | .tick now => .step (fun w => { w with now }) fun _ => .done ⟨200, .accepted⟩

/-- A move of the server's scheduler, and what happened at it. -/
abbrev Move := Concurrent.Move Request
abbrev ServerEvent := Concurrent.Event Request World Response

/-- The interleaving a schedule makes of the requests it starts. -/
def serverHistory (settings : Settings) (w : World) (moves : List Move) : List ServerEvent :=
  Concurrent.history (serve settings) w moves

/-! ## A server without webhooks and bearer tokens -/

section Sample

def sampleSettings : Settings := ⟨[], ⟨none, none⟩, none⟩

/-- For runs that parse nothing. -/
@[reducible] def sampleJsonParser : JsonParser := ⟨fun _ => none⟩

/-- For runs that see no token. -/
@[reducible] def sampleJwt : Jwt := ⟨fun _ => none, fun _ _ _ _ _ => none⟩

end Sample

end Blackboard
