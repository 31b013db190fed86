import Blackboard.Model.AccessRoutes
import Blackboard.Model.AdminRoutes
import Blackboard.Model.Rpc
import Blackboard.Model.Server

/-!
# The whole server (`runtime.rs`)

`run_server` merges the routers: messages and their history, the access API, the tools, the
webhook and the OIDC route. A process that serves standard input works on the same store.
Everything that arrives is a call, served as a program over the store, and any number of
calls are served at once.
-/

namespace Blackboard

open Concurrent (Program)

namespace Runtime

inductive Call where
  /-- A route of `Server`, or what an operator does at the machine. -/
  | board (request : Request)
  | access (headers : Headers) (requestTarget : String) (route : AccessApi.Route)
  | admin (headers : Headers) (route : Http.AdminRoute)
  | whoami (headers : Headers)
  | authGuest
  | mcp (headers : Headers) (body : Bytes)
  /-- A process that reads these lines. -/
  | stdio (lines : List String)

inductive Reply where
  | board (response : Response)
  | access (answer : AccessApi.Answer)
  | admin (answer : Http.AdminAnswer)
  | guest (session : WebAuth.WebSession)
  | mcp (reply : Mcp.HttpReply)
  | lines (responses : List Mcp.RpcResponse)

/-- `auth_guest`. -/
def authGuest [Hmac] [Base64Url] (key : Bytes) : Program World WebAuth.WebSession := do
  let now ← RequestAuth.currentUnixTime
  return WebAuth.issueWebSessionAt key WebAuth.guestParticipantId .guest now

variable [Sha256] [Hmac] [Base64Url] [Base64Standard] [JsonParser] [Jwt] [Mcp.UrlParser]

def serve (settings : Settings) : Call → Program World Reply
  | .board request => do return .board (← Blackboard.serve settings request)
  | .access headers requestTarget route => do
      return .access (← AccessApi.serveRoute settings.sessionKey headers requestTarget route)
  | .admin headers route => do return .admin (← Http.serveAdmin settings.sessionKey headers route)
  | .whoami headers => do return .admin (← Http.whoami settings.sessionKey headers)
  | .authGuest => do return .guest (← authGuest settings.sessionKey)
  | .mcp headers body => do return .mcp (← Mcp.post settings.oidcVerifier headers body)
  | .stdio lines => do return .lines (← Mcp.serveStdio lines)

abbrev CallEvent := Concurrent.Event Call World Reply

/-- The interleaving a schedule makes of the calls it starts. -/
def history (settings : Settings) (w : World) (moves : List (Concurrent.Move Call)) :
    List CallEvent :=
  Concurrent.history (serve settings) w moves

/-- The store and the calls in flight it ends in. -/
def config (settings : Settings) (w : World) (moves : List (Concurrent.Move Call)) :
    Concurrent.Config Call World Reply :=
  Transition.run (Concurrent.step (serve settings)) ⟨w, []⟩ moves

end Runtime

/-! ## A server nobody connects to -/

section Sample

/-- For runs that see no origin. -/
@[reducible] def sampleUrlParser : Mcp.UrlParser := ⟨fun _ => none⟩

end Sample

end Blackboard
