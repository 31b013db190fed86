import Blackboard.Model.McpTools
import Blackboard.Model.McpTransport

/-!
# JSON-RPC (`mcp.rs`)

The protocol around the tools: requests, notifications and responses over `POST /mcp`, in
a legacy and in a modern form, and line by line over standard input and output. The fixed
documents a client is told (the tools' descriptions, the server's name and instructions)
are one constructor each.
-/

namespace Blackboard

open Concurrent (Program)

namespace Mcp

def maxRequestBytes : Nat := 128 * 1024
def modernProtocolVersion : String := "2026-07-28"
def latestLegacyProtocolVersion : String := "2025-11-25"
def supportedLegacyProtocolVersions : List String := ["2025-03-26", "2025-06-18", "2025-11-25"]

/-! ## Responses -/

/-- What a method answers. -/
inductive RpcResult where
  | discover
  | initialized (protocolVersion : String)
  | pong
  | tools (bearerCapable : Bool)
  | tool (result : ToolResult)
  /-- `modern_result`: the same with what the modern protocol adds for the method. -/
  | modern (method : String) (result : RpcResult)

structure RpcError where
  code : Int
  message : String
  deriving DecidableEq, Repr

/-- A response repeats the id of its request. -/
structure RpcResponse where
  id : Json.Value
  outcome : Except RpcError RpcResult

def RpcResponse.failure (id : Json.Value) (code : Int) (message : String) : RpcResponse :=
  ⟨id, .error ⟨code, message⟩⟩

/-- What `POST /mcp` answers. -/
inductive HttpReply where
  | accepted
  | response (status : Nat) (response : RpcResponse)
  | unauthorized (id : Json.Value)
  | unsupportedProtocolVersion (id : Json.Value) (requested : String)
  /-- The handler panics; the connection ends without an answer. -/
  | panicked

/-! ## Parts of a request -/

def requestId (object : Json.Object) : Json.Value := (object.get "id").getD .null

def methodOf (object : Json.Object) : Option String :=
  (object.get "method").bind Json.Value.asStr

/-- A response of the client to something the server never asked. -/
def isResponse (object : Json.Object) : Bool :=
  object.containsKey "result" || object.containsKey "error"

def initializeResult (object : Json.Object) : Except String RpcResult := do
  let params ← required ((object.get "params").bind Json.Value.asObject) "invalid_initialize_params"
  let requested ← required ((Json.Object.get params "protocolVersion").bind Json.Value.asStr)
    "invalid_protocol_version"
  return .initialized
    (if supportedLegacyProtocolVersions.contains requested then requested
      else latestLegacyProtocolVersion)

/-- `validate_modern_request_metadata`, which standard input asks of `server/discover` only. -/
def validateModernRequestMetadata (object : Json.Object) : Except String Unit :=
  match requestMeta object, requestProtocolVersion object with
  | some fields, some protocol =>
      if protocol ≠ modernProtocolVersion then .error "unsupported_protocol_version"
      else if (fields.get "io.modelcontextprotocol/clientInfo").any (!validClientInfo ·) then
        .error "invalid_request_metadata"
      else if ((fields.get "io.modelcontextprotocol/clientCapabilities").bind
          Json.Value.asObject).isNone then
        .error "invalid_request_metadata"
      else .ok ()
  | _, _ => .error "invalid_request_metadata"

variable [Sha256] [Hmac] [Base64Url]

/-! ## Lines -/

/-- The methods of a request that carries an id. -/
def stdioMethod (object : Json.Object) (method : String) :
    Program World (Except RpcError RpcResult) :=
  match method with
  | "server/discover" =>
      .done (match validateModernRequestMetadata object with
        | .ok () => .ok .discover
        | .error message => .error ⟨-32602, message⟩)
  | "initialize" =>
      .done (match initializeResult object with
        | .ok result => .ok result
        | .error message => .error ⟨-32602, message⟩)
  | "ping" => .done (.ok .pong)
  | "tools/list" => .done (.ok (.tools false))
  | "tools/call" => do
      match ← toolCallResult object none with
      | .ok result => return .ok (.tool result)
      | .error message => return .error ⟨-32602, message⟩
  | _ => .done (.error ⟨-32601, "method_not_found"⟩)

def stdioDispatch (value : Json.Value) : Program World (Option RpcResponse) :=
  match value.asObject with
  | none => .done (some (.failure .null (-32600) "invalid_request"))
  | some object =>
      let id := requestId object
      if (Json.Object.get object "jsonrpc").bind Json.Value.asStr ≠ some "2.0" then
        .done (some (.failure id (-32600) "invalid_request"))
      else
        match methodOf object with
        | none =>
            if isResponse object then .done none
            else .done (some (.failure id (-32600) "invalid_request"))
        | some method =>
            if Json.Object.containsKey object "id" = false then .done none
            else do return some ⟨id, ← stdioMethod object method⟩

variable [JsonParser]

/-- What `serve_stdio` writes for the lines it reads: a line is answered before the next one is
read. -/
def serveStdio : List String → Program World (List RpcResponse)
  | [] => .done []
  | line :: lines =>
      if Text.isBlank line then serveStdio lines
      else
        match JsonParser.parse (Text.utf8 line) with
        | none => do
            let rest ← serveStdio lines
            return .failure .null (-32700) "parse_error" :: rest
        | some value => do
            let response ← stdioDispatch value
            let rest ← serveStdio lines
            return response.toList ++ rest

/-! ## Posts -/

/-- The parts of a URL the server looks at. -/
structure Url where
  scheme : String
  host : Option String
  deriving DecidableEq, Repr

/-- `Url::parse`. -/
class UrlParser where
  parse : String → Option Url

def originHostAllowed (url : Url) : Bool :=
  match url.host with
  | none => false
  | some host =>
      let host := host.toLower
      if host = "localhost" ∨ host = "127.0.0.1" ∨ host = "::1" then
        decide (url.scheme = "http" ∨ url.scheme = "https")
      else if url.scheme ≠ "https" then false
      else
        decide (host = "chatgpt.com") || Text.endsWith ".chatgpt.com" host
          || decide (host = "openai.com") || Text.endsWith ".openai.com" host

def originAllowed [UrlParser] (headers : Headers) : Bool :=
  match headers.get "origin" with
  | none => true
  | some none => false
  | some (some origin) => (UrlParser.parse origin).any originHostAllowed

variable [Base64Standard] [Jwt]

/-- The methods of the modern protocol. -/
def modernMethod (bearerCapable : Bool) (object : Json.Object) (method : String)
    (principal : Option Principal) : Program World HttpReply :=
  let id := requestId object
  match method with
  | "server/discover" => .done (.response 200 ⟨id, .ok .discover⟩)
  | "tools/list" => .done (.response 200 ⟨id, .ok (.modern method (.tools bearerCapable))⟩)
  | "tools/call" => do
      match ← toolCallResult object principal with
      | .ok result => return .response 200 ⟨id, .ok (.modern method (.tool result))⟩
      | .error message => return .response 200 (.failure id (-32602) message)
  | _ => .done (.response 404 (.failure id (-32601) "method_not_found"))

/-- The methods of the legacy protocol. -/
def legacyMethod (object : Json.Object) (method : String) (principal : Option Principal) :
    Program World HttpReply :=
  let id := requestId object
  match method with
  | "initialize" =>
      .done (match initializeResult object with
        | .ok result => .response 200 ⟨id, .ok result⟩
        | .error message => .response 200 (.failure id (-32602) message))
  | "ping" => .done (.response 200 ⟨id, .ok .pong⟩)
  | "tools/list" => .done (.response 200 ⟨id, .ok (.tools false)⟩)
  | "tools/call" => do
      match ← toolCallResult object principal with
      | .ok result => return .response 200 ⟨id, .ok (.tool result)⟩
      | .error message => return .response 200 (.failure id (-32602) message)
  | _ => .done (.response 200 (.failure id (-32601) "method_not_found"))

def isModern (headers : Headers) (object : Json.Object) (method : String) : Bool :=
  (requestProtocolVersion object).isSome
    || decide (headers.toStr "mcp-protocol-version" = some modernProtocolVersion)
    || decide (method = "server/discover")

/-- What is done for a method once the caller is admitted. -/
def dispatch (bearerCapable : Bool) (headers : Headers) (object : Json.Object) (method : String)
    (principal : Option Principal) : Program World HttpReply :=
  let id := requestId object
  if isModern headers object method then
    match validateModernHttpMetadata headers object method with
    | .error _ => .done .panicked
    | .ok (.error message) => .done (.response 400 (.failure id (-32020) message))
    | .ok (.ok ()) =>
        let requested := (requestProtocolVersion object).getD ""
        if requested ≠ modernProtocolVersion then
          .done (.unsupportedProtocolVersion id requested)
        else if Json.Object.containsKey object "id" = false then .done .accepted
        else modernMethod bearerCapable object method principal
  else
    match (headers.toStr "mcp-protocol-version").filter fun version =>
        !supportedLegacyProtocolVersions.contains version with
    | some version => .done (.unsupportedProtocolVersion id version)
    | none =>
        if Json.Object.containsKey object "id" = false then .done .accepted
        else legacyMethod object method principal

/-- `mcp_post` from the method on: who calls, and whether the tool wants to know. -/
def postMethod (verifier : Option OidcVerifier) (headers : Headers) (object : Json.Object)
    (method : String) : Program World HttpReply := do
  match ← resolveHttpBearerPrincipal verifier headers with
  | .error () => return .unauthorized (requestId object)
  | .ok principal =>
      if ← (if verifier.isSome ∧ principal.isNone then httpToolCallBodyRequiresAuth object
          else .done false) then
        return .unauthorized (requestId object)
      else dispatch verifier.isSome headers object method principal

/-- `mcp_post`. -/
def post [UrlParser] (verifier : Option OidcVerifier) (headers : Headers) (body : Bytes) :
    Program World HttpReply :=
  if originAllowed headers = false then
    .done (.response 403 (.failure .null (-32600) "origin_not_allowed"))
  else if body.length > maxRequestBytes then
    .done (.response 413 (.failure .null (-32600) "request_too_large"))
  else
    match JsonParser.parse body with
    | none => .done (.response 400 (.failure .null (-32700) "parse_error"))
    | some value =>
        match value.asObject with
        | none => .done (.response 400 (.failure .null (-32600) "invalid_request"))
        | some object =>
            let id := requestId object
            if (Json.Object.get object "jsonrpc").bind Json.Value.asStr ≠ some "2.0" then
              .done (.response 400 (.failure id (-32600) "invalid_request"))
            else
              match methodOf object with
              | none =>
                  if isResponse object then .done .accepted
                  else .done (.response 400 (.failure id (-32600) "invalid_request"))
              | some method => postMethod verifier headers object method

end Mcp

end Blackboard
