import Blackboard.Lib.Base64Standard
import Blackboard.Lib.Slice
import Blackboard.Model.Mcp

/-!
# The headers of a call (`mcp.rs`)

A client of the modern protocol repeats in the headers what the body of its request says:
the protocol version, the method, and for a call the tool's name. A name that does not fit a
header is sent in base 64 between marks.
-/

namespace Blackboard

/-- A thread that panics answers nothing. -/
inductive Panic where
  | slice
  deriving DecidableEq, Repr

namespace Mcp

def headerPrefix : String := "=?base64?"
def headerSuffix : String := "?="

/-- A tab, a blank or a visible character. -/
def headerByte (byte : UInt8) : Bool :=
  decide (byte = 0x09 ∨ byte = 0x20 ∨ 0x21 ≤ byte ∧ byte ≤ 0x7e)

variable [Base64Standard]

def decodeMcpHeaderValue (value : String) : Except Panic (Option String) :=
  if Text.startsWith headerPrefix value && Text.endsWith headerSuffix value then
    match Text.slice headerPrefix.utf8ByteSize (value.utf8ByteSize - headerSuffix.utf8ByteSize)
        value with
    | none => .error .slice
    | some encoded =>
        .ok ((Base64Standard.decode encoded).bind fun bytes => String.fromUTF8? ⟨bytes.toArray⟩)
  else if value = "" ∨ Text.trim value ≠ value ∨ (Text.utf8 value).all headerByte = false then
    .ok none
  else .ok (some value)

/-- `_meta` of the parameters. -/
def requestMeta (object : Json.Object) : Option Json.Object :=
  ((object.get "params").bind (Json.Value.get "_meta")).bind Json.Value.asObject

def requestProtocolVersion (object : Json.Object) : Option String :=
  (requestMeta object).bind fun fields =>
    (fields.get "io.modelcontextprotocol/protocolVersion").bind Json.Value.asStr

/-- The name and the version of a client are texts that say something. -/
def validClientInfo (value : Json.Value) : Bool :=
  ["name", "version"].all fun key =>
    ((value.get key).bind Json.Value.asStr).any fun text => decide (text ≠ "")

def mismatch : Except Panic (Except String Unit) := .ok (.error "header_mismatch")

/-- The part after the method and the name. -/
def validateModernMeta (object : Json.Object) : Except String Unit :=
  match requestMeta object with
  | none => .error "header_mismatch"
  | some fields =>
      if (fields.get "io.modelcontextprotocol/clientInfo").any (!validClientInfo ·) then
        .error "header_mismatch"
      else if ((fields.get "io.modelcontextprotocol/clientCapabilities").bind
          Json.Value.asObject).isNone then
        .error "header_mismatch"
      else .ok ()

def validateModernHttpMetadata (headers : Headers) (object : Json.Object) (method : String) :
    Except Panic (Except String Unit) :=
  match requestProtocolVersion object with
  | none => mismatch
  | some bodyProtocol =>
      if headers.toStr "mcp-protocol-version" ≠ some bodyProtocol then mismatch
      else if headers.toStr "mcp-method" ≠ some method then mismatch
      else if method = "tools/call" then
        match ((object.get "params").bind (Json.Value.get "name")).bind Json.Value.asStr,
            headers.toStr "mcp-name" with
        | some bodyName, some value =>
            match decodeMcpHeaderValue value with
            | .error panic => .error panic
            | .ok headerName =>
                if headerName ≠ some bodyName then mismatch else .ok (validateModernMeta object)
        | _, _ => mismatch
      else .ok (validateModernMeta object)

end Mcp

end Blackboard
