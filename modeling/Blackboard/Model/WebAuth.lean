import Blackboard.Model.ParticipantAuth

/-!
# Human web sessions and TOTP codes (`web_auth.rs`)

A session is a token the server signed with a key it drew when it started: the store
keeps no trace of it. Whoever holds an unexpired token is the participant it names.
-/

namespace Blackboard

open Json (Scalar renderObject)

namespace WebAuth

def webSessionHeader : String := "x-blackboard-web-session"
def totpPeriodSecs : Nat := 30
def totpDigits : Nat := 6
def totpMaxFailures : Int := 5
def totpLockSecs : Nat := 60
def guestParticipantId : String := "anonymous"
def webSessionPrefix : String := "bbsess-v1"
def webSessionPurpose : String := "human-web-session-v1"
def webSessionTtlSecs : Nat := 8 * 60 * 60

/-- The largest `u64`. -/
def u64Max : Nat := 2 ^ 64 - 1

inductive WebSessionKind where
  | humanWeb
  | guest
  deriving DecidableEq, Repr

namespace WebSessionKind

def asStr : WebSessionKind → String
  | humanWeb => "human-web"
  | guest => "guest"

def parse (value : String) : Option WebSessionKind :=
  if value = "human-web" then some humanWeb
  else if value = "guest" then some guest
  else none

end WebSessionKind

structure WebSession where
  participantId : String
  sessionType : WebSessionKind
  expiresAt : Nat
  token : String
  deriving DecidableEq, Repr

/-! ## TOTP -/

/-- `BASE32_ALPHABET`. -/
def base32Alphabet : Bytes := Text.utf8 "ABCDEFGHIJKLMNOPQRSTUVWXYZ234567"

/-- `BASE32_ALPHABET[index] as char`. -/
def base32Char (index : UInt32) : Char :=
  Char.ofNat (base32Alphabet.getD index.toNat 0).toNat

/-- The inner loop of `base32_encode`: five bits go out as long as there are five. -/
def base32Emit (out : List Char) (buffer : UInt32) (bits : Nat) : List Char × Nat :=
  if 5 ≤ bits then
    base32Emit (out ++ [base32Char ((buffer >>> UInt32.ofNat (bits - 5)) &&& 0x1f)]) buffer (bits - 5)
  else (out, bits)

/-- The outer loop of `base32_encode`: what is written, the shift buffer and its bit count. -/
def base32EncodeLoop : Bytes → List Char → UInt32 → Nat → List Char × UInt32 × Nat
  | [], out, buffer, bits => (out, buffer, bits)
  | byte :: rest, out, buffer, bits =>
      let buffer := (buffer <<< 8) ||| byte.toUInt32
      let (out, bits) := base32Emit out buffer (bits + 8)
      base32EncodeLoop rest out buffer bits

def base32Encode (bytes : Bytes) : String :=
  let (out, buffer, bits) := base32EncodeLoop bytes [] 0 0
  String.ofList
    (if 0 < bits then out ++ [base32Char ((buffer <<< UInt32.ofNat (5 - bits)) &&& 0x1f)] else out)

/-- The five bits a base 32 character stands for. -/
def base32Index (byte : UInt8) : Option UInt32 :=
  let upper := if 97 ≤ byte ∧ byte ≤ 122 then byte - 32 else byte
  if 65 ≤ upper ∧ upper ≤ 90 then some (upper - 65).toUInt32
  else if 50 ≤ upper ∧ upper ≤ 55 then some (upper - 50 + 26).toUInt32
  else none

/-- The loop of `base32_decode`: the bytes read, the shift buffer and its bit count. -/
def base32DecodeLoop : Bytes → Bytes → UInt32 → Nat → Option Bytes
  | [], out, _, _ => some out
  | byte :: rest, out, buffer, bits =>
      match base32Index byte with
      | none => none
      | some index =>
          let buffer := (buffer <<< 5) ||| index
          if bits + 5 ≥ 8 then
            base32DecodeLoop rest
              (out ++ [((buffer >>> (bits + 5 - 8).toUInt32) &&& 0xff).toUInt8])
              buffer (bits + 5 - 8)
          else base32DecodeLoop rest out buffer (bits + 5)

def base32Decode (value : String) : Option Bytes :=
  if value = "" ∨ (Text.utf8 value).contains 61 then none
  else base32DecodeLoop (Text.utf8 value) [] 0 0

def validateTotpSecret (secret : String) : Bool :=
  match base32Decode secret with
  | some bytes => decide (10 ≤ bytes.length ∧ bytes.length ≤ 64)
  | none => false

/-- `step.to_be_bytes()`. -/
def toBeBytes (step : Nat) : Bytes :=
  [56, 48, 40, 32, 24, 16, 8, 0].map fun shift => (step / 2 ^ shift % 256).toUInt8

/-- A number in at least `width` decimal digits. -/
def zeroPadded (width n : Nat) : String :=
  let digits := (toString n).toList
  String.ofList (List.replicate (width - digits.length) '0' ++ digits)

variable [Hmac] [Base64Url] [JsonParser]

def totpCodeBytes (secret : Bytes) (step digits : Nat) : Option String :=
  if ¬ (6 ≤ digits ∧ digits ≤ 8) then none
  else
    let digest := Hmac.sha1 secret (toBeBytes step)
    match digest.getLast? with
    | none => none
    | some last =>
        let offset := last.toNat % 16
        if offset + 4 > digest.length then none
        else
          let byte := fun i => (digest.getD i 0).toNat
          let binary := byte offset % 128 * 2 ^ 24 + byte (offset + 1) * 2 ^ 16
            + byte (offset + 2) * 2 ^ 8 + byte (offset + 3)
          some (zeroPadded digits (binary % 10 ^ digits))

/-- The step among the candidates whose code is the one given; the first code that cannot be
computed ends the search. -/
def matchingStep (secret : Bytes) (code : String) : List Nat → Option Nat
  | [] => none
  | step :: rest =>
      match totpCodeBytes secret step totpDigits with
      | none => none
      | some expected => if expected = code then some step else matchingStep secret code rest

def isTotpCode (code : String) : Bool :=
  decide (code.utf8ByteSize = totpDigits) && code.toList.all Text.isAsciiDigit

def matchingTotpStep (secret code : String) (now : Nat) : Option Nat :=
  if isTotpCode code = false then none
  else
    match base32Decode secret with
    | none => none
    | some secret =>
        let current := now / totpPeriodSecs
        matchingStep secret code
          ([current] ++ (if 1 ≤ current then [current - 1] else [])
            ++ (if current + 1 ≤ u64Max then [current + 1] else []))

/-! ## Sessions -/

/-- The text a session token signs. -/
def sessionPayload (participantId : String) (sessionType : WebSessionKind) (expiresAt : Nat) :
    Bytes :=
  Text.utf8 (renderObject
    [("expires_at", .int expiresAt), ("participant_id", .string participantId),
      ("purpose", .string webSessionPurpose), ("session_type", .string sessionType.asStr),
      ("version", .string webSessionPrefix)])

/-- `key` is the process's session key. -/
def issueWebSessionAt (key : Bytes) (participantId : String) (sessionType : WebSessionKind)
    (now : Nat) : WebSession :=
  let expiresAt := min (now + webSessionTtlSecs) u64Max
  let payload := sessionPayload participantId sessionType expiresAt
  { participantId, sessionType, expiresAt
    token := webSessionPrefix ++ "." ++ Base64Url.encode payload ++ "."
      ++ Base64Url.encode (Hmac.sha256 key payload) }

/-- The claims of a session token whose signature was checked. -/
def sessionClaims (value : Json.Value) (token : String) (now : Nat) : Option WebSession := do
  let version ← (← value.get "version").asStr
  let purpose ← (← value.get "purpose").asStr
  if version ≠ webSessionPrefix ∨ purpose ≠ webSessionPurpose then none
  let participantId ← (← value.get "participant_id").asStr
  let expiresAt ← (← value.get "expires_at").asU64
  let sessionType ← match value.get "session_type" with
    | none => some .humanWeb
    | some value => value.asStr.bind WebSessionKind.parse
  if participantId = "" ∨ participantId.utf8ByteSize > 64 ∨ expiresAt < now then none
  if sessionType = .guest ∧ participantId ≠ guestParticipantId then none
  some { participantId, sessionType, expiresAt, token }

def verifyWebSessionAt (key : Bytes) (token : String) (now : Nat) : Option WebSession :=
  match Text.split '.' token with
  | [version, payloadEncoded, tagEncoded] =>
      if version ≠ webSessionPrefix then none
      else
        match Base64Url.decode payloadEncoded, Base64Url.decode tagEncoded with
        | some payload, some tag =>
            if Hmac.verify key payload tag then
              (JsonParser.parse payload).bind fun value => sessionClaims value token now
            else none
        | _, _ => none
  | _ => none

/-! ## Signed requests -/

def canonicalHttpRequestBytes (participantId method requestTarget : String) : Bytes :=
  Text.utf8 (renderObject
    [("auth_version", .string ParticipantAuth.authScheme), ("method", .string method),
      ("participant_id", .string participantId), ("purpose", .string "http-request-auth-v1"),
      ("request_target", .string requestTarget)])

def verifyHttpRequestAuth (secret proof participantId method requestTarget : String) : Bool :=
  ParticipantAuth.verifyMessageProof secret proof
    (canonicalHttpRequestBytes participantId method requestTarget)

end WebAuth

end Blackboard
