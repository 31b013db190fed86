import Blackboard.Lib.Crypto

/-!
# Participant proofs (`participant_auth.rs`)

A participant signs what it asks for with a shared secret. The bytes it signs are the
compact JSON text of the fields, in key order.
-/

namespace Blackboard

open Json (Scalar renderObject)

namespace ParticipantAuth

def authScheme : String := "hmac-sha256-v1"
def secretPrefix : String := "hmac-sha256-secret:"

variable [Hmac] [Base64Url]

def decodeSecret (secret : String) : Option Bytes :=
  match Text.stripPrefix secretPrefix secret with
  | none => none
  | some encoded =>
      if encoded = "" then none
      else match Base64Url.decode encoded with
        | none => none
        | some decoded => if decoded.length = 32 then some decoded else none

def validateSecret (secret : String) : Bool := (decodeSecret secret).isSome

def canonicalWriteBytesWithIntent (participantId channel kind body : String)
    (replyTo : Option Int) (nonce : String) (intentId : Option String) : Bytes :=
  Text.utf8 (renderObject
    ([("auth_version", .string authScheme), ("body", .string body), ("channel", .string channel)]
      ++ (match intentId with
          | some intentId => [("intent_id", Scalar.string intentId)]
          | none => [])
      ++ [("kind", .string kind), ("nonce", .string nonce),
        ("participant_id", .string participantId), ("reply_to", .ofOptionInt replyTo)]))

def canonicalReadBytes (participantId channel : String) (after : Int) (limit : Nat) : Bytes :=
  Text.utf8 (renderObject
    [("after", .int after), ("auth_version", .string authScheme), ("channel", .string channel),
      ("limit", .int limit), ("participant_id", .string participantId),
      ("purpose", .string "blackboard-read-v1")])

def canonicalAuthorizationDecisionBytes (participantId principalProvider principalSubject
    targetParticipantId capability : String) (resource intentId : Option String) : Bytes :=
  Text.utf8 (renderObject
    [("auth_version", .string authScheme), ("capability", .string capability),
      ("intent_id", .ofOptionString intentId), ("participant_id", .string participantId),
      ("principal_provider", .string principalProvider),
      ("principal_subject", .string principalSubject),
      ("purpose", .string "authorization-decision-explain-v1"),
      ("resource", .ofOptionString resource),
      ("target_participant_id", .string targetParticipantId)])

def canonicalCapabilityBytes (participantId capability : String) (resource : Option String) :
    Bytes :=
  Text.utf8 (renderObject
    [("auth_version", .string authScheme), ("capability", .string capability),
      ("participant_id", .string participantId), ("purpose", .string "blackboard-capability-v1"),
      ("resource", .ofOptionString resource)])

def verifyMessageProof (secret proof : String) (message : Bytes) : Bool :=
  match decodeSecret secret with
  | none => false
  | some secret =>
      match Base64Url.decode proof with
      | none => false
      | some proof => decide (proof.length = 32) && Hmac.verify secret message proof

def verifyWriteProofWithIntent (secret proof participantId channel kind body : String)
    (replyTo : Option Int) (nonce : String) (intentId : Option String) : Bool :=
  verifyMessageProof secret proof
    (canonicalWriteBytesWithIntent participantId channel kind body replyTo nonce intentId)

def verifyWriteProof (secret proof participantId channel kind body : String)
    (replyTo : Option Int) (nonce : String) : Bool :=
  verifyWriteProofWithIntent secret proof participantId channel kind body replyTo nonce none

def verifyReadProof (secret proof participantId channel : String) (after : Int)
    (limit : Nat) : Bool :=
  verifyMessageProof secret proof (canonicalReadBytes participantId channel after limit)

def verifyCapabilityProof (secret proof participantId capability : String)
    (resource : Option String) : Bool :=
  verifyMessageProof secret proof (canonicalCapabilityBytes participantId capability resource)

end ParticipantAuth

end Blackboard
