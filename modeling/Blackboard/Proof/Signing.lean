import Blackboard.Model.WebAuth

/-!
# What a participant signs

One secret signs five kinds of request. A proof is a tag on bytes, so it says no more than
the bytes do: if two requests had the same bytes, a proof of one would be a proof of the
other. They never do (`canonicalBytes_inj`).
-/

namespace Blackboard

open Json (Scalar renderObject)

/-- A request a participant's secret signs. -/
inductive SignedOperation where
  | write (participantId channel kind body : String) (replyTo : Option Int) (nonce : String)
      (intentId : Option String)
  | read (participantId channel : String) (after : Int) (limit : Nat)
  | explainDecision (participantId principalProvider principalSubject targetParticipantId
      capability : String) (resource intentId : Option String)
  | useCapability (participantId capability : String) (resource : Option String)
  | httpRequest (participantId method requestTarget : String)
  deriving DecidableEq, Repr

namespace SignedOperation

/-- The bytes that are signed. -/
def canonicalBytes : SignedOperation → Bytes
  | write participantId channel kind body replyTo nonce intentId =>
      ParticipantAuth.canonicalWriteBytesWithIntent participantId channel kind body replyTo nonce
        intentId
  | read participantId channel after limit =>
      ParticipantAuth.canonicalReadBytes participantId channel after limit
  | explainDecision participantId principalProvider principalSubject targetParticipantId capability
      resource intentId =>
      ParticipantAuth.canonicalAuthorizationDecisionBytes participantId principalProvider
        principalSubject targetParticipantId capability resource intentId
  | useCapability participantId capability resource =>
      ParticipantAuth.canonicalCapabilityBytes participantId capability resource
  | httpRequest participantId method requestTarget =>
      WebAuth.canonicalHttpRequestBytes participantId method requestTarget

/-- The members of the object those bytes are the text of. -/
def members : SignedOperation → List (String × Scalar)
  | write participantId channel kind body replyTo nonce intentId =>
      [("auth_version", .string ParticipantAuth.authScheme), ("body", .string body),
        ("channel", .string channel)]
      ++ (match intentId with
          | some intentId => [("intent_id", Scalar.string intentId)]
          | none => [])
      ++ [("kind", .string kind), ("nonce", .string nonce),
        ("participant_id", .string participantId), ("reply_to", .ofOptionInt replyTo)]
  | read participantId channel after limit =>
      [("after", .int after), ("auth_version", .string ParticipantAuth.authScheme),
        ("channel", .string channel), ("limit", .int limit),
        ("participant_id", .string participantId), ("purpose", .string "blackboard-read-v1")]
  | explainDecision participantId principalProvider principalSubject targetParticipantId capability
      resource intentId =>
      [("auth_version", .string ParticipantAuth.authScheme), ("capability", .string capability),
        ("intent_id", .ofOptionString intentId), ("participant_id", .string participantId),
        ("principal_provider", .string principalProvider),
        ("principal_subject", .string principalSubject),
        ("purpose", .string "authorization-decision-explain-v1"),
        ("resource", .ofOptionString resource),
        ("target_participant_id", .string targetParticipantId)]
  | useCapability participantId capability resource =>
      [("auth_version", .string ParticipantAuth.authScheme), ("capability", .string capability),
        ("participant_id", .string participantId),
        ("purpose", .string "blackboard-capability-v1"), ("resource", .ofOptionString resource)]
  | httpRequest participantId method requestTarget =>
      [("auth_version", .string ParticipantAuth.authScheme), ("method", .string method),
        ("participant_id", .string participantId), ("purpose", .string "http-request-auth-v1"),
        ("request_target", .string requestTarget)]

theorem canonicalBytes_eq (a : SignedOperation) :
    a.canonicalBytes = Text.utf8 (renderObject a.members) := by
  cases a <;> rfl

/-- Members by key: what a key tells about an operation, whatever its kind. -/
theorem members_keys (a : SignedOperation) :
    a.members.map Prod.fst = match a with
      | write _ _ _ _ _ _ none =>
          ["auth_version", "body", "channel", "kind", "nonce", "participant_id", "reply_to"]
      | write _ _ _ _ _ _ (some _) =>
          ["auth_version", "body", "channel", "intent_id", "kind", "nonce", "participant_id",
            "reply_to"]
      | read .. => ["after", "auth_version", "channel", "limit", "participant_id", "purpose"]
      | explainDecision .. =>
          ["auth_version", "capability", "intent_id", "participant_id", "principal_provider",
            "principal_subject", "purpose", "resource", "target_participant_id"]
      | useCapability .. => ["auth_version", "capability", "participant_id", "purpose", "resource"]
      | httpRequest .. =>
          ["auth_version", "method", "participant_id", "purpose", "request_target"] := by
  cases a with
  | write participantId channel kind body replyTo nonce intentId => cases intentId <;> rfl
  | _ => rfl

/-- The write is the one kind without a purpose. The keys it has instead tell it apart, and an
intent among them. -/
theorem members_inj {a b : SignedOperation} (h : a.members = b.members) : a = b := by
  have hkeys : a.members.map Prod.fst = b.members.map Prod.fst := by rw [h]
  rw [members_keys, members_keys] at hkeys
  cases a with
  | write participantId channel kind body replyTo nonce intentId =>
      cases b with
      | write participantId' channel' kind' body' replyTo' nonce' intentId' =>
          cases intentId <;> cases intentId'
          · simp only [members, List.append_nil, List.cons_append, List.nil_append,
              List.cons.injEq, Prod.mk.injEq, Scalar.string.injEq, true_and, and_true] at h
            obtain ⟨rfl, rfl, rfl, rfl, rfl, hreply⟩ := h
            rw [Scalar.ofOptionInt_inj hreply]
          · exact absurd hkeys (by simp)
          · exact absurd hkeys (by simp)
          · simp only [members, List.cons_append, List.nil_append, List.cons.injEq,
              Prod.mk.injEq, Scalar.string.injEq, true_and, and_true] at h
            obtain ⟨rfl, rfl, rfl, rfl, rfl, rfl, hreply⟩ := h
            rw [Scalar.ofOptionInt_inj hreply]
      | _ => cases intentId <;> exact absurd hkeys (by simp)
  | read participantId channel after limit =>
      cases b with
      | read participantId' channel' after' limit' =>
          simp only [members, List.cons.injEq, Prod.mk.injEq, Scalar.string.injEq,
            Scalar.int.injEq, true_and, and_true, Int.natCast_inj] at h
          obtain ⟨rfl, rfl, rfl, rfl⟩ := h
          rfl
      | write _ _ _ _ _ _ intentId' => cases intentId' <;> exact absurd hkeys (by simp)
      | _ => exact absurd hkeys (by simp)
  | explainDecision participantId provider subject target capability resource intentId =>
      cases b with
      | explainDecision participantId' provider' subject' target' capability' resource' intentId' =>
          simp only [members, List.cons.injEq, Prod.mk.injEq, Scalar.string.injEq, true_and,
            and_true] at h
          obtain ⟨rfl, hintent, rfl, rfl, rfl, hresource, rfl⟩ := h
          rw [Scalar.ofOptionString_inj hintent, Scalar.ofOptionString_inj hresource]
      | write _ _ _ _ _ _ intentId' => cases intentId' <;> exact absurd hkeys (by simp)
      | _ => exact absurd hkeys (by simp)
  | useCapability participantId capability resource =>
      cases b with
      | useCapability participantId' capability' resource' =>
          simp only [members, List.cons.injEq, Prod.mk.injEq, Scalar.string.injEq, true_and,
            and_true] at h
          obtain ⟨rfl, rfl, hresource⟩ := h
          rw [Scalar.ofOptionString_inj hresource]
      | write _ _ _ _ _ _ intentId' => cases intentId' <;> exact absurd hkeys (by simp)
      | _ => exact absurd hkeys (by simp)
  | httpRequest participantId method requestTarget =>
      cases b with
      | httpRequest participantId' method' requestTarget' =>
          simp only [members, List.cons.injEq, Prod.mk.injEq, Scalar.string.injEq, true_and,
            and_true] at h
          obtain ⟨rfl, rfl, rfl⟩ := h
          rfl
      | write _ _ _ _ _ _ intentId' => cases intentId' <;> exact absurd hkeys (by simp)
      | _ => exact absurd hkeys (by simp)

/-- **Signed bytes determine what is signed**, the kind of request included. -/
theorem canonicalBytes_inj (a b : SignedOperation) : a.canonicalBytes = b.canonicalBytes ↔ a = b := by
  constructor
  · intro h
    rw [canonicalBytes_eq, canonicalBytes_eq] at h
    have hmembers : a.members = b.members := Json.renderObject_inj (Text.utf8_inj h)
    exact members_inj hmembers
  · intro h
    rw [h]

end SignedOperation

end Blackboard
