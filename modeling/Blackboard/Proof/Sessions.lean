import Blackboard.Lib.Base64
import Blackboard.Lib.JsonReader
import Blackboard.Model.WebAuth

/-!
# Session tokens

A token is read by code that shares nothing with the code that writes it. Both are
compared with one form, `webSessionToken payload tag`: the reader takes a token apart
exactly when it has this form (`verifyWebSessionWith_eq_some`), and on what the writer
signed the claims read are the claims written (`sessionClaims_sessionPayload`).

The tag is checked by a parameter here, the code's own check being `Hmac.verify`. An ideal
code accepts what was signed and nothing else; then the tokens that verify are the tokens
issued, character by character.
-/

namespace Text

/-- A text cut at two marks. -/
theorem split_eq_three {mark : Char} {s a b c : String} (h : split mark s = [a, b, c]) :
    s.toList = a.toList ++ mark :: (b.toList ++ mark :: c.toList) := by
  have hlists : s.toList.splitOn mark = [a.toList, b.toList, c.toList] := by
    have hmap := congrArg (List.map String.toList) h
    rw [split, List.map_map] at hmap
    have hid : String.toList ∘ String.ofList = id := by
      funext cs
      exact String.toList_ofList
    rw [hid, List.map_id] at hmap
    exact hmap
  have hjoin : [mark].intercalate (s.toList.splitOn mark) = s.toList :=
    List.intercalate_splitOn mark
  rw [hlists, List.intercalate_cons_cons, List.intercalate_cons_cons,
    List.intercalate_singleton] at hjoin
  rw [← hjoin]
  simp [List.append_assoc]

theorem split_of_three {mark : Char} {s a b c : String} (ha : mark ∉ a.toList)
    (hb : mark ∉ b.toList) (hc : mark ∉ c.toList)
    (h : s.toList = a.toList ++ mark :: (b.toList ++ mark :: c.toList)) :
    split mark s = [a, b, c] := by
  have hjoin : s.toList = [mark].intercalate [a.toList, b.toList, c.toList] := by
    rw [List.intercalate_cons_cons, List.intercalate_cons_cons, List.intercalate_singleton, h]
    simp [List.append_assoc]
  have hparts : ∀ l ∈ [a.toList, b.toList, c.toList], mark ∉ l := by
    intro l hl
    simp only [List.mem_cons, List.not_mem_nil, or_false] at hl
    rcases hl with rfl | rfl | rfl
    · exact ha
    · exact hb
    · exact hc
  rw [split, hjoin, List.splitOn_intercalate mark hparts (by simp)]
  simp

end Text

namespace Blackboard

open Json (Scalar renderObject)

namespace WebAuth

theorem asU64_of_lt {n : Nat} (h : n < 2 ^ 64) :
    (Json.Value.number (.int n)).asU64 = some n := by
  have hrange : (0 : Int) ≤ n ∧ (n : Int) < 2 ^ 64 := by omega
  rw [Json.Value.asU64, if_pos hrange]
  rfl

/-! ## What is issued -/

theorem parse_asStr (kind : WebSessionKind) : WebSessionKind.parse kind.asStr = some kind := by
  cases kind with
  | humanWeb => rfl
  | guest => rfl

/-- What a session is issued for, and when. -/
structure Issuance where
  participantId : String
  sessionType : WebSessionKind
  issuedAt : Nat

namespace Issuance

/-- A participant id of one to sixty four bytes, and no guest but the anonymous one. -/
structure Regular (i : Issuance) : Prop where
  nonempty : i.participantId ≠ ""
  short : i.participantId.utf8ByteSize ≤ 64
  anonymous : i.sessionType = .guest → i.participantId = guestParticipantId

def expiresAt (i : Issuance) : Nat := min (i.issuedAt + webSessionTtlSecs) u64Max

def payload (i : Issuance) : Bytes := sessionPayload i.participantId i.sessionType i.expiresAt

/-- The members of the signed text. -/
def claims (i : Issuance) : List (String × Scalar) :=
  [("expires_at", .int i.expiresAt), ("participant_id", .string i.participantId),
    ("purpose", .string webSessionPurpose), ("session_type", .string i.sessionType.asStr),
    ("version", .string webSessionPrefix)]

theorem payload_eq (i : Issuance) : i.payload = Text.utf8 (renderObject i.claims) := rfl

theorem expiresAt_lt (i : Issuance) : i.expiresAt < 2 ^ 64 := by
  have hmin : i.expiresAt ≤ u64Max := Nat.min_le_right _ _
  have hmax : u64Max < 2 ^ 64 := by decide
  omega

theorem claims_nodup (i : Issuance) : (i.claims.map Prod.fst).Nodup := by
  have hkeys : i.claims.map Prod.fst
      = ["expires_at", "participant_id", "purpose", "session_type", "version"] := rfl
  rw [hkeys]
  decide

theorem claims_fit (i : Issuance) : ∀ m ∈ i.claims, m.2.Fits := by
  have hlt := i.expiresAt_lt
  intro m hm
  simp only [claims, List.mem_cons, List.not_mem_nil, or_false] at hm
  rcases hm with rfl | rfl | rfl | rfl | rfl
  · show -(2 ^ 63) ≤ (i.expiresAt : Int) ∧ (i.expiresAt : Int) < 2 ^ 64
    omega
  all_goals trivial

variable [Hmac] [Base64Url]

def session (key : Bytes) (i : Issuance) : WebSession :=
  issueWebSessionAt key i.participantId i.sessionType i.issuedAt

end Issuance

section Tokens

variable [Hmac] [Base64Url] [JsonParser]

/-- The text of a token. -/
def webSessionToken (payload tag : Bytes) : String :=
  webSessionPrefix ++ "." ++ Base64Url.encode payload ++ "." ++ Base64Url.encode tag

omit [JsonParser] in
theorem session_token (key : Bytes) (i : Issuance) :
    (i.session key).token = webSessionToken i.payload (Hmac.sha256 key i.payload) := rfl

/-- `verify_web_session_at`, the tag checked by `verify`. -/
def verifyWebSessionWith (verify : Bytes → Bytes → Bool) (token : String) (now : Nat) :
    Option WebSession :=
  match Text.split '.' token with
  | [version, payloadEncoded, tagEncoded] =>
      if version ≠ webSessionPrefix then none
      else
        match Base64Url.decode payloadEncoded, Base64Url.decode tagEncoded with
        | some payload, some tag =>
            if verify payload tag then
              (JsonParser.parse payload).bind fun value => sessionClaims value token now
            else none
        | _, _ => none
  | _ => none

theorem verifyWebSessionAt_eq (key : Bytes) :
    verifyWebSessionAt key = verifyWebSessionWith (Hmac.verify key) := rfl

/-- A code that accepts exactly the tags given to what was signed. -/
def IdealMac (key : Bytes) (issued : Set Issuance) (verify : Bytes → Bytes → Bool) : Prop :=
  ∀ payload tag, verify payload tag = true ↔
    (∃ i ∈ issued, payload = i.payload) ∧ tag = Hmac.sha256 key payload

/-! ## Taking a token apart -/

variable [Base64Url.Strict]

omit [Hmac] [JsonParser] [Base64Url.Strict] in
theorem toList_webSessionToken (payload tag : Bytes) :
    (webSessionToken payload tag).toList
      = webSessionPrefix.toList ++ '.' ::
        ((Base64Url.encode payload).toList ++ '.' :: (Base64Url.encode tag).toList) := by
  simp [webSessionToken, String.toList_append, List.append_assoc]

omit [Hmac] [JsonParser] in
theorem split_webSessionToken (payload tag : Bytes) :
    Text.split '.' (webSessionToken payload tag)
      = [webSessionPrefix, Base64Url.encode payload, Base64Url.encode tag] := by
  apply Text.split_of_three (by decide) (Base64Url.Strict.dot_not_mem_encode payload)
    (Base64Url.Strict.dot_not_mem_encode tag)
  exact toList_webSessionToken payload tag

omit [Hmac] in
theorem verifyWebSessionWith_token (verify : Bytes → Bytes → Bool) (payload tag : Bytes)
    (now : Nat) :
    verifyWebSessionWith verify (webSessionToken payload tag) now
      = if verify payload tag then (JsonParser.parse payload).bind fun value =>
          sessionClaims value (webSessionToken payload tag) now
        else none := by
  rw [verifyWebSessionWith, split_webSessionToken]
  simp only [ne_eq, not_true_eq_false, if_false, Base64Url.Strict.decode_encode]

omit [Hmac] in
/-- **A text that verifies is a token**: its last two parts are the encodings of what they
decode to. -/
theorem verifyWebSessionWith_eq_some {verify : Bytes → Bytes → Bool} {token : String} {now : Nat}
    {session : WebSession} (h : verifyWebSessionWith verify token now = some session) :
    ∃ payload tag, token = webSessionToken payload tag ∧ verify payload tag = true := by
  unfold verifyWebSessionWith at h
  split at h
  · rename_i version payloadEncoded tagEncoded hsplit
    by_cases hversion : version ≠ webSessionPrefix
    · rw [if_pos hversion] at h
      exact absurd h (by simp)
    · rw [if_neg hversion] at h
      split at h
      · rename_i payload tag hpayload htag
        by_cases hverify : verify payload tag = true
        · refine ⟨payload, tag, ?_, hverify⟩
          -- a strict decoder has one text for these bytes
          have hp := Base64Url.Strict.encode_of_decode hpayload
          have ht := Base64Url.Strict.encode_of_decode htag
          apply String.toList_inj.mp
          rw [Text.split_eq_three hsplit, toList_webSessionToken, hp, ht, not_not.mp hversion]
        · rw [if_neg hverify] at h
          exact absurd h (by simp)
      · exact absurd h (by simp)
  · exact absurd h (by simp)

/-! ## Reading the claims -/

omit [Hmac] [Base64Url] [JsonParser] [Base64Url.Strict] in
/-- What is checked of the claims of a session token, each read as it was written. -/
theorem sessionClaims_of_members {value : Json.Value} {participantId token : String}
    {kind : WebSessionKind} {expires : Json.Value} {expiresAt now : Nat}
    (hversion : value.get "version" = some (.string webSessionPrefix))
    (hpurpose : value.get "purpose" = some (.string webSessionPurpose))
    (hparticipant : value.get "participant_id" = some (.string participantId))
    (hexpires : value.get "expires_at" = some expires) (hu64 : expires.asU64 = some expiresAt)
    (hkind : value.get "session_type" = some (.string kind.asStr)) :
    sessionClaims value token now
      = if participantId = "" ∨ participantId.utf8ByteSize > 64 ∨ expiresAt < now then none
        else if kind = .guest ∧ participantId ≠ guestParticipantId then none
        else some ⟨participantId, kind, expiresAt, token⟩ := by
  unfold sessionClaims
  simp only [hversion, hpurpose, hparticipant, hexpires, hkind, hu64, Json.Value.asStr,
    Option.bind_eq_bind, Option.bind_some, parse_asStr, ne_eq, not_true_eq_false, or_self, if_false]
  split
  · rfl
  · split
    · rfl
    · rfl

variable [JsonParser.ReadsBack]

omit [Hmac] [Base64Url] [Base64Url.Strict] in
/-- The claims of an issued session are read as they were written; one that is not regular
was issued in vain. -/
theorem sessionClaims_payload (i : Issuance) (token : String) (now : Nat) :
    ((JsonParser.parse i.payload).bind fun value => sessionClaims value token now)
      = if i.participantId = "" ∨ i.participantId.utf8ByteSize > 64 ∨ i.expiresAt < now then none
        else if i.sessionType = .guest ∧ i.participantId ≠ guestParticipantId then none
        else some ⟨i.participantId, i.sessionType, i.expiresAt, token⟩ := by
  obtain ⟨value, hparse, hget⟩ :=
    JsonParser.ReadsBack.parse_renderObject i.claims i.claims_nodup i.claims_fit
  rw [i.payload_eq, hparse, Option.bind_some]
  apply sessionClaims_of_members _ _ _ _ (asU64_of_lt i.expiresAt_lt)
  · rw [hget]
    rfl
  · rw [hget]
    rfl
  · rw [hget]
    rfl
  · rw [hget]
    rfl
  · rw [hget]
    rfl

omit [Hmac] [Base64Url] [Base64Url.Strict] in
theorem sessionClaims_payload_eq_some {i : Issuance} {token : String} {now : Nat}
    {session : WebSession} :
    ((JsonParser.parse i.payload).bind fun value => sessionClaims value token now) = some session
      ↔ i.Regular ∧ now ≤ i.expiresAt
        ∧ session = ⟨i.participantId, i.sessionType, i.expiresAt, token⟩ := by
  rw [sessionClaims_payload]
  constructor
  · intro h
    by_cases hbad : i.participantId = "" ∨ i.participantId.utf8ByteSize > 64 ∨ i.expiresAt < now
    · rw [if_pos hbad] at h
      exact absurd h (by simp)
    · rw [if_neg hbad] at h
      push Not at hbad
      obtain ⟨hnonempty, hshort, htime⟩ := hbad
      by_cases hguest : i.sessionType = .guest ∧ i.participantId ≠ guestParticipantId
      · rw [if_pos hguest] at h
        exact absurd h (by simp)
      · rw [if_neg hguest] at h
        have hanonymous : i.sessionType = .guest → i.participantId = guestParticipantId := by
          intro hkind
          by_contra hne
          exact hguest ⟨hkind, hne⟩
        exact ⟨⟨hnonempty, hshort, hanonymous⟩, htime, (Option.some.inj h).symm⟩
  · intro h
    obtain ⟨hregular, htime, hsession⟩ := h
    have hbad : ¬ (i.participantId = "" ∨ i.participantId.utf8ByteSize > 64 ∨ i.expiresAt < now) := by
      intro hbad
      rcases hbad with hempty | hlong | hlate
      · exact hregular.nonempty hempty
      · have := hregular.short
        omega
      · omega
    have hguest : ¬ (i.sessionType = .guest ∧ i.participantId ≠ guestParticipantId) := by
      intro hguest
      exact hguest.2 (hregular.anonymous hguest.1)
    rw [if_neg hbad, if_neg hguest, hsession]

/-! ## The tokens that verify -/

/-- An issued token, read with its own tag. -/
theorem verifyWebSessionAt_session (key : Bytes) {i : Issuance} (hregular : i.Regular)
    (now : Nat) :
    verifyWebSessionAt key (i.session key).token now
      = if now ≤ i.expiresAt then some (i.session key) else none := by
  have hmac : Hmac.verify key i.payload (Hmac.sha256 key i.payload) = true := decide_eq_true rfl
  rw [verifyWebSessionAt_eq, session_token, verifyWebSessionWith_token, if_pos hmac]
  by_cases htime : now ≤ i.expiresAt
  · rw [if_pos htime]
    exact sessionClaims_payload_eq_some.mpr ⟨hregular, htime, rfl⟩
  · rw [if_neg htime, Option.eq_none_iff_forall_ne_some]
    intro session h
    exact htime (sessionClaims_payload_eq_some.mp h).2.1

omit [JsonParser.ReadsBack] in
/-- A token that verifies was issued, or its tag was found without the key's help. -/
theorem issued_or_forged {key : Bytes} (issued : Set Issuance) {token : String} {now : Nat}
    {session : WebSession} (h : verifyWebSessionAt key token now = some session) :
    (∃ i ∈ issued, token = (i.session key).token)
      ∨ ∃ payload, (∀ i ∈ issued, payload ≠ i.payload)
          ∧ token = webSessionToken payload (Hmac.sha256 key payload) := by
  obtain ⟨payload, tag, htoken, hverify⟩ := verifyWebSessionWith_eq_some h
  have htag : Hmac.sha256 key payload = tag := of_decide_eq_true hverify
  rw [← htag] at htoken
  by_cases hissued : ∃ i ∈ issued, payload = i.payload
  · obtain ⟨i, hi, hpayload⟩ := hissued
    refine Or.inl ⟨i, hi, ?_⟩
    rw [htoken, session_token, hpayload]
  · refine Or.inr ⟨payload, ?_, htoken⟩
    intro i hi hpayload
    exact hissued ⟨i, hi, hpayload⟩

/-- The tokens an ideal code lets verify, and what they verify to. -/
theorem verifyWebSessionWith_ideal {key : Bytes} {issued : Set Issuance}
    {verify : Bytes → Bytes → Bool} (hideal : IdealMac key issued verify) (token : String)
    (now : Nat) (session : WebSession) :
    verifyWebSessionWith verify token now = some session
      ↔ ∃ i ∈ issued, i.Regular ∧ now ≤ i.expiresAt ∧ token = (i.session key).token
          ∧ session = i.session key := by
  constructor
  · intro h
    obtain ⟨payload, tag, htoken, hverify⟩ := verifyWebSessionWith_eq_some h
    obtain ⟨⟨i, hi, hpayload⟩, htag⟩ := (hideal payload tag).mp hverify
    rw [htoken, verifyWebSessionWith_token, if_pos hverify, hpayload] at h
    obtain ⟨hregular, htime, hsession⟩ := sessionClaims_payload_eq_some.mp h
    have hissued : token = (i.session key).token := by
      rw [htoken, htag, session_token, hpayload]
    refine ⟨i, hi, hregular, htime, hissued, ?_⟩
    rw [hsession, ← hpayload, ← htoken, hissued]
    rfl
  · intro h
    obtain ⟨i, hi, hregular, htime, htoken, hsession⟩ := h
    have hverify : verify i.payload (Hmac.sha256 key i.payload) = true :=
      (hideal _ _).mpr ⟨⟨i, hi, rfl⟩, rfl⟩
    rw [htoken, session_token, verifyWebSessionWith_token, if_pos hverify, hsession]
    exact sessionClaims_payload_eq_some.mpr ⟨hregular, htime, rfl⟩

/-- **Session tokens round-trip and cannot be altered.** A token issued for a regular
session verifies to that session until it expires, eight hours later or at the end of
time, and to nothing after. What verifies without having been issued carries a tag the key
never gave; under an ideal code nothing does, and the texts that verify are the tokens
issued. -/
theorem webSessionTokens_exact (key : Bytes) :
    (∀ i : Issuance, i.Regular → ∀ now : Nat,
      verifyWebSessionAt key (i.session key).token now
        = if now ≤ min (i.issuedAt + 8 * 60 * 60) (2 ^ 64 - 1) then some (i.session key) else none)
    ∧ (∀ (issued : Set Issuance) (token : String) (now : Nat) (session : WebSession),
      verifyWebSessionAt key token now = some session →
        (∃ i ∈ issued, token = (i.session key).token)
          ∨ ∃ payload, (∀ i ∈ issued, payload ≠ i.payload)
              ∧ token = webSessionToken payload (Hmac.sha256 key payload))
    ∧ ∀ (issued : Set Issuance) (verify : Bytes → Bytes → Bool), IdealMac key issued verify →
      ∀ (token : String) (now : Nat) (session : WebSession),
        verifyWebSessionWith verify token now = some session
          ↔ ∃ i ∈ issued, i.Regular ∧ now ≤ i.expiresAt ∧ token = (i.session key).token
              ∧ session = i.session key := by
  refine ⟨?_, ?_, ?_⟩
  · intro i hregular now
    exact verifyWebSessionAt_session key hregular now
  · intro issued token now session h
    exact issued_or_forged issued h
  · intro issued verify hideal token now session
    exact verifyWebSessionWith_ideal hideal token now session

end Tokens

/-! ## One session -/

section Sample

def sampleIssuance : Issuance := ⟨"single-main", .humanWeb, 1700000000⟩

def sampleSessionKey : Bytes := (List.range 32).map Nat.toUInt8

@[reducible] def sessionHmac : Hmac := .ofTable
  [((sampleSessionKey, Text.utf8
      "\x7b\"expires_at\":1700028800,\"participant_id\":\"single-main\",\"purpose\":\"human-web-session-v1\",\"session_type\":\"human-web\",\"version\":\"bbsess-v1\"\x7d"),
    [169, 3, 220, 16, 108, 175, 210, 126, 8, 160, 221, 194, 228, 43, 23, 24, 242, 103, 150, 135,
      216, 19, 32, 67, 181, 136, 27, 187, 72, 233, 194, 52])]

attribute [local instance] sessionHmac Base64Url.noPad Base64Url.noPad_strict
  JsonParser.ofRendered JsonParser.ofRendered_readsBack

/-- A code that has signed one text. -/
def sampleVerify (payload tag : Bytes) : Bool :=
  decide (payload = sampleIssuance.payload ∧ tag = Hmac.sha256 sampleSessionKey payload)

/-- A session is good for ten seconds and not after its hours are over; its token with one
more character is none. -/
theorem webSessionTokens_exact_of_one_session :
    let session := sampleIssuance.session sampleSessionKey
    verifyWebSessionAt sampleSessionKey session.token 1700000010 = some session
      ∧ verifyWebSessionAt sampleSessionKey session.token 1700028801 = none
      ∧ verifyWebSessionWith sampleVerify session.token 1700000010 = some session
      ∧ verifyWebSessionWith sampleVerify (session.token ++ "x") 1700000010 = none := by
  intro session
  have hregular : sampleIssuance.Regular := ⟨by decide, by decide, by decide⟩
  have hideal : IdealMac sampleSessionKey {sampleIssuance} sampleVerify := by
    intro payload tag
    simp only [sampleVerify, decide_eq_true_eq, Set.mem_singleton_iff, exists_eq_left]
  obtain ⟨hround, -, hexact⟩ := webSessionTokens_exact sampleSessionKey
  refine ⟨?_, ?_, ?_, ?_⟩
  · rw [hround sampleIssuance hregular, if_pos (by decide)]
  · rw [hround sampleIssuance hregular, if_neg (by decide)]
  · rw [hexact _ _ hideal]
    exact ⟨sampleIssuance, rfl, hregular, by decide, rfl, rfl⟩
  · rw [Option.eq_none_iff_forall_ne_some]
    intro other h
    obtain ⟨i, hi, -, -, htoken, -⟩ := (hexact _ _ hideal _ _ _).mp h
    rw [Set.mem_singleton_iff.mp hi] at htoken
    have hlength : (session.token ++ "x").length = session.token.length :=
      congrArg String.length htoken
    have hx : "x".length = 1 := rfl
    rw [String.length_append, hx] at hlength
    omega

end Sample

end WebAuth

end Blackboard
