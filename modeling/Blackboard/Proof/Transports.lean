import Blackboard.Proof.Admission
import Blackboard.Proof.CallLedger
import Blackboard.Proof.Retry
import Blackboard.Proof.WriteOnce

/-!
# One write over several transports

`GET /w`, the signed `POST /api/messages` and the tool `blackboard_write` share a
participant's nonces, so whoever got no answer over one may try the next. What a later
request is told depends on two things the transports do differently. A navigation write
hashes its content without the conversation, and compares nothing but hashes; an execution
hashes it with, and looks at the message as well. And a tool call with a bearer token names
its delivery after the participant and the nonce and not after the client.

Once nothing stands in the way of a request, what it is told depends on that alone
(`Transport.told_iff`): if its transport agrees with what stands for the nonce, it creates
the message or is told of it, and otherwise it is told of an error. So a run of requests
that agree makes one message, whatever their order (`written_over_transports`); and a
`GET /w` after a signed POST does not agree (`navigation_conflicts_with_post`).
-/

namespace Blackboard

open Relational (Table)
open Concurrent (Program)

section Transports

variable [Sha256] [Hmac] [Base64Url] [JsonParser] [Jwt]

/-! ## Transports -/

/-- How a request that carries a write brings it. -/
inductive Transport where
  | navigation
  | signed
  | tool (principal : Option Principal)
  deriving DecidableEq

namespace Transport

variable (w : Http.WritePayload) (writer : Identity)

omit [Hmac] [Base64Url] [JsonParser] [Jwt] in
/-- What is executed over it, unless it is a navigation write. -/
def execution : Transport → Option MessageExecutionRequest
  | navigation => none
  | signed => some (Http.signedExecution w)
  | tool principal => some (Mcp.execution principal w)

omit [Hmac] [Base64Url] [JsonParser] [Jwt] in
/-- The transaction of the write. -/
def effect : Transport → Effect
  | navigation => .navigate writer w
  | signed => .execute writer (Http.signedExecution w)
  | tool principal => .execute writer (Mcp.execution principal w)

omit [Hmac] [Base64Url] [JsonParser] [Jwt] in
/-- What the transaction makes the route answer. -/
def response (s : World) : Transport → Response
  | navigation =>
      Http.navigationResponse (appendNavigationMessage s.now writer w.navigationInput s.db).1
  | signed =>
      Http.signedResponse (executeMessageIntent s.now writer (Http.signedExecution w) s.db).1
  | tool principal =>
      Mcp.writeResponse (executeMessageIntent s.now writer (Mcp.execution principal w) s.db).1

omit [Sha256] [Hmac] [Base64Url] [JsonParser] [Jwt] in
/-- The report that the message was created. -/
def created (m : Message) : Transport → Response
  | signed => ⟨201, .message false m⟩
  | _ => ⟨200, .receipt (.ofMessage "created" false m)⟩

omit [Sha256] [Hmac] [Base64Url] [JsonParser] [Jwt] in
/-- The report that it was there. -/
def existing (m : Message) : Transport → Response
  | signed => ⟨200, .message true m⟩
  | _ => ⟨200, .receipt (.ofMessage "existing" true m)⟩

end Transport

omit [Sha256] [Hmac] [Base64Url] [JsonParser] in
/-- The transport of a request at some time. -/
def Request.transport (settings : Settings) (now : Int) : Request → Option Transport
  | .navigationWrite .. => some .navigation
  | .postMessage .. => some .signed
  | .mcp headers .blackboardWrite _ =>
      if headers.containsKey "authorization" = false then some (.tool none)
      else
        match headers.bearerToken, settings.oidcVerifier with
        | some token, some verifier =>
            (verifier.verify token now.toNat).map fun principal => .tool (some principal)
        | _, _ => none
  | _ => none

omit [Sha256] [Hmac] [Base64Url] [JsonParser] in
/-- The transport of a request at whatever time. -/
def Request.Over (settings : Settings) (r : Request) (t : Transport) : Prop :=
  ∃ now, r.transport settings now = some t

/-! ## Nothing stands in the way -/

/-- The credentials of a request that carries the write are good. -/
def Request.admitted (settings : Settings) (w : Http.WritePayload) (s : World) : Request → Bool
  | .navigationWrite participantId query' =>
      match Http.parseNavigationWrite participantId query' with
      | .ok write => (Http.signedWriter s.db write).isSome
      | .error _ => false
  | .postMessage headers body =>
      match Http.readJsonObject body with
      | .ok object =>
          (sessionAt settings.sessionKey headers s.now).all
              (fun session => decide (session.sessionType ≠ .guest))
            && !(object.containsKey "source" || object.containsKey "instance")
            && match Http.parseSignedMessage object with
              | .ok write => (Http.signedWriter s.db write).isSome
              | .error _ => false
      | .error _ => false
  | .mcp headers .blackboardWrite arguments =>
      match Request.transport settings s.now (.mcp headers .blackboardWrite arguments) with
      | some (.tool (some _)) => (getWebParticipant s.db w.participantId).isSome
      | some (.tool none) =>
          match Mcp.parseAuth arguments with
          | .ok proof => (Http.signedWriter s.db ⟨w, proof⟩).isSome
          | .error _ => false
      | _ => false
  | _ => false

omit [JsonParser] [Hmac] [Base64Url] [Jwt] in
/-- The kernel allows the write. A navigation write does not ask it. -/
def Transport.allowed (w : Http.WritePayload) (s : World) (t : Transport) : Bool :=
  (t.execution w).all fun request => (executionDecision s.now s.db request).allowed

/-- The store lets the request carry its write out: the credentials are good, the write is
authorised, the channel is active and the message replied to is there. -/
structure Favourable (settings : Settings) (w : Http.WritePayload) (r : Request) (s : World) :
    Prop where
  admitted : r.admitted settings w s = true
  allowed : (r.transport settings s.now).any (Transport.allowed w s) = true
  channel : channelIsActive s.db w.channel = true
  replyTarget : replyTargetMissing s.db w.replyTo = false

instance (settings : Settings) (w : Http.WritePayload) (r : Request) (s : World) :
    Decidable (Favourable settings w r s) :=
  decidable_of_iff (r.admitted settings w s = true
      ∧ (r.transport settings s.now).any (Transport.allowed w s) = true
      ∧ channelIsActive s.db w.channel = true ∧ replyTargetMissing s.db w.replyTo = false)
    ⟨fun h => ⟨h.1, h.2.1, h.2.2.1, h.2.2.2⟩,
      fun h => ⟨h.admitted, h.allowed, h.channel, h.replyTarget⟩⟩

/-! ## Attempts -/

/-- What a transaction of a request does that nothing stands in the way of: it answers nothing yet,
or it is the transaction of the write and the answer is what came of it. -/
def Attempt (settings : Settings) (w : Http.WritePayload) (r : Request) (s s' : World)
    (a : Option Response) : Prop :=
  a = none ∧ (s' = s ∨ ∃ createdBy, s' = (Effect.ensureChannel w.channel createdBy).apply s)
  ∨ ∃ t writer, r.Over settings t ∧ writer.inst = w.participantId
    ∧ s' = (t.effect w writer).apply s ∧ a = some (t.response w writer s)

section Programs

variable {settings : Settings} {w : Http.WritePayload} {r : Request}

/-- Once nothing stands in the way, every transaction of the request is an attempt. -/
def Attempts (settings : Settings) (w : Http.WritePayload) (r : Request)
    (p : Program World Response) : Prop :=
  p.Transacts fun s s' a => Favourable settings w r s → Attempt settings w r s s' a

theorem attempts_statement {α : Type} {t : Transport} {writer : Identity}
    {op : Int → Database → α × Database} {answer : α → Response} (ht : r.Over settings t)
    (hinst : writer.inst = w.participantId)
    (happly : ∀ s : World, (t.effect w writer).apply s = { s with db := (op s.now s.db).2 })
    (hanswer : ∀ s : World, t.response w writer s = answer (op s.now s.db).1) :
    Attempts settings w r (statement op >>= fun result => return answer result) := by
  intro s
  refine ⟨fun _ => Or.inr ⟨t, writer, ht, hinst, (happly s).symm, ?_⟩, trivial⟩
  rw [hanswer s]
  rfl

/-- A look-up that goes on to something if nothing stands in the way. -/
theorem attempts_read {α : Type} {q : World → α} {k : α → Program World Response}
    (hstop : ∀ s a, (k (q s)).result? = some a → ¬ Favourable settings w r s)
    (hk : ∀ s, Attempts settings w r (k (q s))) : Attempts settings w r (Program.read q >>= k) := by
  intro s
  refine ⟨fun hs => Or.inl ⟨?_, Or.inl rfl⟩, hk s⟩
  cases hresult : (k (q s)).result? with
  | none => exact hresult
  | some a => exact absurd hs (hstop s a hresult)

theorem attempts_query {α : Type} {q : Database → α} {k : α → Program World Response}
    (hstop : ∀ s : World, ∀ a, (k (q s.db)).result? = some a → ¬ Favourable settings w r s)
    (hk : ∀ s : World, Attempts settings w r (k (q s.db))) :
    Attempts settings w r (query q >>= k) := attempts_read hstop hk

theorem attempts_done (a : Response) : Attempts settings w r (.done a) := trivial

/-- The channel is made sure of and looked at, and then comes the write. -/
theorem attempts_ensured {p : Program World Response} {createdBy : Option String} {a : Response}
    (hp : Attempts settings w r p) (hstep : p.result? = none) :
    Attempts settings w r (do
      if ← ensureChannelForWrite w.channel createdBy then p else return a) := by
  have hlook : Attempts settings w r (query (fun db => channelIsActive db w.channel)
      >>= fun active => if active then p else return a) := by
    refine attempts_query (fun s a' hresult hs => ?_) fun s => ?_
    · rw [if_pos hs.channel, hstep] at hresult
      exact absurd hresult (by simp)
    · split
      · exact hp
      · exact attempts_done a
  intro s
  exact ⟨fun _ => Or.inl ⟨rfl, Or.inr ⟨createdBy, rfl⟩⟩, hlook⟩

omit [Sha256] [Hmac] [Base64Url] [JsonParser] [Jwt] in
/-- Making sure of a channel answers nothing. -/
theorem result?_ensured {p : Program World Response} {channel : String}
    {createdBy : Option String} {a : Response} :
    (do if ← ensureChannelForWrite channel createdBy then p else return a).result? = none := rfl

omit [Sha256] [Hmac] [Base64Url] [JsonParser] [Jwt] in
theorem result?_statement {α : Type} (op : Int → Database → α × Database)
    (k : α → Program World Response) : (statement op >>= k).result? = none := rfl

theorem attempts_navigation {participantId : String} {query' : Http.Query}
    {write : Http.SignedWrite}
    (hparse : Http.parseNavigationWrite participantId query' = .ok write)
    (hw : write.payload = w) (hr : r = .navigationWrite participantId query') :
    Attempts settings w r (Http.navigationWrite participantId query') := by
  have hover : r.Over settings .navigation := ⟨0, by rw [hr]; rfl⟩
  subst hw
  unfold Http.navigationWrite
  rw [hparse]
  refine attempts_query (fun s a hresult hs => ?_) fun s => ?_
  · have hadmitted := hs.admitted
    rw [hr] at hadmitted
    simp only [Request.admitted, hparse] at hadmitted
    obtain ⟨writer, hwriter⟩ := Option.isSome_iff_exists.mp hadmitted
    simp only [hwriter, result?_ensured] at hresult
    exact absurd hresult (by simp)
  · cases hwriter : Http.signedWriter s.db write with
    | none => exact attempts_done _
    | some writer =>
        refine attempts_ensured (attempts_statement hover (signedWriter_inst hwriter)
          (fun _ => rfl) fun _ => rfl) ?_
        exact result?_statement _ _

theorem attempts_signed {object : Json.Object} {write : Http.SignedWrite}
    (hparse : Http.parseSignedMessage object = .ok write) (hw : write.payload = w)
    (hover : r.Over settings .signed)
    (hwriter : ∀ s, Favourable settings w r s → (Http.signedWriter s.db write).isSome = true) :
    Attempts settings w r (Http.postSignedMessage object) := by
  subst hw
  unfold Http.postSignedMessage
  rw [hparse]
  refine attempts_query (fun s a hresult hs => ?_) fun s => ?_
  · obtain ⟨writer, hfound⟩ := Option.isSome_iff_exists.mp (hwriter s hs)
    simp only [hfound, result?_ensured] at hresult
    exact absurd hresult (by simp)
  · cases hfound : Http.signedWriter s.db write with
    | none => exact attempts_done _
    | some writer =>
        refine attempts_ensured (attempts_statement hover (signedWriter_inst hfound)
          (fun _ => rfl) fun _ => rfl) ?_
        exact result?_statement _ _

theorem attempts_postMessage {headers : Headers} {body : Bytes} {object : Json.Object}
    {write : Http.SignedWrite} (hread : Http.readJsonObject body = .ok object)
    (hsigned : Http.isSigned object = true)
    (hparse : Http.parseSignedMessage object = .ok write) (hw : write.payload = w)
    (hr : r = .postMessage headers body) :
    Attempts settings w r (Http.postMessage settings.sessionKey headers body) := by
  have hover : r.Over settings .signed := ⟨0, by rw [hr]; rfl⟩
  have hadmitted : ∀ s, Favourable settings w r s →
      (sessionAt settings.sessionKey headers s.now).all
          (fun session => decide (session.sessionType ≠ .guest)) = true
        ∧ (object.containsKey "source" || object.containsKey "instance") = false
        ∧ (Http.signedWriter s.db write).isSome = true := by
    intro s hs
    have hadmitted := hs.admitted
    rw [hr] at hadmitted
    simp only [Request.admitted, hread, hparse, Bool.and_eq_true, Bool.not_eq_true'] at hadmitted
    exact ⟨hadmitted.1.1, hadmitted.1.2, hadmitted.2⟩
  have hmessage := attempts_signed hparse hw hover fun s hs => (hadmitted s hs).2.2
  -- what is left once the session is known
  let rest : Option WebAuth.WebSession → Program World Response := fun session =>
    if session.any fun session => decide (session.sessionType = .guest) then
      .done ApiError.forbidden.response
    else if object.containsKey "source" ∨ object.containsKey "instance" then
      .done (ApiError.badRequest "identity_is_server_resolved").response
    else Http.postSignedMessage object
  have hprogram : Http.postMessage settings.sessionKey headers body
      = (RequestAuth.verifiedWebSession settings.sessionKey headers >>= rest) := by
    unfold Http.postMessage
    simp only [hread, hsigned, if_true]
    rfl
  have hrest : ∀ session, Attempts settings w r (rest session) := by
    intro session
    simp only [rest]
    split
    · exact attempts_done _
    · split
      · exact attempts_done _
      · exact hmessage
  have hstop : ∀ s, Favourable settings w r s →
      (rest (sessionAt settings.sessionKey headers s.now)).result? = none := by
    intro s hs
    obtain ⟨hguest, hkeys, -⟩ := hadmitted s hs
    rw [Bool.or_eq_false_iff] at hkeys
    have hno : ¬ (sessionAt settings.sessionKey headers s.now).any
        (fun session => decide (session.sessionType = .guest)) = true := by
      cases hsession : sessionAt settings.sessionKey headers s.now with
      | none => simp
      | some session =>
          rw [hsession] at hguest
          simpa using hguest
    simp only [rest]
    rw [if_neg hno, if_neg (by simp [hkeys])]
    unfold Http.postSignedMessage
    rw [hparse]
    rfl
  rw [hprogram]
  unfold RequestAuth.verifiedWebSession
  unfold sessionAt at hstop
  cases htoken : headers.text WebAuth.webSessionHeader with
  | none => exact hrest none
  | some token =>
      rw [htoken] at hstop
      show Attempts settings w r (Program.read (fun s : World => s.now.toNat) >>= fun now =>
        rest (WebAuth.verifyWebSessionAt settings.sessionKey token now))
      refine attempts_read (fun s a hresult hs => ?_) fun s => hrest _
      have hnone := hstop s hs
      rw [Option.bind_some, hresult] at hnone
      exact absurd hnone (by simp)

/-- Whoever a tool's call is found to write as is the participant; and if nothing stands in the
way, somebody is found. -/
theorem transacts_resolveWriteIdentity {arguments : Json.Object} {principal : Option Principal}
    (hbearer : ∀ s, Favourable settings w r s → principal.isSome = true →
      (getWebParticipant s.db w.participantId).isSome = true)
    (hproof : ∀ proof, principal = none → Mcp.parseAuth arguments = .ok proof →
      ∀ s, Favourable settings w r s → (Http.signedWriter s.db ⟨w, proof⟩).isSome = true) :
    (Mcp.resolveWriteIdentity arguments w principal).Transacts fun s s' found =>
      s' = s ∧ (∀ writer, found = some (.ok writer) → writer.inst = w.participantId)
        ∧ ∀ code, found = some (.error code) → ¬ Favourable settings w r s := by
  unfold Mcp.resolveWriteIdentity
  cases principal with
  | some principal =>
      intro s
      dsimp only
      cases hwriter : getWebParticipant s.db w.participantId with
      | none =>
          refine ⟨⟨rfl, fun writer h => ?_, fun code _ hs => ?_⟩, trivial⟩
          · cases h
          · have hfound := hbearer s hs rfl
            rw [hwriter] at hfound
            exact absurd hfound (by simp)
      | some writer =>
          refine ⟨⟨rfl, fun writer' h => ?_, fun code h => ?_⟩, trivial⟩
          · cases h
            exact getWebParticipant_inst hwriter
          · cases h
  | none =>
      dsimp only
      cases hauth : Mcp.parseAuth arguments with
      | error code => trivial
      | ok proof =>
          intro s
          have hgood := hproof proof rfl hauth s
          unfold Http.signedWriter at hgood
          dsimp only at hgood ⊢
          cases hrecord : getWebParticipantAuth s.db w.participantId with
          | none =>
              rw [hrecord] at hgood
              refine ⟨⟨rfl, fun writer h => ?_, fun code _ hs => ?_⟩, trivial⟩
              · cases h
              · exact absurd (hgood hs) (by simp)
          | some auth =>
              rw [hrecord] at hgood
              dsimp only at hgood
              dsimp only [Program.bind]
              -- the tool checks a proof as `GET /w` does
              by_cases hbad : auth.authScheme ≠ ParticipantAuth.authScheme
                  ∨ ParticipantAuth.verifyWriteProof auth.authSecret proof w.participantId
                      w.channel w.kind w.body w.replyTo w.nonce = false
              · rw [if_pos hbad] at hgood
                have hno : ¬ Favourable settings w r s := fun hs => absurd (hgood hs) (by simp)
                by_cases hscheme : auth.authScheme ≠ ParticipantAuth.authScheme
                · rw [if_pos hscheme]
                  refine ⟨⟨rfl, fun writer h => ?_, fun code _ => hno⟩, trivial⟩
                  cases h
                · rw [if_neg hscheme, if_pos (hbad.resolve_left hscheme)]
                  refine ⟨⟨rfl, fun writer h => ?_, fun code _ => hno⟩, trivial⟩
                  cases h
              · rw [not_or] at hbad
                rw [if_neg hbad.1, if_neg hbad.2]
                refine ⟨⟨rfl, fun writer h => ?_, fun code h => ?_⟩, trivial⟩
                · cases h
                  exact getWebParticipantAuth_inst hrecord
                · cases h

theorem attempts_tool {arguments : Json.Object} {principal : Option Principal}
    (hparse : Mcp.parseWrite arguments = .ok w) (hover : r.Over settings (.tool principal))
    (hbearer : ∀ s, Favourable settings w r s → principal.isSome = true →
      (getWebParticipant s.db w.participantId).isSome = true)
    (hproof : ∀ proof, principal = none → Mcp.parseAuth arguments = .ok proof →
      ∀ s, Favourable settings w r s → (Http.signedWriter s.db ⟨w, proof⟩).isSome = true) :
    Attempts settings w r (Mcp.blackboardWrite arguments principal) := by
  unfold Mcp.blackboardWrite
  rw [hparse]
  refine Concurrent.Program.transacts_bind (transacts_resolveWriteIdentity hbearer hproof)
    (fun s s' h _ => Or.inl ⟨rfl, Or.inl h.1⟩) (fun s s' found h => ?_) fun found hdone => ?_
  · obtain ⟨hsame, hwriter, hrefused⟩ := h
    cases found with
    | error code => exact ⟨fun hs => absurd hs (hrefused code rfl), trivial⟩
    | ok writer =>
        refine ⟨fun _ => Or.inl ⟨rfl, Or.inl hsame⟩, ?_⟩
        exact attempts_statement hover (hwriter writer rfl) (fun _ => rfl) fun _ => rfl
  · cases found with
    | error code => trivial
    | ok writer =>
        -- nobody is found without a look-up
        unfold Mcp.resolveWriteIdentity at hdone
        cases principal with
        | some principal => cases hdone
        | none =>
            dsimp only at hdone
            cases hauth : Mcp.parseAuth arguments with
            | error code =>
                rw [hauth] at hdone
                cases hdone
            | ok proof =>
                rw [hauth] at hdone
                cases hdone

/-- Whoever a call is found to come from, that is its transport; and if nothing stands in the way
somebody is found. -/
theorem transacts_resolveHttpBearerPrincipal {headers : Headers} {arguments : Json.Object}
    (hr : r = .mcp headers .blackboardWrite arguments) :
    (Mcp.resolveHttpBearerPrincipal settings.oidcVerifier headers).Transacts fun s s' found =>
      s' = s ∧ (∀ principal, found = some (.ok principal) →
          headers.containsKey "authorization" = true ∧ principal.isSome = true
            ∧ r.Over settings (.tool principal))
        ∧ (found = some (.error ()) → ¬ Favourable settings w r s) := by
  unfold Mcp.resolveHttpBearerPrincipal
  split
  · trivial
  · rename_i hkey
    cases htoken : headers.bearerToken with
    | none => trivial
    | some token =>
        cases hverifier : settings.oidcVerifier with
        | none => trivial
        | some verifier =>
            intro s
            have htransport : r.transport settings s.now
                = (verifier.verify token s.now.toNat).map fun principal =>
                  .tool (some principal) := by
              rw [hr]
              simp only [Request.transport, htoken, hverifier]
              rw [if_neg hkey]
            dsimp only [Program.bind]
            cases hverify : verifier.verify token s.now.toNat with
            | none =>
                rw [hverify] at htransport
                refine ⟨⟨rfl, fun principal h => ?_, fun _ hs => ?_⟩, trivial⟩
                · cases h
                · have hallowed := hs.allowed
                  rw [htransport] at hallowed
                  exact absurd hallowed (by simp)
            | some principal =>
                rw [hverify] at htransport
                refine ⟨⟨rfl, fun principal' h => ?_, fun h => ?_⟩, trivial⟩
                · cases h
                  exact ⟨by simpa using hkey, rfl, s.now, htransport⟩
                · cases h

theorem attempts_mcpPost {headers : Headers} {arguments : Json.Object}
    (hparse : Mcp.parseWrite arguments = .ok w)
    (hr : r = .mcp headers .blackboardWrite arguments) :
    Attempts settings w r
      (Mcp.mcpPost settings.oidcVerifier headers .blackboardWrite arguments) := by
  have hnamed : ∀ principal, headers.containsKey "authorization" = true →
      principal.isSome = true → r.Over settings (.tool principal) →
      Attempts settings w r (Mcp.blackboardWrite arguments principal) := by
    intro principal hkey hsome hover
    refine attempts_tool hparse hover (fun s hs _ => ?_) fun proof hnone => ?_
    · have hadmitted := hs.admitted
      rw [hr] at hadmitted
      simp only [Request.admitted] at hadmitted
      split at hadmitted
      · exact hadmitted
      · rename_i htransport
        simp only [Request.transport] at htransport
        rw [if_neg (by simp [hkey])] at htransport
        split at htransport
        · obtain ⟨principal', -, h⟩ := Option.map_eq_some_iff.mp htransport
          cases h
        · cases htransport
      · exact absurd hadmitted (by simp)
    · rw [hnone] at hsome
      exact absurd hsome (by simp)
  have hunnamed : headers.containsKey "authorization" = false →
      Attempts settings w r (Mcp.blackboardWrite arguments none) := by
    intro hkey
    have hover : r.Over settings (.tool none) := by
      refine ⟨0, ?_⟩
      rw [hr]
      simp only [Request.transport]
      rw [if_pos hkey]
    refine attempts_tool hparse hover (fun s _ hsome => absurd hsome (by simp))
      fun proof _ hauth s hs => ?_
    have hadmitted := hs.admitted
    rw [hr] at hadmitted
    simp only [Request.admitted, Request.transport] at hadmitted
    rw [if_pos hkey] at hadmitted
    simp only [hauth] at hadmitted
    exact hadmitted
  have hpending : ∀ principal : Option Principal, principal.isSome = true →
      (Mcp.blackboardWrite arguments principal).result? = none := by
    intro principal hsome
    unfold Mcp.blackboardWrite
    rw [hparse]
    cases principal with
    | none => exact absurd hsome (by simp)
    | some principal => rfl
  unfold Mcp.mcpPost
  refine Concurrent.Program.transacts_bind (transacts_resolveHttpBearerPrincipal (w := w) hr)
    (fun s s' h _ => Or.inl ⟨rfl, Or.inl h.1⟩) (fun s s' found h => ?_) fun found hdone => ?_
  · obtain ⟨hsame, hcaller, hrefused⟩ := h
    cases found with
    | error e => exact ⟨fun hs => absurd hs (hrefused rfl), trivial⟩
    | ok principal =>
        obtain ⟨hkey, hsome, hover⟩ := hcaller principal rfl
        have hnot : ¬ (settings.oidcVerifier.isSome = true ∧ principal.isNone = true) := by
          intro hgated
          rw [Option.isNone_iff_eq_none] at hgated
          rw [hgated.2] at hsome
          exact absurd hsome (by simp)
        dsimp only
        rw [if_neg hnot]
        exact ⟨fun hs => Or.inl ⟨hpending principal hsome, Or.inl hsame⟩,
          hnamed principal hkey hsome hover⟩
  · cases found with
    | error e => trivial
    | ok principal =>
        unfold Mcp.resolveHttpBearerPrincipal at hdone
        split at hdone
        · -- nobody is named, and the tool asks for a proof
          rename_i hkey
          cases hdone
          dsimp only
          split
          · unfold Mcp.httpToolCallRequiresAuth
            split
            · exact hunnamed hkey
            · trivial
          · exact hunnamed hkey
        · split at hdone
          · cases hdone
          · cases hdone

omit [Sha256] [Hmac] [Base64Url] [JsonParser] [Jwt] in
theorem ok_of_toOption {ε α : Type} {x : Except ε α} {a : α} (h : x.toOption = some a) :
    x = .ok a := by
  cases x with
  | error e => exact absurd h (by simp [Except.toOption])
  | ok b => rw [Option.some.inj h]

variable (settings w r) in
/-- **Every transaction of a request that carries the write is an attempt**, if nothing stands in
the way of it. -/
theorem serve_attempts (h : r.carries = some w) : Attempts settings w r (serve settings r) := by
  cases r with
  | navigationWrite participantId query' =>
      obtain ⟨write, hparse, hw⟩ := Option.map_eq_some_iff.mp h
      exact attempts_navigation (ok_of_toOption hparse) hw rfl
  | postMessage headers body =>
      simp only [Request.carries] at h
      split at h
      · exact absurd h (by simp)
      · rename_i object hread
        by_cases hsigned : Http.isSigned object = true
        · rw [if_pos hsigned] at h
          obtain ⟨write, hparse, hw⟩ := Option.map_eq_some_iff.mp h
          exact attempts_postMessage hread hsigned (ok_of_toOption hparse) hw rfl
        · rw [if_neg hsigned] at h
          exact absurd h (by simp)
  | mcp headers tool arguments =>
      cases tool with
      | blackboardRead => exact absurd h (by simp [Request.carries])
      | blackboardWrite => exact attempts_mcpPost (ok_of_toOption h) rfl
  | _ => exact absurd h (by simp [Request.carries])

end Programs

/-! ## The message of the write -/

/-- The message a write asks for. -/
structure Http.WritePayload.Asks (w : Http.WritePayload) (m : Message) : Prop where
  inst : m.inst = w.participantId
  conversationRef : m.conversationRef = none
  channel : m.channel = w.channel
  kind : m.kind = w.kind
  body : m.body = w.body
  replyTo : m.replyTo = w.replyTo

/-- The write has its message, and its nonce stands for that. -/
structure Http.WritePayload.Held (w : Http.WritePayload) (m : Message) (db : Database) : Prop where
  asks : w.Asks m
  message : m ∈ db.messages
  reserved : ∃ n ∈ db.navigationWrites, n.pair = w.pair ∧ n.messageId = m.id

section Held

variable {w : Http.WritePayload} {m m' : Message} {db db' : Database}

omit [Sha256] [Hmac] [Base64Url] [JsonParser] [Jwt] in
theorem Http.WritePayload.Held.kept (h : w.Held m db) (hk : RowsKept db db') : w.Held m db' := by
  obtain ⟨n, hn, hrest⟩ := h.reserved
  exact ⟨h.asks, hk.messages m h.message, n, hk.navigation n hn, hrest⟩

omit [Sha256] [Hmac] [Base64Url] [JsonParser] [Jwt] in
/-- The reservation of the nonce, and the message it points at. -/
theorem Http.WritePayload.Held.find (h : w.Held m db) :
    ∃ n, db.navigationWrites.find w.pair = some n ∧ n.messageId = m.id
      ∧ db.messages.find n.messageId = some m := by
  obtain ⟨n, hn, hpair, hid⟩ := h.reserved
  refine ⟨n, ?_, hid, ?_⟩
  · rw [← hpair]
    exact Table.find_of_mem hn
  · rw [hid]
    exact Table.find_of_mem h.message

omit [Sha256] [Hmac] [Base64Url] [JsonParser] [Jwt] in
theorem Http.WritePayload.Held.eq_of_find (h : w.Held m db) {n : NavigationWrite}
    (hn : db.navigationWrites.find w.pair = some n)
    (hm : db.messages.find n.messageId = some m') : m' = m := by
  obtain ⟨n', hn', -, hm'⟩ := h.find
  obtain rfl : n' = n := Option.some.inj (hn'.symm.trans hn)
  exact Option.some.inj (hm.symm.trans hm')

omit [Sha256] [Hmac] [Base64Url] [JsonParser] [Jwt] in
theorem Http.WritePayload.Held.not_free (h : w.Held m db) :
    db.navigationWrites.find w.pair ≠ none := by
  obtain ⟨n, hn, -⟩ := h.find
  rw [hn]
  simp

end Held

/-! ## What a write comes to -/

omit [Sha256] [Hmac] [Base64Url] [JsonParser] [Jwt] in
theorem ExecutesWrite.pair {w : Http.WritePayload} {writer : Identity}
    {request : MessageExecutionRequest} (he : ExecutesWrite w writer request) :
    executionPair writer request = w.pair := Prod.ext he.writer he.intentId

/-- A free nonce gets its message; a taken one stands for the message there is. -/
inductive Settled (w : Http.WritePayload) (db db' : Database) (m : Message) : Bool → Prop
  | created (free : db.navigationWrites.find w.pair = none) (held : w.Held m db')
      (messages : db'.messages.rows = db.messages.rows ++ [m]) : Settled w db db' m false
  | existing (held : w.Held m db) (kept : w.Held m db')
      (messages : db'.messages = db.messages) : Settled w db db' m true

section Settled

variable {w : Http.WritePayload} {writer : Identity} {now : Int} {db db' : Database} {m : Message}

omit [Hmac] [Base64Url] [JsonParser] [Jwt] in
theorem NavigationWritten.settled (hinst : writer.inst = w.participantId)
    (h : NavigationWritten now writer w.navigationInput db m db') : Settled w db db' m false := by
  have hpair : (writer.inst, w.navigationInput.nonce) = w.pair := Prod.ext hinst rfl
  refine .created (hpair ▸ h.free) ⟨?_, (h.mem_messages m).mpr (Or.inr rfl), ?_⟩ ?_
  · rw [h.message]
    exact ⟨hinst, rfl, rfl, rfl, rfl, rfl⟩
  · exact ⟨_, (h.mem_navigation _).mpr (Or.inr rfl), hpair, rfl⟩
  · rw [h.messages, Table.rows_append, ← h.message]

omit [Hmac] [Base64Url] [JsonParser] [Jwt] in
theorem FirstExecuted.settled {request : MessageExecutionRequest}
    (he : ExecutesWrite w writer request) (h : FirstExecuted now writer request db m db') :
    Settled w db db' m false := by
  have hpair := he.pair
  refine .created (hpair ▸ h.free) ⟨?_, (h.mem_messages m).mpr (Or.inr rfl), ?_⟩ ?_
  · rw [h.effects.message]
    exact ⟨he.writer, he.conversationRef, he.channel, he.kind, he.body, he.replyTo⟩
  · exact ⟨_, (h.mem_navigation _).mpr (Or.inr rfl), hpair, rfl⟩
  · rw [h.effects.messages, Table.rows_append, ← h.effects.message]

omit [Hmac] [Base64Url] [JsonParser] [Jwt] in
theorem Replayed.settled {request : MessageExecutionRequest} {m' : Message}
    (he : ExecutesWrite w writer request) (h : Replayed now writer request db m' db')
    (hheld : w.Held m db) : m' = m ∧ Settled w db db' m true := by
  have hpair := he.pair
  obtain ⟨n, hn, hm, -⟩ := h.stored
  rw [hpair] at hn
  refine ⟨hheld.eq_of_find hn hm, .existing hheld ?_ (by rw [h.frame])⟩
  obtain ⟨n', hn', hrest⟩ := hheld.reserved
  exact ⟨hheld.asks, h.grows.messages m hheld.message, n', h.grows.navigation n' hn', hrest⟩

end Settled

/-- What stands for the nonce when a request comes: nothing, or the message of the write. -/
def Http.WritePayload.Slot (w : Http.WritePayload) (db : Database) : Prop :=
  db.navigationWrites.find w.pair = none ∨ ∃ m, w.Held m db

section Told

variable {w : Http.WritePayload} {writer : Identity} {now : Int} {db : Database}

omit [Hmac] [Base64Url] [JsonParser] [Jwt] in
/-- **A navigation write is told of the message if its own hash is on record.** -/
theorem navigation_settled (now : Int) (hinst : writer.inst = w.participantId) (hslot : w.Slot db)
    (hreply : replyTargetMissing db w.replyTo = false)
    (hhash : ∀ n, db.navigationWrites.find w.pair = some n →
      n.requestHash = w.navigationInput.requestHash) :
    ∃ m existed, (appendNavigationMessage now writer w.navigationInput db).1
        = .ok (if existed then .existing m else .created m)
      ∧ Settled w db (appendNavigationMessage now writer w.navigationInput db).2 m existed := by
  have hpair : (writer.inst, w.navigationInput.nonce) = w.pair := Prod.ext hinst rfl
  have hadmitted : NavigationAdmitted writer w.navigationInput db := by
    rcases hslot with hfree | ⟨m, hheld⟩
    · exact .free (hpair ▸ hfree) hreply
    · obtain ⟨n, hn, -, hm⟩ := hheld.find
      exact .taken n m (hpair ▸ hn) hm (hhash n hn)
  rcases appendNavigationMessage_cases now writer w.navigationInput db with
    ⟨m, hout, hw⟩ | ⟨m, hout, hfound, hdb⟩ | ⟨-, hno⟩
  · exact ⟨m, false, hout, hw.settled hinst⟩
  · obtain ⟨n, hn, hm, -⟩ := hfound.stored
    rw [hpair] at hn
    rcases hslot with hfree | ⟨m', hheld⟩
    · exact absurd (hn.symm.trans hfree) (by simp)
    · obtain rfl := hheld.eq_of_find hn hm
      refine ⟨m, true, hout, ?_⟩
      rw [hdb]
      exact .existing hheld hheld rfl
  · obtain ⟨m, hout⟩ := navigationAccepted_iff.mpr hadmitted
    exact absurd hout (not_or.mpr (hno m))

omit [Sha256] [Hmac] [Base64Url] [JsonParser] [Jwt] in
/-- A channel that is active stays so when it is made sure of. -/
theorem channelIsActive_ensureChannel {channel : String} {createdBy : Option String}
    (h : channelIsActive db channel = true) :
    channelIsActive (ensureChannel now channel createdBy db) channel = true := by
  cases hfind : db.channels.find channel with
  | none => exact channelIsActive_ensureChannel_of_none hfind
  | some row =>
      rw [ensureChannel_of_some hfind]
      exact h

omit [Sha256] [Hmac] [Base64Url] [JsonParser] [Jwt] in
/-- The grant a decision spends is there to be spent. -/
theorem consumable_of_allowed {request : MessageExecutionRequest} (hpolicy : PolicyInv db)
    (h : (executionDecision now db request).allowed = true) :
    Consumable (executionDecision now db request) db.delegatedGrants := by
  intro id hid
  have hgrounds := (grounds_of_allowed (q := request.access) h).2
  have hspent : (request.access.decision now db).consumeGrantId = some id := hid
  generalize request.access.decision now db = d at hgrounds hspent
  cases hgrounds with
  | durable g hg held covers => exact absurd hspent (by simp [AuthorizationDecision.allow])
  | replay g intentId hg held => exact absurd hspent (by simp [AuthorizationDecision.allow])
  | implicit row reason hrow hreason hnone =>
      exact absurd hspent (by simp [AuthorizationDecision.allow])
  | delegated g intentId hg held hintent hcovers hfresh =>
      simp only [AuthorizationDecision.allow] at hspent
      split at hspent
      · rename_i hone
        exact ⟨g, hg, Option.some.inj hspent, held.2.2.2.2,
          (hpolicy.delegated g hg).flag.resolve_left hone, hfresh hone⟩
      · exact absurd hspent (by simp)

omit [Hmac] [Base64Url] [JsonParser] [Jwt] in
/-- The trail has room for an execution of the write, if its delivery has. -/
theorem intentFits_of_slot {request : MessageExecutionRequest} (hbooks : BooksInv db)
    (he : ExecutesWrite w writer request) (hcons : requestConsistent writer request)
    (hslot : w.Slot db) (hallowed : (executionDecision now db request).allowed = true)
    (hreply : replyTargetMissing db w.replyTo = false)
    (hdelivery : ∀ id, DeliveryFits
      (ingressRow now request.ingress (executionReceipt request id)) db.ingress) :
    IntentFits now writer request db := by
  have hpair := he.pair
  have hreceipt : ∀ id, (executionReceipt request id).pair = w.pair := fun id =>
    Prod.ext (hcons.2.2.1.symm.trans he.writer) he.intentId
  rcases hslot with hfree | ⟨m, hheld⟩
  · -- a trail for a free nonce would say what reserved it
    have hno : ∀ n ∈ db.navigationWrites, n.pair ≠ w.pair := Table.find_eq_none_iff.mp hfree
    refine .free (hpair ▸ hfree) (he.replyTo ▸ hreply) (hdelivery _) ?_ ?_ ?_
    · intro r hr
      obtain ⟨-, -, ⟨n, hn, hnpair, -⟩, -⟩ := hbooks.store.ledger.receipts r (Table.mem_of_find hr)
      exact absurd (hnpair.trans ((Table.key_of_find hr).trans (hreceipt _))) (hno n hn)
    · refine Table.find_eq_none_iff.mpr fun a ha hapair => ?_
      obtain ⟨n, r, m, hacc⟩ := hbooks.store.ledger.provenance a ha
      exact hno n hacc.navigation.1 (hacc.navigation.2.1.trans (hapair.trans (hreceipt _)))
    · exact consumable_of_allowed hbooks.policy hallowed
  · obtain ⟨n, hn, hid, hm⟩ := hheld.find
    have hsame : sameContent m request := by
      obtain ⟨-, hconversation, hchannel, hkind, hbody, hreplyTo⟩ := hheld.asks
      exact ⟨hchannel.trans he.channel.symm, hkind.trans he.kind.symm, hbody.trans he.body.symm,
        hreplyTo.trans he.replyTo.symm, hconversation.trans he.conversationRef.symm⟩
    refine .taken n m (hpair ▸ hn) hm (Or.inr hsame) (hdelivery _) ?_
    intro r hr
    obtain ⟨hstatus, hcapability, ⟨n', hn', hnpair, hnid⟩, -⟩ :=
      hbooks.store.ledger.receipts r (Table.mem_of_find hr)
    have hown : n' = n := by
      refine Table.eq_of_key hn' (Table.mem_of_find hn) ?_
      rw [hnpair, Table.key_of_find hr, hreceipt, Table.key_of_find hn]
    refine ⟨hcapability.trans hcons.2.2.2.1.symm, ?_, hstatus⟩
    rw [← hnid, hown]
    exact hid

omit [Hmac] [Base64Url] [JsonParser] [Jwt] in
/-- **An execution is told of the message if its delivery can be recorded.** -/
theorem execution_settled (now : Int) {request : MessageExecutionRequest} (hbooks : BooksInv db)
    (he : ExecutesWrite w writer request) (hcons : requestConsistent writer request)
    (hslot : w.Slot db) (hallowed : (executionDecision now db request).allowed = true)
    (hchannel : channelIsActive db w.channel = true)
    (hreply : replyTargetMissing db w.replyTo = false)
    (hdelivery : ∀ id, DeliveryFits
      (ingressRow now request.ingress (executionReceipt request id)) db.ingress) :
    ∃ m existed, (executeMessageIntent now writer request db).1
        = .ok (if existed then .existing m else .created m)
      ∧ Settled w db (executeMessageIntent now writer request db).2 m existed := by
  have hactive : channelIsActive (ensureChannel now request.channel (some writer.inst) db)
      request.channel = true := by
    rw [he.channel]
    exact channelIsActive_ensureChannel hchannel
  have hfits := intentFits_of_slot hbooks he hcons hslot hallowed hreply hdelivery
  rcases executeMessageIntent_cases now writer request db with
    ⟨m, hout, hf⟩ | ⟨m, hout, hr⟩ | ⟨-, hno⟩
  · exact ⟨m, false, hout, hf.settled he⟩
  · have hpair := he.pair
    obtain ⟨n, hn, -, -⟩ := hr.stored
    rw [hpair] at hn
    rcases hslot with hfree | ⟨m', hheld⟩
    · exact absurd (hn.symm.trans hfree) (by simp)
    · obtain ⟨rfl, hsettled⟩ := hr.settled he hheld
      exact ⟨m, true, hout, hsettled⟩
  · obtain ⟨m, hout⟩ := (executionAccepted_iff hcons hactive).mpr ⟨hallowed, hfits⟩
    exact absurd hout (not_or.mpr (hno m))

end Told

/-! ## Transports that agree -/

omit [Hmac] [Base64Url] [JsonParser] [Jwt] in
/-- What a transport asks of what stands for the nonce: a navigation write, that its own hash is on
record; an execution, that its delivery can be recorded. -/
def Transport.agrees (w : Http.WritePayload) (s : World) (t : Transport) : Bool :=
  match t.execution w with
  | none => (s.db.navigationWrites.find w.pair).all fun n =>
      decide (n.requestHash = w.navigationInput.requestHash)
  | some request => (s.db.ingress.find request.ingress.deliveryId).all fun i =>
      decide (sameDelivery i (ingressRow s.now request.ingress (executionReceipt request 0)))

omit [Hmac] [Base64Url] [JsonParser] [Jwt] in
theorem Transport.deliveryFits {w : Http.WritePayload} {s : World} {t : Transport}
    {request : MessageExecutionRequest} (ht : t.execution w = some request)
    (h : t.agrees w s = true) (id : Int) :
    DeliveryFits (ingressRow s.now request.ingress (executionReceipt request id)) s.db.ingress := by
  intro i hi
  have hfind : s.db.ingress.find request.ingress.deliveryId = some i := hi
  unfold Transport.agrees at h
  rw [ht] at h
  simp only [hfind] at h
  exact of_decide_eq_true h

omit [Sha256] [Hmac] [Base64Url] [JsonParser] [Jwt] in
/-- The report of a message. -/
def Transport.report (m : Message) (existed : Bool) (t : Transport) : Response :=
  if existed then t.existing m else t.created m

section Transport

variable {w : Http.WritePayload} {writer : Identity} {s : World} {t : Transport}

omit [JsonParser] [Jwt] in
/-- **One attempt.** If nothing stands in its way and its transport agrees, a request is told of
the message, which it has created or which was there. -/
theorem Transport.settled (hbooks : BooksInv s.db) (hinst : writer.inst = w.participantId)
    (hslot : w.Slot s.db) (hallowed : t.allowed w s = true)
    (hchannel : channelIsActive s.db w.channel = true)
    (hreply : replyTargetMissing s.db w.replyTo = false) (hagrees : t.agrees w s = true) :
    ∃ m existed, t.response w writer s = t.report m existed
      ∧ Settled w s.db ((t.effect w writer).apply s).db m existed := by
  cases t with
  | navigation =>
      obtain ⟨m, existed, hout, hsettled⟩ :=
        navigation_settled s.now hinst hslot hreply fun n hn => by
          simp only [Transport.agrees, Transport.execution, hn] at hagrees
          exact of_decide_eq_true hagrees
      refine ⟨m, existed, ?_, hsettled⟩
      simp only [Transport.response, hout]
      cases existed <;> rfl
  | signed =>
      obtain ⟨m, existed, hout, hsettled⟩ :=
        execution_settled s.now hbooks (executesWrite_signed hinst)
          ⟨rfl, rfl, hinst, rfl, rfl, rfl⟩ hslot hallowed hchannel hreply
          (Transport.deliveryFits rfl hagrees)
      refine ⟨m, existed, ?_, hsettled⟩
      simp only [Transport.response, hout]
      cases existed <;> rfl
  | tool principal =>
      have hcons : requestConsistent writer (Mcp.execution principal w) := by
        cases principal with
        | none => exact ⟨rfl, rfl, hinst, rfl, rfl, rfl⟩
        | some principal => exact ⟨rfl, rfl, hinst, rfl, rfl, rfl⟩
      obtain ⟨m, existed, hout, hsettled⟩ :=
        execution_settled s.now hbooks (executesWrite_mcp hinst principal)
          hcons hslot hallowed hchannel hreply
          (Transport.deliveryFits rfl hagrees)
      refine ⟨m, existed, ?_, hsettled⟩
      simp only [Transport.response, hout]
      cases existed <;> rfl

/-! ## Transports that do not agree -/

omit [Sha256] [Hmac] [Base64Url] [JsonParser] [Jwt] in
/-- A report of a message is no error. -/
theorem Transport.report_payload_ne {m : Message} {existed : Bool} {code : String} :
    (t.report m existed).payload ≠ .error code := by
  cases existed <;> cases t <;> simp [Transport.report, Transport.created, Transport.existing]

omit [Sha256] [Hmac] [Base64Url] [JsonParser] [Jwt] in
theorem answered_of_navigationResponse {out : Except SqlError NavigationAppendResult}
    (h : ∀ code, (Http.navigationResponse out).payload ≠ .error code) :
    ∃ m, out = .ok (.created m) ∨ out = .ok (.existing m) := by
  cases out with
  | error e => exact absurd rfl (h _)
  | ok result =>
      cases result with
      | created m => exact ⟨m, Or.inl rfl⟩
      | existing m => exact ⟨m, Or.inr rfl⟩
      | _ => exact absurd rfl (h _)

omit [Sha256] [Hmac] [Base64Url] [JsonParser] [Jwt] in
theorem answered_of_executionResponse {respond : Except SqlError MessageExecutionResult → Response}
    (hrespond : respond = Http.signedResponse ∨ respond = Mcp.writeResponse)
    {out : Except SqlError MessageExecutionResult}
    (h : ∀ code, (respond out).payload ≠ .error code) :
    ∃ m, out = .ok (.created m) ∨ out = .ok (.existing m) := by
  cases out with
  | error e => rcases hrespond with rfl | rfl <;> exact absurd rfl (h _)
  | ok result =>
      cases result with
      | created m => exact ⟨m, Or.inl rfl⟩
      | existing m => exact ⟨m, Or.inr rfl⟩
      | _ => rcases hrespond with rfl | rfl <;> exact absurd rfl (h _)

omit [Hmac] [Base64Url] [JsonParser] [Jwt] in
/-- An execution that is accepted has had its delivery recorded. -/
theorem Transport.agrees_of_accepted {request : MessageExecutionRequest}
    (ht : t.execution w = some request)
    (h : ∃ m, (executeMessageIntent s.now writer request s.db).1 = .ok (.created m)
      ∨ (executeMessageIntent s.now writer request s.db).1 = .ok (.existing m)) :
    t.agrees w s = true := by
  have hfits : ∃ id, DeliveryFits
      (ingressRow s.now request.ingress (executionReceipt request id)) s.db.ingress := by
    rcases executeMessageIntent_cases s.now writer request s.db with
      ⟨m, -, hf⟩ | ⟨m, -, hr⟩ | ⟨-, hno⟩
    · exact ⟨_, hf.effects.ingress.fits⟩
    · exact ⟨_, hr.ingress.fits⟩
    · obtain ⟨m, hm⟩ := h
      exact absurd hm (not_or.mpr (hno m))
  obtain ⟨id, hfits⟩ := hfits
  unfold Transport.agrees
  rw [ht]
  show (s.db.ingress.find request.ingress.deliveryId).all _ = true
  rw [Option.all_eq_true]
  exact fun i hi => decide_eq_true (hfits i hi)

omit [Hmac] [Base64Url] [JsonParser] [Jwt] in
/-- Who does not agree is told of an error. -/
theorem Transport.agrees_of_report (hinst : writer.inst = w.participantId) {m : Message}
    {existed : Bool} (h : t.response w writer s = t.report m existed) : t.agrees w s = true := by
  have hpayload : ∀ code, (t.response w writer s).payload ≠ .error code := by
    intro code
    rw [h]
    exact Transport.report_payload_ne
  cases t with
  | navigation =>
      have hpair : (writer.inst, w.navigationInput.nonce) = w.pair := Prod.ext hinst rfl
      have hadmitted := navigationAccepted_iff.mp (answered_of_navigationResponse hpayload)
      simp only [Transport.agrees, Transport.execution]
      rw [← hpair]
      cases hadmitted with
      | taken n m stored found same =>
          rw [stored]
          exact decide_eq_true same
      | free reserved replyTarget =>
          rw [reserved]
          rfl
  | signed =>
      exact Transport.agrees_of_accepted rfl
        (answered_of_executionResponse (Or.inl rfl) hpayload)
  | tool principal =>
      exact Transport.agrees_of_accepted rfl
        (answered_of_executionResponse (Or.inr rfl) hpayload)

omit [JsonParser] [Jwt] in
/-- **An attempt is told of the message exactly when its transport agrees**, if nothing stands in
its way. -/
theorem Transport.told_iff (hbooks : BooksInv s.db) (hinst : writer.inst = w.participantId)
    (hslot : w.Slot s.db) (hallowed : t.allowed w s = true)
    (hchannel : channelIsActive s.db w.channel = true)
    (hreply : replyTargetMissing s.db w.replyTo = false) :
    (∃ m existed, t.response w writer s = t.report m existed) ↔ t.agrees w s = true := by
  constructor
  · rintro ⟨m, existed, hreport⟩
    exact Transport.agrees_of_report hinst hreport
  · intro hagrees
    obtain ⟨m, existed, hreport, -⟩ :=
      Transport.settled hbooks hinst hslot hallowed hchannel hreply hagrees
    exact ⟨m, existed, hreport⟩

end Transport

/-! ## Runs -/

/-- The pair an effect reserves. -/
def Effect.reservation : Effect → Option Pair
  | .navigate writer write => some (writer.inst, write.nonce)
  | .execute writer request => some (executionPair writer request)
  | _ => none

omit [JsonParser] [Jwt] in
/-- A pair is left alone by what reserves another. -/
theorem Effect.find_of_reservation_ne {e : Effect} {p : Pair} (h : e.reservation ≠ some p)
    (s : World) : (e.apply s).db.navigationWrites.find p = s.db.navigationWrites.find p := by
  rcases e.cases_ledger s with
    hsame | ⟨identity, fields, rfl⟩ | ⟨writer, payload, m, rfl, hw, -⟩
      | ⟨writer, request, m, rfl, hf⟩ | ⟨writer, request, m, rfl, hr⟩
  · rw [hsame.navigation]
  · rfl
  · rw [hw.navigation p]
    exact if_neg fun heq => h (congrArg some heq)
  · rw [hf.navigation p]
    exact if_neg fun heq => h (congrArg some heq)
  · rw [hr.frame]

/-- Nothing stands in the way of a request that carries the write, whoever its caller has been
found to be. -/
structure Unhindered (settings : Settings) (w : Http.WritePayload) (r : Request) (s : World) :
    Prop where
  favourable : Favourable settings w r s
  allowed : ∀ t, r.Over settings t → t.allowed w s = true

/-- Every request that is executed carries the write, and nothing stands in its way, or it is under
another nonce. -/
structure Retries (settings : Settings) (w : Http.WritePayload) (events : List ServerEvent) :
    Prop where
  unhindered : ∀ e ∈ events, ∀ r, e.out = some r → r.carries = some w →
    Unhindered settings w r e.before.store
  others : ∀ e ∈ events, ∀ r, e.out = some r → r.carries ≠ some w →
    ∀ effect, r.May settings effect → effect.reservation ≠ some w.pair

/-- The transports of the requests that carry the write agree with what they find. -/
def Agreeing (settings : Settings) (w : Http.WritePayload) (events : List ServerEvent) : Prop :=
  ∀ e ∈ events, ∀ r, e.out = some r → r.carries = some w →
    ∀ t, r.Over settings t → t.agrees w e.before.store = true

omit [Sha256] [Hmac] [Base64Url] in
/-- The answer an event gives to a request that carries the write. -/
def answerTo (w : Http.WritePayload) (e : ServerEvent) : Option (Request × Response) :=
  match e.out, Concurrent.answer e with
  | some r, some a => if r.carries = some w then some (r, a) else none
  | _, _ => none

/-- What an event is to the write. -/
inductive Progress (settings : Settings) (w : Http.WritePayload) (e : ServerEvent) : Prop
  | quiet (answered : answerTo w e = none) (inserted : insertedFor w e = false)
      (slot : e.after.store.db.navigationWrites.find w.pair
        = e.before.store.db.navigationWrites.find w.pair)
      (kept : RowsKept e.before.store.db e.after.store.db)
  | told (r : Request) (t : Transport) (m : Message) (existed : Bool)
      (answered : answerTo w e = some (r, t.report m existed)) (carried : r.Over settings t)
      (inserted : insertedFor w e = !existed)
      (settled : Settled w e.before.store.db e.after.store.db m existed)

section Run

variable {settings : Settings} {w : Http.WritePayload}

omit [Sha256] [Hmac] [Base64Url] [Jwt] in
theorem answerTo_of_not_carries {e : ServerEvent} (h : ∀ r, e.out = some r → r.carries ≠ some w) :
    answerTo w e = none := by
  unfold answerTo
  split
  · rename_i r a hout _
    exact if_neg (h r hout)
  · rfl

omit [Sha256] [Hmac] [Base64Url] [Jwt] in
theorem insertedFor_of_not_carries {e : ServerEvent}
    (h : ∀ r, e.out = some r → r.carries ≠ some w) : insertedFor w e = false := by
  unfold insertedFor
  rw [Bool.and_eq_false_iff]
  refine Or.inl (decide_eq_false fun hbind => ?_)
  obtain ⟨r, hout, hr⟩ := Option.bind_eq_some_iff.mp hbind
  exact h r hout hr

omit [Sha256] [Hmac] [Base64Url] [Jwt] in
theorem insertedFor_of_rows {e : ServerEvent}
    (h : e.after.store.db.messages = e.before.store.db.messages) : insertedFor w e = false := by
  unfold insertedFor
  rw [h]
  simp

omit [Sha256] [Hmac] [Base64Url] [Jwt] in
theorem Settled.insertedFor {e : ServerEvent} {r : Request} {m : Message} {existed : Bool}
    (hout : e.out = some r) (hr : r.carries = some w)
    (h : Settled w e.before.store.db e.after.store.db m existed) :
    insertedFor w e = !existed := by
  cases h with
  | created free held messages =>
      unfold Blackboard.insertedFor
      rw [hout, messages]
      simp [hr]
  | existing held kept messages => exact insertedFor_of_rows messages

/-- **One event.** -/
theorem progress_of_event {s : World} {moves : List Move} {e : ServerEvent}
    (he : e ∈ serverHistory settings s moves) (hbooks : BooksInv e.before.store.db)
    (hslot : w.Slot e.before.store.db)
    (hretries : Retries settings w (serverHistory settings s moves))
    (hagreeing : Agreeing settings w (serverHistory settings s moves)) :
    Progress settings w e := by
  have htransacts : ∀ r, (serve settings r).Transacts fun s s' a => r.carries = some w →
      Favourable settings w r s → Attempt settings w r s s' a := by
    intro r
    by_cases h : r.carries = some w
    · exact (serve_attempts settings w r h).mono fun _ _ _ hattempt _ => hattempt
    · exact Concurrent.Program.transacts_of_forall (fun _ _ _ hr => absurd hr h) _
  rcases Concurrent.transacts_history htransacts he with
    ⟨r, hout, hattempt⟩ | ⟨hout, hstore, hanswer⟩
  · by_cases hcarries : r.carries = some w
    · obtain ⟨hfavourable, hallowed⟩ := hretries.unhindered e he r hout hcarries
      rcases hattempt hcarries hfavourable with ⟨hnone, hstore⟩ |
        ⟨t, writer, hover, hinst, hstore, hanswer⟩
      · -- a look, or the channel is made sure of
        have hanswered : answerTo w e = none := by
          unfold answerTo
          rw [hnone]
          split
          · rename_i h
            exact absurd h (by simp)
          · rfl
        rcases hstore with hsame | ⟨createdBy, hensured⟩
        · refine .quiet hanswered (insertedFor_of_rows ?_) ?_ ?_
          · rw [hsame]
          · rw [hsame]
          · rw [hsame]
            exact .refl _
        · obtain ⟨channels, hens⟩ := ensureChannel_frame e.before.store.now w.channel createdBy
            e.before.store.db
          have hkept := (Effect.ensureChannel w.channel createdBy).rowsKept e.before.store
          rw [← hensured] at hkept
          have hdb : e.after.store.db = { e.before.store.db with channels } := by
            rw [hensured]
            exact hens
          refine .quiet hanswered (insertedFor_of_rows ?_) ?_ hkept
          · rw [hdb]
          · rw [hdb]
      · obtain ⟨m, existed, hresponse, hsettled⟩ := Transport.settled hbooks hinst hslot
          (hallowed t hover) hfavourable.channel hfavourable.replyTarget
          (hagreeing e he r hout hcarries t hover)
        rw [← hstore] at hsettled
        refine .told r t m existed ?_ hover (hsettled.insertedFor hout hcarries) hsettled
        unfold answerTo
        rw [hout, hanswer, hresponse]
        exact if_pos hcarries
    · have hno : ∀ r', e.out = some r' → r'.carries ≠ some w := by
        intro r' hout'
        obtain rfl : r = r' := Option.some.inj (hout.symm.trans hout')
        exact hcarries
      rcases Concurrent.steps_history (fun r => serve_steps settings r) he with
        ⟨r', hout', effect, hmay, hstore⟩ | ⟨hout', -⟩
      · refine .quiet (answerTo_of_not_carries hno) (insertedFor_of_not_carries hno) ?_ ?_
        · rw [hstore]
          exact Effect.find_of_reservation_ne
            (hretries.others e he r' hout' (hno r' hout') effect hmay) _
        · rw [hstore]
          exact effect.rowsKept _
      · rw [hout'] at hout
        exact absurd hout (by simp)
  · have hno : ∀ r, e.out = some r → r.carries ≠ some w := by
      intro r hr
      rw [hout] at hr
      exact absurd hr (by simp)
    refine .quiet (answerTo_of_not_carries hno) (insertedFor_of_not_carries hno) ?_ ?_
    · rw [hstore]
    · rw [hstore]
      exact .refl _

end Run

/-- Of these answers the first reports the message as created, and all the others report it as
there. -/
def FirstCreates (settings : Settings) (m : Message) : List (Request × Response) → Prop
  | [] => False
  | first :: later => (∃ t, first.1.Over settings t ∧ first.2 = t.report m false)
      ∧ ∀ q ∈ later, ∃ t, q.1.Over settings t ∧ q.2 = t.report m true

omit [Sha256] [Hmac] [Base64Url] [JsonParser] in
theorem FirstCreates.snoc {settings : Settings} {m : Message} {answers : List (Request × Response)}
    {q : Request × Response} (h : FirstCreates settings m answers)
    (hq : ∃ t, q.1.Over settings t ∧ q.2 = t.report m true) :
    FirstCreates settings m (answers ++ [q]) := by
  cases answers with
  | nil => exact h.elim
  | cons first later =>
      refine ⟨h.1, fun q' hq' => ?_⟩
      rcases List.mem_append.mp hq' with hold | hnew
      · exact h.2 q' hold
      · obtain rfl := List.mem_singleton.mp hnew
        exact hq

omit [Sha256] [Hmac] [Base64Url] [JsonParser] in
/-- Every answer reports the message. -/
theorem FirstCreates.report_of_mem {settings : Settings} {m : Message}
    {answers : List (Request × Response)} {q : Request × Response}
    (h : FirstCreates settings m answers) (hq : q ∈ answers) :
    ∃ t existed, q.2 = Transport.report m existed t := by
  cases answers with
  | nil => exact h.elim
  | cons first later =>
      rcases List.mem_cons.mp hq with rfl | hlater
      · obtain ⟨t, -, hreport⟩ := h.1
        exact ⟨t, false, hreport⟩
      · obtain ⟨t, -, hreport⟩ := h.2 q hlater
        exact ⟨t, true, hreport⟩

/-- What comes of the write at these events. -/
inductive WriteOutcome (settings : Settings) (w : Http.WritePayload) (events : List ServerEvent)
    (db : Database) : Prop
  /-- Nobody has been answered and nothing has been inserted. -/
  | pending (answers : events.filterMap (answerTo w) = [])
      (inserted : events.filter (insertedFor w) = [])
      (free : db.navigationWrites.find w.pair = none)
  /-- One message has been inserted, and everybody has been told of it. -/
  | settled (m : Message) (held : w.Held m db)
      (inserted : (events.filter (insertedFor w)).length = 1)
      (answers : FirstCreates settings m (events.filterMap (answerTo w)))

section Run

variable {settings : Settings} {w : Http.WritePayload}

omit [Sha256] [Hmac] [Base64Url] in
/-- Nobody is told of a failure. -/
theorem WriteOutcome.status_of_mem {events : List ServerEvent} {db : Database}
    (h : WriteOutcome settings w events db) {q : Request × Response}
    (hq : q ∈ events.filterMap (answerTo w)) : q.2.status = 200 ∨ q.2.status = 201 := by
  cases h with
  | pending answers inserted free =>
      rw [answers] at hq
      exact absurd hq List.not_mem_nil
  | settled m held inserted answers =>
      obtain ⟨t, existed, hreport⟩ := answers.report_of_mem hq
      rw [hreport]
      cases existed with
      | false => cases t <;> simp [Transport.report, Transport.created]
      | true => cases t <;> simp [Transport.report, Transport.existing]

omit [Sha256] [Hmac] [Base64Url] in
/-- An event more. -/
theorem WriteOutcome.snoc {events : List ServerEvent} {e : ServerEvent}
    (h : WriteOutcome settings w events e.before.store.db) (he : Progress settings w e) :
    WriteOutcome settings w (events ++ [e]) e.after.store.db := by
  cases he with
  | quiet answered inserted slot kept =>
      have hanswers : (events ++ [e]).filterMap (answerTo w) = events.filterMap (answerTo w) := by
        rw [List.filterMap_append]
        simp [answered]
      have hinserted : (events ++ [e]).filter (insertedFor w) = events.filter (insertedFor w) := by
        rw [List.filter_append]
        simp [inserted]
      cases h with
      | pending answers hnothing free =>
          exact .pending (hanswers.trans answers) (hinserted.trans hnothing) (slot.trans free)
      | settled m held hone answers =>
          refine .settled m (held.kept kept) ?_ ?_
          · rw [hinserted]
            exact hone
          · rw [hanswers]
            exact answers
  | told r t m existed answered carried inserted settled =>
      have hanswers : (events ++ [e]).filterMap (answerTo w)
          = events.filterMap (answerTo w) ++ [(r, t.report m existed)] := by
        rw [List.filterMap_append]
        simp [answered]
      cases settled with
      | created free held messages =>
          -- a message is created for a free nonce only, so this answer is the first
          cases h with
          | pending answers hnothing _ =>
              refine .settled m held ?_ ?_
              · rw [List.filter_append, hnothing]
                simp [inserted]
              · rw [hanswers, answers]
                exact ⟨⟨t, carried, rfl⟩, fun q hq => absurd hq List.not_mem_nil⟩
          | settled m' held' _ _ => exact absurd free held'.not_free
      | existing held hkept messages =>
          -- the nonce stands for one message, so this is the one the others were told of
          cases h with
          | pending _ _ free => exact absurd free held.not_free
          | settled m' held' hone answers =>
              obtain ⟨n, hn, -, hm⟩ := held.find
              obtain rfl : m = m' := held'.eq_of_find hn hm
              refine .settled m hkept ?_ ?_
              · rw [List.filter_append, List.length_append, hone]
                simp [inserted]
              · rw [hanswers]
                exact answers.snoc ⟨t, carried, rfl⟩

/-- The books are kept at every event. -/
theorem booksInv_serverHistory {s : World} {moves : List Move} (hs : BooksInv s.db) :
    ∀ e ∈ serverHistory settings s moves, BooksInv e.before.store.db := by
  intro e he
  refine (Concurrent.store_history (I := fun w : World => BooksInv w.db) hs ?_ e he).1
  intro e he h
  rcases Concurrent.steps_history (fun r => serve_steps settings r) he with
    ⟨_, -, effect, -, hstore⟩ | ⟨-, hstore⟩
  · rw [hstore]
    exact effect.booksInv _ h
  · rw [hstore]
    exact h

variable (settings w)

end Run

end Transports

/-! ## One write twice -/

section Sample

private def signedHello : String :=
  "\x7b\"participant_id\":\"alice\",\"channel\":\"general\",\"body\":\"hello\","
    ++ "\"nonce\":\"intent-00000001\",\"auth\":\x7b\"scheme\":\"participant-hmac-v1\",\"proof\":\""
    ++ sampleProof ++ "\"\x7d\x7d"

@[reducible] private def signedHelloParser : JsonParser where
  parse body := [(Text.utf8 signedHello, .object [("participant_id", .string "alice"),
    ("channel", .string "general"), ("body", .string "hello"), ("nonce", .string "intent-00000001"),
    ("auth", .object [("scheme", .string ParticipantAuth.authScheme),
      ("proof", .string sampleProof)])])].lookup body

attribute [local instance] sampleSha256 sampleHmac sampleBase64Url signedHelloParser sampleJwt

/-- The only transport of a request that brings a proof itself. -/
private def Request.sole : Request → Option Transport
  | .navigationWrite .. => some .navigation
  | .postMessage .. => some .signed
  | _ => none

private theorem Request.Over.eq_sole {r : Request} {t t' : Transport} (hr : r.sole = some t)
    (h : r.Over sampleSettings t') : t' = t := by
  obtain ⟨now, h⟩ := h
  cases r with
  | navigationWrite participantId query =>
      exact (Option.some.inj h).symm.trans (Option.some.inj hr)
  | postMessage headers body => exact (Option.some.inj h).symm.trans (Option.some.inj hr)
  | _ => exact absurd hr (by simp [Request.sole])

private def Request.ofAdministrator : Request → Bool
  | .participant _ | .credential _ | .channel _ => true
  | _ => false

private theorem Request.carries_of_administrator {r : Request} (h : r.ofAdministrator = true) :
    r.carries = none := by
  cases r with
  | participant op => rfl
  | credential op => rfl
  | channel op => rfl
  | _ => exact absurd h (by simp [Request.ofAdministrator])

private def helloWrite : Http.WritePayload := samplePayload none

private def retriesHello (e : ServerEvent) : Bool :=
  e.out.all fun r =>
    match r.sole with
    | some t => decide (r.carries = some helloWrite)
        && decide (Favourable sampleSettings helloWrite r e.before.store)
        && t.allowed helloWrite e.before.store
    | none => r.ofAdministrator

private def agreesOnHello (e : ServerEvent) : Bool :=
  e.out.all fun r => r.sole.all fun t => t.agrees helloWrite e.before.store

private theorem retries_of_all {events : List ServerEvent}
    (h : events.all retriesHello = true) : Retries sampleSettings helloWrite events := by
  have hmeets : ∀ e ∈ events, ∀ r, e.out = some r →
      (∃ t, r.sole = some t ∧ r.carries = some helloWrite
        ∧ Unhindered sampleSettings helloWrite r e.before.store)
      ∨ r.ofAdministrator = true := by
    intro e he r hout
    have hretries := List.all_eq_true.mp h e he
    unfold retriesHello at hretries
    rw [hout, Option.all_some] at hretries
    cases hsole : r.sole with
    | none =>
        rw [hsole] at hretries
        exact Or.inr hretries
    | some t =>
        rw [hsole] at hretries
        simp only [Bool.and_eq_true, decide_eq_true_eq] at hretries
        refine Or.inl ⟨t, rfl, hretries.1.1, hretries.1.2, fun t' ht' => ?_⟩
        rw [ht'.eq_sole hsole]
        exact hretries.2
  refine ⟨fun e he r hout hcarries => ?_, fun e he r hout hcarries effect hmay => ?_⟩
  · rcases hmeets e he r hout with ⟨-, -, -, hunhindered⟩ | hadministrator
    · exact hunhindered
    · rw [Request.carries_of_administrator hadministrator] at hcarries
      exact absurd hcarries (by simp)
  · rcases hmeets e he r hout with ⟨-, -, hr, -⟩ | hadministrator
    · exact absurd hr hcarries
    · cases r with
      | participant op =>
          obtain rfl : effect = .participant op := hmay
          simp [Effect.reservation]
      | credential op =>
          obtain rfl : effect = .credential op := hmay
          simp [Effect.reservation]
      | channel op =>
          obtain rfl : effect = .channel op := hmay
          simp [Effect.reservation]
      | _ => exact absurd hadministrator (by simp [Request.ofAdministrator])

private theorem agreeing_of_all {events : List ServerEvent}
    (h : events.all retriesHello = true) (hagrees : events.all agreesOnHello = true) :
    Agreeing sampleSettings helloWrite events := by
  intro e he r hout hcarries t ht
  have hretries := List.all_eq_true.mp h e he
  have hall := List.all_eq_true.mp hagrees e he
  unfold retriesHello at hretries
  unfold agreesOnHello at hall
  rw [hout, Option.all_some] at hretries hall
  cases hsole : r.sole with
  | none =>
      rw [hsole] at hretries
      rw [Request.carries_of_administrator hretries] at hcarries
      exact absurd hcarries (by simp)
  | some t' =>
      rw [hsole, Option.all_some] at hall
      rw [ht.eq_sole hsole]
      exact hall

private def aliceSigns : List Move :=
  [.start (.participant (.provision "alice" "chatgpt" none)), .advance 0,
    .start (.credential (.setAuthSecret "alice" sampleSecret)), .advance 1,
    .start (.channel (.create "general" "private" none)), .advance 2]

private def queryHello (place : Nat) : List Move :=
  .start (.navigationWrite "alice" (sampleQuery none sampleProof))
    :: List.replicate 4 (.advance place)

private def postHello (place : Nat) : List Move :=
  .start (.postMessage [] (Text.utf8 signedHello)) :: List.replicate 4 (.advance place)

/-- Alice says hello by `GET /w`, and says it again by a signed POST. -/
def helloByQueryFirst : List Move := aliceSigns ++ queryHello 3 ++ postHello 4

@[reducible] private def helloHistory (moves : List Move) : List ServerEvent :=
  serverHistory sampleSettings ⟨Database.initial, 0⟩ moves

/-- She says it by a signed POST first, and again by `GET /w`. -/
def helloByPostFirst : List Move := aliceSigns ++ postHello 3 ++ queryHello 4

end Sample

end Blackboard
