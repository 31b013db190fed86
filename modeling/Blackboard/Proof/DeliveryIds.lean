import Blackboard.Lib.Delimited
import Blackboard.Proof.Effects
import Blackboard.Proof.Parsing

/-!
# Names of deliveries

Every adapter that executes a write names the delivery, and the execution is refused when
another delivery is on record under the name. The names are fields joined by a colon behind
the name of the adapter. The name of the adapter has no colon, and neither has the nonce at
the end of a signed write or a tool call, so there only the principal is in question: the
name of a tool call with a bearer token leaves it out. The fields of an OpenID delivery may
all have colons in them, and what is lost is where one ends and the next begins.
-/

namespace Blackboard

open Relational (Table)
open Concurrent (Program)

/-! ## Deliveries -/

/-- What executes writes. The webhook delivers issues. -/
inductive Adapter where
  | oidc
  | mcpBearer
  | mcpHmac
  | restHmac
  | github (repositoryId : Nat) (issueNumber : Int)
  deriving DecidableEq

/-- The first part of its names. -/
def Adapter.scheme : Adapter → String
  | oidc => "oidc"
  | mcpBearer => "mcp-bearer"
  | mcpHmac => "mcp-hmac"
  | restHmac => "rest-hmac"
  | github .. => "github"

def Adapter.transport : Adapter → String
  | oidc => "oidc-http"
  | mcpBearer | mcpHmac => "mcp"
  | restHmac => "rest"
  | github .. => "github-webhook"

/-- A delivery of a write: who asks, for whom, and under which intent id. -/
@[ext]
structure Delivery where
  adapter : Adapter
  principal : Principal
  participantId : String
  intentId : String

namespace Delivery

/-- The name of a delivery behind the scheme. -/
def suffix (d : Delivery) : String :=
  match d.adapter with
  | .oidc =>
      Text.join ':' d.principal.subject (Text.join ':' d.participantId d.intentId)
  | .github repositoryId issueNumber =>
      Text.join ':' (toString repositoryId) (Text.join ':' "issue" (toString issueNumber))
  | _ => Text.join ':' d.participantId d.intentId

def id (d : Delivery) : String := Text.join ':' d.adapter.scheme d.suffix

/-- What is recorded of it. -/
def ingress (d : Delivery) : IngressProvenance where
  deliveryId := d.id
  intentId := d.intentId
  transport := d.adapter.transport
  externalRef :=
    match d.adapter with
    | .github .. => d.id
    | _ => d.intentId
  principal := d.principal

/-- The row it leaves. -/
def row (d : Delivery) (now : Int) : Ingress :=
  ⟨d.id, some d.participantId, d.intentId, d.ingress.transport, d.ingress.externalRef,
    d.principal.provider, d.principal.subject, now⟩

/-- Both deliver one issue. -/
def SameIssue (d d' : Delivery) : Prop :=
  ∃ repositoryId issueNumber, d.adapter = .github repositoryId issueNumber
    ∧ d'.adapter = .github repositoryId issueNumber

/-- Two deliveries are not two tool calls of different clients for one participant and nonce, and
not two OpenID deliveries whose three fields have the same parts between colons and are cut
elsewhere. -/
def Apart (d d' : Delivery) : Prop :=
  (d.adapter = .mcpBearer → d'.adapter = .mcpBearer → d.participantId = d'.participantId →
    d.intentId = d'.intentId → d.principal = d'.principal)
  ∧ (d.adapter = .oidc → d'.adapter = .oidc →
    Text.split ':' d.principal.subject ++ Text.split ':' d.participantId
        ++ Text.split ':' d.intentId
      = Text.split ':' d'.principal.subject ++ Text.split ':' d'.participantId
        ++ Text.split ':' d'.intentId →
    d.principal.subject = d'.principal.subject ∧ d.participantId = d'.participantId
      ∧ d.intentId = d'.intentId)

end Delivery

/-- An execution as a delivery of an adapter. -/
def MessageExecutionRequest.delivery (x : MessageExecutionRequest) (a : Adapter) : Delivery :=
  ⟨a, x.authority.principal, x.intent.participantId, x.intent.intentId⟩

/-! ## What the adapters admit -/

section Server

variable [Sha256] [Hmac] [Base64Url] [JsonParser] [Jwt]

/-- The execution a request asks for once its adapter has admitted it. -/
def Request.Admits (settings : Settings) : Request → Adapter → MessageExecutionRequest → Prop
  | .postMessage _ body, a, x => a = .restHmac ∧ ∃ object write,
      Http.readJsonObject body = .ok object ∧ Http.parseSignedMessage object = .ok write
        ∧ x = Http.signedExecution write.payload
  | .mcp headers .blackboardWrite arguments, a, x => ∃ principal w,
      CallPrincipal settings.oidcVerifier headers principal ∧ Mcp.parseWrite arguments = .ok w
        ∧ x = Mcp.execution principal w
        ∧ a = if principal.isSome then .mcpBearer else .mcpHmac
  | .oidc participantId headers body, a, x => a = .oidc ∧ ∃ principal fields intentId named,
      BearerVerified settings.oidcVerifier headers principal
        ∧ (Oidc.readJsonObject body).bind Oidc.parseMessage = .ok (fields, intentId)
        ∧ validateParticipantId participantId = some named
        ∧ x = Oidc.execution principal { fields with participantId := named, nonce := intentId }
  | .github headers body, a, x => ∃ d event,
      GithubWebhook.parseDelivery settings.github headers body = .ok d
        ∧ (JsonParser.parse body).bind GithubWebhook.parseEvent = some event
        ∧ x = GithubWebhook.execution d ∧ a = .github event.repositoryId event.issue.number
  | _, _, _ => False

/-- A delivery an adapter may make. -/
def Delivery.Admitted (settings : Settings) (d : Delivery) : Prop :=
  ∃ r a x, Request.Admits settings r a x ∧ x.delivery a = d

/-- What a request executes it executes for a delivery its adapter has admitted. -/
def Request.Admitted (settings : Settings) (r : Request) : Effect → Prop
  | .execute _ x => ∃ a, r.Admits settings a x
  | _ => True

omit [Sha256] [Hmac] [Base64Url] in
omit [JsonParser] [Jwt] in
/-- A nonce has no colon. -/
theorem Http.colon_not_mem_nonce {nonce : String} (h : Http.nonceRe nonce = true) :
    ':' ∉ nonce.toList := by
  intro hmem
  unfold Http.nonceRe Text.isToken at h
  split at h
  · exact absurd h (by simp)
  · rename_i c cs hs
    rw [hs] at hmem
    simp only [Bool.and_eq_true, List.all_eq_true] at h
    have hmark : (Text.isAsciiAlphanumeric ':' || ['.', '_', '~', '-'].contains ':') = false := by
      decide
    rcases List.mem_cons.mp hmem with rfl | hmem
    · exact absurd h.1.1 (by decide)
    · exact absurd ((h.2 ':' hmem).symm.trans hmark) (by simp)

/-- What an adapter has checked of a delivery. There is one provider of tokens. -/
def Delivery.Checked (settings : Settings) (d : Delivery) : Prop :=
  match d.adapter with
  | .oidc => ∃ v, settings.oidcVerifier = some v ∧ d.principal.provider = "oidc:" ++ v.issuer
  | .mcpBearer => Http.nonceRe d.intentId = true
  | .mcpHmac | .restHmac =>
      Http.nonceRe d.intentId = true ∧ d.principal = Http.participantHmac d.participantId
  | .github .. => True

omit [Sha256] [Hmac] [Base64Url] [JsonParser] in
theorem OidcVerifier.verify_provider {v : OidcVerifier} {token : String} {now : Nat}
    {principal : Principal} (h : v.verify token now = some principal) :
    principal.provider = "oidc:" ++ v.issuer := by
  unfold OidcVerifier.verify at h
  obtain ⟨⟨alg, kid⟩, -, h⟩ := Option.bind_eq_some_iff.mp h
  dsimp only at h
  split at h
  · exact absurd h (by simp)
  · obtain ⟨kid, -, h⟩ := Option.bind_eq_some_iff.mp h
    obtain ⟨key, -, h⟩ := Option.bind_eq_some_iff.mp h
    obtain ⟨claims, -, h⟩ := Option.bind_eq_some_iff.mp h
    obtain ⟨subject, -, h⟩ := Option.bind_eq_some_iff.mp h
    rw [← Option.some.inj h]

omit [Sha256] [Hmac] [Base64Url] [JsonParser] in
theorem BearerVerified.issuer {verifier : Option OidcVerifier} {headers : Headers}
    {principal : Principal} (h : BearerVerified verifier headers principal) :
    ∃ v, verifier = some v ∧ principal.provider = "oidc:" ++ v.issuer := by
  obtain ⟨v, token, now, hv, -, hverify⟩ := h
  exact ⟨v, hv, OidcVerifier.verify_provider hverify⟩

omit [Sha256] [Hmac] [Base64Url] [JsonParser] [Jwt] in
theorem githubDeliveryId_eq_join (repositoryId : Nat) (issueNumber : Int) :
    githubDeliveryId repositoryId issueNumber
      = Text.join ':' "github" (Text.join ':' (toString repositoryId)
          (Text.join ':' "issue" (toString issueNumber))) := by
  apply String.toList_inj.mp
  simp [githubDeliveryId, Text.toList_join]

omit [Sha256] [Hmac] [Base64Url] [JsonParser] [Jwt] in
/-- The names of signed writes and of tool calls. -/
theorem nonceName_eq_join (scheme participantId nonce : String) :
    scheme ++ ":" ++ participantId ++ ":" ++ nonce
      = Text.join ':' scheme (Text.join ':' participantId nonce) := by
  apply String.toList_inj.mp
  simp [Text.toList_join]

omit [Sha256] [Hmac] [Base64Url] [JsonParser] [Jwt] in
theorem oidcName_eq_join (subject participantId intentId : String) :
    "oidc:" ++ subject ++ ":" ++ participantId ++ ":" ++ intentId
      = Text.join ':' "oidc" (Text.join ':' subject (Text.join ':' participantId intentId)) := by
  apply String.toList_inj.mp
  simp [Text.toList_join]

omit [Base64Url] in
/-- **What an adapter records** depends on the delivery only. -/
theorem Request.Admits.ingress {settings : Settings} {r : Request} {a : Adapter}
    {x : MessageExecutionRequest} (h : r.Admits settings a x) :
    x.ingress = (x.delivery a).ingress := by
  cases r with
  | postMessage headers body =>
      obtain ⟨rfl, object, write, -, -, rfl⟩ := h
      have hid := nonceName_eq_join "rest-hmac" write.payload.participantId write.payload.nonce
      exact congrArg (fun id => IngressProvenance.mk id write.payload.nonce "rest"
        write.payload.nonce (Http.participantHmac write.payload.participantId)) hid
  | mcp headers tool arguments =>
      cases tool with
      | blackboardRead => exact h.elim
      | blackboardWrite =>
          obtain ⟨principal, w, -, -, rfl, rfl⟩ := h
          cases principal with
          | some principal =>
              have hid := nonceName_eq_join "mcp-bearer" w.participantId w.nonce
              exact congrArg (fun id => IngressProvenance.mk id w.nonce "mcp" w.nonce principal) hid
          | none =>
              have hid := nonceName_eq_join "mcp-hmac" w.participantId w.nonce
              exact congrArg (fun id => IngressProvenance.mk id w.nonce "mcp" w.nonce
                (Http.participantHmac w.participantId)) hid
  | oidc participantId headers body =>
      obtain ⟨rfl, principal, fields, intentId, named, -, -, -, rfl⟩ := h
      have hid := oidcName_eq_join principal.subject named intentId
      exact congrArg (fun id => IngressProvenance.mk id intentId "oidc-http" intentId principal) hid
  | github headers body =>
      obtain ⟨d, event, hparse, hevent, rfl, rfl⟩ := h
      have hid := (GithubWebhook.parseDelivery_deliveryId hparse hevent).trans
        (githubDeliveryId_eq_join event.repositoryId event.issue.number)
      exact congrArg (fun id => IngressProvenance.mk id d.nonce "github-webhook" id
        (GithubWebhook.principal d.sender)) hid
  | _ => exact h.elim

omit [Base64Url] in
theorem Request.Admits.checked {settings : Settings} {r : Request} {a : Adapter}
    {x : MessageExecutionRequest} (h : r.Admits settings a x) :
    (x.delivery a).Checked settings := by
  cases r with
  | postMessage headers body =>
      obtain ⟨rfl, object, write, -, hparse, rfl⟩ := h
      exact ⟨(Http.parseSignedMessage_checked hparse).nonce, rfl⟩
  | mcp headers tool arguments =>
      cases tool with
      | blackboardRead => exact h.elim
      | blackboardWrite =>
          obtain ⟨principal, w, hcall, hparse, rfl, rfl⟩ := h
          have hnonce := (Mcp.parseWrite_checked hparse).nonce
          cases principal with
          | some principal => exact hnonce
          | none => exact ⟨hnonce, rfl⟩
  | oidc participantId headers body =>
      obtain ⟨rfl, principal, fields, intentId, named, hbearer, -, -, rfl⟩ := h
      exact hbearer.issuer
  | github headers body =>
      obtain ⟨d, event, -, -, rfl, rfl⟩ := h
      trivial
  | _ => exact h.elim

/-- **A request executes nothing its adapter has not admitted.** -/
theorem serve_admitted (settings : Settings) (r : Request) :
    (serve settings r).Steps (Does (r.Admitted settings)) := by
  cases r with
  | postMessage headers body =>
      refine (serve_steps settings (.postMessage headers body)).mono fun _ _ hd =>
        hd.mono fun e he => ?_
      rcases he with rfl | ⟨object, hread, (rfl | ⟨write, writer, hparse, -, rfl | rfl⟩)
        | (rfl | ⟨identity, fields, -, rfl | rfl⟩)⟩
      · trivial
      · trivial
      · trivial
      · exact ⟨.restHmac, rfl, object, write, hread, hparse, rfl⟩
      · trivial
      · trivial
      · trivial
  | mcp headers tool arguments =>
      refine steps_mcpPost trivial fun principal w writer htool hcall hparse _ => ?_
      subst htool
      exact ⟨_, principal, w, hcall, hparse, rfl, rfl⟩
  | oidc participantId headers body =>
      unfold serve
      cases hverifier : settings.oidcVerifier with
      | none => trivial
      | some verifier =>
          refine steps_oidcPost trivial
            fun principal fields intentId named writer hbearer hparse hnamed _ => ?_
          rw [← hverifier] at hbearer
          exact ⟨.oidc, rfl, principal, fields, intentId, named, hbearer, hparse, hnamed, rfl⟩
  | github headers body =>
      refine (serve_steps settings (.github headers body)).mono fun _ _ hd =>
        hd.mono fun e he => ?_
      rcases he with rfl | ⟨d, writer, hparse, -, rfl⟩
      · trivial
      · obtain ⟨event, intent, hevent, -⟩ := GithubWebhook.parseDelivery_checkIntent hparse
        exact ⟨_, d, event, hparse, hevent, rfl, rfl⟩
  | _ =>
      refine (serve_steps settings _).mono fun _ _ hd => hd.mono fun e he => ?_
      cases e with
      | execute writer request =>
          rcases he.origin with ⟨_, _, h⟩ | ⟨_, _, _, h⟩ | ⟨_, _, _, h⟩ | ⟨_, _, h⟩
          · exact Request.noConfusion h
          · exact Request.noConfusion h
          · exact Request.noConfusion h
          · exact Request.noConfusion h
      | _ => trivial

/-! ## Two deliveries -/

omit [Sha256] [Hmac] [Base64Url] [JsonParser] [Jwt] in
theorem Principal.eq_of {p p' : Principal} (hprovider : p.provider = p'.provider)
    (hsubject : p.subject = p'.subject) : p = p' := by
  obtain ⟨provider, subject⟩ := p
  obtain ⟨provider', subject'⟩ := p'
  exact congrArg₂ Principal.mk hprovider hsubject

namespace Delivery

variable {settings : Settings} {d d' : Delivery}

omit [Sha256] [Hmac] [Base64Url] [JsonParser] [Jwt] in
theorem Checked.issuer (h : d.Checked settings) (ha : d.adapter = .oidc) :
    ∃ v, settings.oidcVerifier = some v ∧ d.principal.provider = "oidc:" ++ v.issuer := by
  unfold Checked at h
  rw [ha] at h
  exact h

omit [Sha256] [Hmac] [Base64Url] [JsonParser] [Jwt] in
theorem id_eq_iff :
    d.id = d'.id ↔ d.adapter.scheme = d'.adapter.scheme ∧ d.suffix = d'.suffix := by
  have hscheme : ∀ a : Adapter, ':' ∉ a.scheme.toList := by
    intro a
    cases a <;> simp [Adapter.scheme]
  exact Text.join_inj_left (hscheme _) (hscheme _)

omit [Sha256] [Hmac] [Base64Url] [JsonParser] [Jwt] in
/-- Where names are the same: two OpenID deliveries with the same parts, two tool calls of clients
for one participant and nonce, two deliveries of one issue, or one delivery. -/
theorem cases_of_id_eq (h : d.Checked settings) (h' : d'.Checked settings) (hid : d.id = d'.id) :
    (d.adapter = .oidc ∧ d'.adapter = .oidc
      ∧ Text.split ':' d.principal.subject ++ Text.split ':' d.participantId
          ++ Text.split ':' d.intentId
        = Text.split ':' d'.principal.subject ++ Text.split ':' d'.participantId
          ++ Text.split ':' d'.intentId)
    ∨ (d.adapter = .mcpBearer ∧ d'.adapter = .mcpBearer ∧ d.participantId = d'.participantId
      ∧ d.intentId = d'.intentId)
    ∨ d.SameIssue d' ∨ d = d' := by
  obtain ⟨hscheme, hsuffix⟩ := id_eq_iff.mp hid
  obtain ⟨a, principal, participantId, intentId⟩ := d
  obtain ⟨a', principal', participantId', intentId'⟩ := d'
  cases a with
  | oidc =>
      cases a' with
      | oidc =>
          refine Or.inl ⟨rfl, rfl, ?_⟩
          have hparts := Text.join_eq_iff.mp hsuffix
          rw [Text.split_join, Text.split_join, ← List.append_assoc, ← List.append_assoc] at hparts
          exact hparts
      | _ => exact absurd hscheme (by simp [Adapter.scheme])
  | mcpBearer =>
      cases a' with
      | mcpBearer =>
          obtain ⟨hp, hn⟩ := (Text.join_inj_right (Http.colon_not_mem_nonce h)
            (Http.colon_not_mem_nonce h')).mp hsuffix
          exact Or.inr (Or.inl ⟨rfl, rfl, hp, hn⟩)
      | _ => exact absurd hscheme (by simp [Adapter.scheme])
  | mcpHmac =>
      cases a' with
      | mcpHmac =>
          obtain ⟨hp, hn⟩ := (Text.join_inj_right (Http.colon_not_mem_nonce h.1)
            (Http.colon_not_mem_nonce h'.1)).mp hsuffix
          refine Or.inr (Or.inr (Or.inr (Delivery.ext rfl ?_ hp hn)))
          exact h.2.trans ((congrArg Http.participantHmac hp).trans h'.2.symm)
      | _ => exact absurd hscheme (by simp [Adapter.scheme])
  | restHmac =>
      cases a' with
      | restHmac =>
          obtain ⟨hp, hn⟩ := (Text.join_inj_right (Http.colon_not_mem_nonce h.1)
            (Http.colon_not_mem_nonce h'.1)).mp hsuffix
          refine Or.inr (Or.inr (Or.inr (Delivery.ext rfl ?_ hp hn)))
          exact h.2.trans ((congrArg Http.participantHmac hp).trans h'.2.symm)
      | _ => exact absurd hscheme (by simp [Adapter.scheme])
  | github repositoryId issueNumber =>
      cases a' with
      | github repositoryId' issueNumber' =>
          refine Or.inr (Or.inr (Or.inl ?_))
          have hdigits : ∀ n : Nat, ':' ∉ (toString n).toList := by
            intro n hmem
            exact absurd (Json.isNumeric_of_mem_natRepr hmem) (by decide)
          obtain ⟨hrepository, hrest⟩ := (Text.join_inj_left (hdigits _) (hdigits _)).mp hsuffix
          obtain ⟨-, hnumber⟩ := (Text.join_inj_left (by simp) (by simp)).mp hrest
          have hr : repositoryId = repositoryId' := Nat.repr_injective hrepository
          have hn : issueNumber = issueNumber' := Int.repr_injective hnumber
          rw [hr, hn]
          exact ⟨repositoryId', issueNumber', rfl, rfl⟩
      | _ => exact absurd hscheme (by simp [Adapter.scheme])

omit [Sha256] [Hmac] [Base64Url] [JsonParser] [Jwt] in
/-- **When names differ.** -/
theorem id_ne_iff (h : d.Checked settings) (h' : d'.Checked settings) (hne : d ≠ d') :
    (d.id ≠ d'.id ∨ d.SameIssue d') ↔ d.Apart d' := by
  constructor
  · intro hdiffer
    refine ⟨fun ha ha' hp hn => ?_, fun ha ha' hparts => ?_⟩
    · rcases hdiffer with hid | ⟨_, _, hgithub, -⟩
      · refine absurd (id_eq_iff.mpr ⟨by rw [ha, ha'], ?_⟩) hid
        unfold suffix
        rw [ha, ha', hp, hn]
      · exact absurd (ha.symm.trans hgithub) (by simp)
    · rcases hdiffer with hid | ⟨_, _, hgithub, -⟩
      · refine absurd (id_eq_iff.mpr ⟨by rw [ha, ha'], ?_⟩) hid
        unfold suffix
        rw [ha, ha']
        refine Text.join_eq_iff.mpr ?_
        rw [Text.split_join, Text.split_join, ← List.append_assoc, hparts, List.append_assoc]
      · exact absurd (ha.symm.trans hgithub) (by simp)
  · intro hapart
    by_contra hsame
    rw [not_or, not_not] at hsame
    obtain ⟨hid, hissue⟩ := hsame
    rcases cases_of_id_eq h h' hid with ⟨ha, ha', hparts⟩ | ⟨ha, ha', hp, hn⟩ | hi | heq
    · obtain ⟨hs, hp, hn⟩ := hapart.2 ha ha' hparts
      obtain ⟨v, hv, hprovider⟩ := h.issuer ha
      obtain ⟨v', hv', hprovider'⟩ := h'.issuer ha'
      obtain rfl := Option.some.inj (hv.symm.trans hv')
      have hprincipal := Principal.eq_of (hprovider.trans hprovider'.symm) hs
      exact hne (Delivery.ext (ha.trans ha'.symm) hprincipal hp hn)
    · exact hne (Delivery.ext (ha.trans ha'.symm) (hapart.1 ha ha' hp hn) hp hn)
    · exact hissue hi
    · exact hne heq

omit [Base64Url] in
/-- An execution leaves the row of its delivery. -/
theorem row_eq {r : Request} {a : Adapter} {x : MessageExecutionRequest}
    (h : r.Admits settings a x) (now messageId : Int) :
    ingressRow now x.ingress (executionReceipt x messageId) = (x.delivery a).row now := by
  unfold ingressRow
  rw [h.ingress]
  rfl

/-- What the table of deliveries holds when only the adapters write to it. -/
def Kept (ds : Set Delivery) (db : Database) : Prop :=
  ∀ i ∈ db.ingress, ∃ d ∈ ds, ∃ now, i = d.row now

omit [Sha256] [Hmac] [Base64Url] [JsonParser] [Jwt] in
/-- A delivery is on record under its name, unless the row is of another delivery of its issue. -/
theorem Kept.sameDelivery {ds : Set Delivery} {db : Database} (h : Kept ds db)
    (hchecked : ∀ d ∈ ds, d.Checked settings)
    (hapart : ∀ d ∈ ds, ∀ d' ∈ ds, d.Apart d') (hd : d ∈ ds) {i : Ingress} (hi : i ∈ db.ingress)
    (hid : i.deliveryId = d.id) (now : Int) :
    sameDelivery i (d.row now)
      ∨ ∃ d' ∈ ds, d'.SameIssue d ∧ ∃ now, i = d'.row now := by
  obtain ⟨d', hd', then', rfl⟩ := h i hi
  by_cases heq : d' = d
  · rw [heq]
    exact Or.inl ⟨rfl, rfl, rfl, rfl, rfl, rfl⟩
  · rcases (id_ne_iff (hchecked d' hd') (hchecked d hd) heq).mpr (hapart d' hd' d hd) with
      hne | hissue
    · exact absurd hid hne
    · exact Or.inr ⟨d', hd', hissue, then', rfl⟩

end Delivery

/-! ## Runs -/

/-- An effect of an admitted delivery keeps the table. -/
theorem Delivery.Kept.effect {settings : Settings} {ds : Set Delivery} {r : Request} {e : Effect}
    {w : World} (h : Kept ds w.db) (hadmitted : r.Admitted settings e)
    (hds : ∀ a x, r.Admits settings a x → x.delivery a ∈ ds) : Kept ds (e.apply w).db := by
  -- a recorded delivery is the request's own
  have hrecorded : ∀ a x messageId (t : Table Ingress.deliveryId), r.Admits settings a x →
      IngressRecorded (ingressRow w.now x.ingress (executionReceipt x messageId)) w.db.ingress t →
      ∀ i ∈ t, ∃ d ∈ ds, ∃ now, i = d.row now := by
    intro a x messageId t hadmits hrec i hi
    rcases hrec.new i hi with hold | hnew
    · exact h i hold
    · exact ⟨x.delivery a, hds a x hadmits, w.now, hnew.trans (row_eq hadmits w.now messageId)⟩
  rcases e.cases_ledger w with
    hsame | ⟨identity, fields, rfl⟩ | ⟨writer, payload, m, rfl, hw, -⟩
      | ⟨writer, x, m, rfl, hf⟩ | ⟨writer, x, m, rfl, hr⟩
  · unfold Kept
    rw [hsame.ingress]
    exact h
  · exact h
  · rw [hw.frame]
    exact h
  · obtain ⟨a, hadmits⟩ := hadmitted
    exact hrecorded a x m.id _ hadmits hf.effects.ingress
  · obtain ⟨a, hadmits⟩ := hadmitted
    exact hrecorded a x m.id _ hadmits hr.ingress

/-- **Names of deliveries.** The names of two deliveries are different, or they deliver one issue,
exactly if the deliveries are apart. In a run whose deliveries are pairwise apart a delivery is
refused only for another delivery of its issue. -/
theorem deliveries_apart (settings : Settings) (s : World) (moves : List Move) :
    (∀ r a x r' a' x', Request.Admits settings r a x → Request.Admits settings r' a' x' →
      x.delivery a ≠ x'.delivery a' →
        (x.ingress.deliveryId ≠ x'.ingress.deliveryId ∨ (x.delivery a).SameIssue (x'.delivery a')
          ↔ (x.delivery a).Apart (x'.delivery a')))
    ∧ ∀ ds : Set Delivery, (∀ d ∈ ds, ∃ r a x, Request.Admits settings r a x ∧ x.delivery a = d) →
      (∀ d ∈ ds, ∀ d' ∈ ds, d.Apart d') → Delivery.Kept ds s.db →
      (∀ e ∈ serverHistory settings s moves, ∀ r a x, e.out = some r → r.Admits settings a x →
        x.delivery a ∈ ds) →
      ∀ e ∈ serverHistory settings s moves, ∀ r a x, e.out = some r → r.Admits settings a x →
        ∀ db messageId err, db.ingress = e.before.store.db.ingress →
          recordIngress e.before.store.now x.ingress (executionReceipt x messageId) db
            = .error err →
          ∃ d ∈ ds, d.SameIssue (x.delivery a) ∧ ∃ i ∈ db.ingress,
            i.deliveryId = x.ingress.deliveryId ∧ ∃ now, i = d.row now := by
  constructor
  · intro r a x r' a' x' h h' hne
    rw [h.ingress, h'.ingress]
    exact Delivery.id_ne_iff h.checked h'.checked hne
  · intro ds hadmitted hapart hstart hds e he r a x hout hadmits db messageId err hdb herr
    have hchecked : ∀ d ∈ ds, d.Checked settings := by
      intro d hd
      obtain ⟨r, a, x, hx, rfl⟩ := hadmitted d hd
      exact hx.checked
    have hkept : Delivery.Kept ds e.before.store.db := by
      refine (Concurrent.store_history (I := fun w : World => Delivery.Kept ds w.db) hstart
        (fun e he hbefore => ?_) e he).1
      rcases Concurrent.steps_history (fun r => serve_admitted settings r) he with
        ⟨r, hout, effect, hmay, hafter⟩ | ⟨-, hsame⟩
      · rw [hafter]
        exact hbefore.effect hmay fun a x hx => hds e he r a x hout hx
      · rw [hsame]
        exact hbefore
    have hkept : Delivery.Kept ds db := by
      unfold Delivery.Kept
      rw [hdb]
      exact hkept
    by_contra hnone
    -- otherwise the delivery fits whatever is on record
    have hfits : DeliveryFits (ingressRow e.before.store.now x.ingress
        (executionReceipt x messageId)) db.ingress := by
      intro i hfind
      have hi : i ∈ db.ingress := Table.mem_of_find hfind
      have hid : i.deliveryId = x.ingress.deliveryId := Table.key_of_find hfind
      rw [Delivery.row_eq hadmits]
      rcases hkept.sameDelivery hchecked hapart (hds e he r a x hout hadmits) hi
          (hid.trans (congrArg IngressProvenance.deliveryId hadmits.ingress))
          e.before.store.now with hsame | ⟨d, hd, hissue, hrow⟩
      · exact hsame
      · exact absurd ⟨d, hd, hissue, i, hi, hid, hrow⟩ hnone
    obtain ⟨db', hok⟩ := recordIngress_of_fits hfits
    rw [hok] at herr
    exact absurd herr (by simp)

end Server

/-! ## Two clients of one name -/

section Sample

private def firstText : String :=
  "\x7b\"channel\":\"general\",\"body\":\"hello\",\"intent_id\":\"alice:post-1\"\x7d"

private def secondText : String :=
  "\x7b\"channel\":\"general\",\"body\":\"hello\",\"intent_id\":\"post-1\"\x7d"

@[reducible] private def twoPostsJsonParser : JsonParser where
  parse body := [(Text.utf8 firstText, .object [("channel", .string "general"),
      ("body", .string "hello"), ("intent_id", .string "alice:post-1")]),
    (Text.utf8 secondText, .object [("channel", .string "general"),
      ("body", .string "hello"), ("intent_id", .string "post-1")])].lookup body

attribute [local instance] sampleSha256 sampleHmac sampleBase64Url twoPostsJsonParser
  sampleProviderJwt

private def providerSettings : Settings := ⟨[], ⟨none, none⟩, some sampleProvider⟩

/-- Carol and a client called `carol:alice` may both post as Alice. -/
private def twoClientsStore : Database :=
  { sampleStore with
    principalGrants := (Table.empty.insertOrIgnore sampleGrant).insertOrIgnore
      { sampleGrant with id := 2, principalSubject := "carol:alice" } }

private def firstPost : Request :=
  .oidc "alice" (sampleBearer "carol-token") (Text.utf8 firstText)

private def secondPost : Request :=
  .oidc "alice" (sampleBearer "second-token") (Text.utf8 secondText)

private def post (intentId : String) : Http.WritePayload :=
  ⟨⟨"general", "message", "hello", none⟩, "alice", intentId⟩

private def issuer : String := "oidc:https://id.example"

private theorem admits_post {token subject text intentId : String}
    (htoken : (sampleBearer token).bearerToken = some token)
    (hverify : sampleProvider.verify token 0 = some ⟨issuer, subject⟩)
    (hparse : (Oidc.readJsonObject (Text.utf8 text)).bind Oidc.parseMessage
      = .ok ((post intentId).toMessageFields, intentId)) :
    Request.Admits providerSettings (.oidc "alice" (sampleBearer token) (Text.utf8 text)) .oidc
      (Oidc.execution ⟨issuer, subject⟩ (post intentId)) := by
  have hnamed : validateParticipantId "alice" = some "alice" := by decide +kernel
  exact ⟨rfl, _, _, _, _, ⟨sampleProvider, token, 0, rfl, htoken, hverify⟩, hparse, hnamed, rfl⟩

/-- Carol posts, and then nobody called `carol:alice` can post what has the same parts. -/
theorem clients_collide :
    (¬ ∀ r a x r' a' x', Request.Admits providerSettings r a x →
      Request.Admits providerSettings r' a' x' → x.delivery a ≠ x'.delivery a' →
        x.ingress.deliveryId ≠ x'.ingress.deliveryId
          ∨ (x.delivery a).SameIssue (x'.delivery a'))
    ∧ (evaluateAuthorization 0 ((serve providerSettings firstPost).run ⟨twoClientsStore, 0⟩).2.db
        ⟨issuer, "carol:alice"⟩ "alice" postMessage (some "general") (some "post-1")).allowed
      = true
    ∧ ((serve providerSettings secondPost).run
        ((serve providerSettings firstPost).run ⟨twoClientsStore, 0⟩).2).1
      = ApiError.database.response := by
  refine ⟨?_, by decide +kernel, by decide +kernel⟩
  intro h
  have hfirst : Request.Admits providerSettings firstPost .oidc
      (Oidc.execution ⟨issuer, "carol"⟩ (post "alice:post-1")) :=
    admits_post (by decide +kernel) (by decide +kernel) (by decide +kernel)
  have hsecond : Request.Admits providerSettings secondPost .oidc
      (Oidc.execution ⟨issuer, "carol:alice"⟩ (post "post-1")) :=
    admits_post (by decide +kernel) (by decide +kernel) (by decide +kernel)
  rcases h _ _ _ _ _ _ hfirst hsecond
      (fun heq => absurd (congrArg Delivery.intentId heq) (by decide +kernel)) with
    hne | ⟨_, _, hissue, -⟩
  · exact hne (by decide +kernel)
  · exact Adapter.noConfusion hissue

end Sample

end Blackboard
