import Blackboard.Proof.Attribution
import Blackboard.Proof.CallLedger
import Blackboard.Proof.GrantAuthority

/-!
# Nothing is done for nobody

While a call is served others change the store, so what was looked up may not hold any more
when it is acted on. What can be said is what the call has seen: before its first
transaction that writes, it has met a store in which the credential it came with was good,
and it writes under the name it found there.

`Runtime.Call.Warrants` says for every call what it may do after which look-ups, and
`call_justified` that no call does anything else.
-/

namespace Blackboard

open Relational (Table)
open Concurrent (Program)

/-! ## What a request has seen -/

/-- Some state the request has met is like this. -/
def Seen (past : List World) (P : World → Prop) : Prop := ∃ w ∈ past, P w

theorem Seen.mono {past past' : List World} {P : World → Prop} (h : Seen past P)
    (hsub : past ⊆ past') : Seen past' P := by
  obtain ⟨w, hw, hp⟩ := h
  exact ⟨w, hsub hw, hp⟩

theorem seen_single {w : World} {P : World → Prop} (h : P w) : Seen [w] P :=
  ⟨w, List.mem_singleton_self w, h⟩

section Credentials

variable [Sha256] [Hmac] [Base64Url] [JsonParser]

/-- A human session, and its participant. -/
def SessionSeen (key : Bytes) (headers : Headers) (past : List World) (who : Identity) : Prop :=
  ∃ session, session.sessionType = .humanWeb
    ∧ (Seen past fun w => sessionAt key headers w.now = some session)
    ∧ Seen past fun w => getWebParticipant w.db session.participantId = some who

/-- A client, by its token. -/
def TokenSeen (headers : Headers) (past : List World) (who : Identity) : Prop :=
  ∃ token, headers.bearerToken = some token
    ∧ Seen past fun w => resolveIdentity w.db token = some who

/-- A participant, by the proof of a write. -/
def ProofSeen (write : Http.SignedWrite) (past : List World) (who : Identity) : Prop :=
  Seen past fun w => Http.signedWriter w.db write = some who

omit [Sha256] in
theorem SessionSeen.mono {key : Bytes} {headers : Headers} {past past' : List World}
    {who : Identity} (h : SessionSeen key headers past who) (hsub : past ⊆ past') :
    SessionSeen key headers past' who := by
  obtain ⟨session, hkind, hsession, hwho⟩ := h
  exact ⟨session, hkind, hsession.mono hsub, hwho.mono hsub⟩

omit [Hmac] [Base64Url] [JsonParser] in
theorem TokenSeen.mono {headers : Headers} {past past' : List World} {who : Identity}
    (h : TokenSeen headers past who) (hsub : past ⊆ past') : TokenSeen headers past' who := by
  obtain ⟨token, htoken, hwho⟩ := h
  exact ⟨token, htoken, hwho.mono hsub⟩

/-! ## What a look-up has seen -/

variable {key : Bytes} {headers : Headers} {met : List World} {who : Identity}

omit [Sha256] [Hmac] [Base64Url] [JsonParser] in
theorem outcome?_query {α : Type} {q : Database → α} {a : α} (h : (query q).outcome? met = some a) :
    ∃ w, met = [w] ∧ q w.db = a := by
  cases met with
  | nil => exact absurd h (by simp [query, Program.read, Program.atomic])
  | cons w rest =>
      cases rest with
      | nil => exact ⟨w, rfl, Option.some.inj h⟩
      | cons w' rest => exact absurd h (by simp [query, Program.read, Program.atomic])

omit [Sha256] [Hmac] [Base64Url] [JsonParser] in
theorem outcome?_currentUnixTime {now : Nat}
    (h : RequestAuth.currentUnixTime.outcome? met = some now) :
    ∃ w, met = [w] ∧ w.now.toNat = now := by
  cases met with
  | nil => exact absurd h (by simp [RequestAuth.currentUnixTime, Program.read, Program.atomic])
  | cons w rest =>
      cases rest with
      | nil => exact ⟨w, rfl, Option.some.inj h⟩
      | cons w' rest =>
          exact absurd h (by simp [RequestAuth.currentUnixTime, Program.read, Program.atomic])

omit [Sha256] in
theorem outcome?_verifiedWebSession {session : WebAuth.WebSession}
    (h : (RequestAuth.verifiedWebSession key headers).outcome? met = some (some session)) :
    Seen met fun w => sessionAt key headers w.now = some session := by
  unfold RequestAuth.verifiedWebSession at h
  unfold sessionAt
  cases htoken : headers.text WebAuth.webSessionHeader with
  | none =>
      rw [htoken] at h
      exact absurd h (by simp)
  | some token =>
      rw [htoken] at h
      obtain ⟨first, rest, now, rfl, hfirst, hrest⟩ := Program.outcome?_bind h
      obtain ⟨w, rfl, rfl⟩ := outcome?_currentUnixTime hfirst
      simp only [Program.pure_eq, Program.outcome?_done] at hrest
      split at hrest
      · exact ⟨w, by simp, Option.some.inj hrest⟩
      · exact absurd hrest (by simp)

theorem outcome?_resolveRequestIdentity
    (h : (RequestAuth.resolveRequestIdentity key headers).outcome? met = some (some who)) :
    headers.containsKey WebAuth.webSessionHeader = true ∧ SessionSeen key headers met who
    ∨ headers.containsKey WebAuth.webSessionHeader = false ∧ TokenSeen headers met who := by
  unfold RequestAuth.resolveRequestIdentity at h
  split at h
  · rename_i hkey
    obtain ⟨first, rest, session, rfl, hfirst, hrest⟩ := Program.outcome?_bind h
    cases session with
    | none => exact absurd hrest (by simp)
    | some session =>
        dsimp only at hrest
        split at hrest
        · exact absurd hrest (by simp)
        · rename_i hkind
          obtain ⟨w, rfl, hwho⟩ := outcome?_query hrest
          exact Or.inl ⟨hkey, session, not_not.mp hkind,
            (outcome?_verifiedWebSession hfirst).mono (List.subset_append_left _ _),
            (seen_single hwho).mono (List.subset_append_right _ _)⟩
  · rename_i hkey
    split at h
    · exact absurd h (by simp)
    · cases htoken : headers.bearerToken with
      | none =>
          rw [htoken] at h
          exact absurd h (by simp)
      | some token =>
          rw [htoken] at h
          obtain ⟨w, rfl, hwho⟩ := outcome?_query h
          exact Or.inr ⟨by simpa using hkey, token, htoken, seen_single hwho⟩

/-- Under which name an administrator of grants is known, and why. -/
inductive Administrator (key : Bytes) (headers : Headers) (past : List World) (who : Identity) :
    Principal → Prop
  | session : SessionSeen key headers past who →
      Administrator key headers past who ⟨"human-web", who.inst⟩
  | token : TokenSeen headers past who → Administrator key headers past who ⟨"bearer", who.inst⟩

theorem Administrator.mono {past past' : List World} {caller : Principal}
    (h : Administrator key headers past who caller) (hsub : past ⊆ past') :
    Administrator key headers past' who caller := by
  cases h with
  | session h => exact .session (h.mono hsub)
  | token h => exact .token (h.mono hsub)

/-- A caller that is no participant that signs has been resolved by its session or its token. -/
theorem administrator_of_outcome {method requestTarget : String}
    (h : (AccessApi.requireIdentityForTarget key headers method requestTarget).outcome? met
      = some (.ok who))
    (hprovider : (AccessApi.principalForHeaders headers who).provider ≠ "participant-hmac") :
    Administrator key headers met who (AccessApi.principalForHeaders headers who) := by
  unfold AccessApi.requireIdentityForTarget at h
  obtain ⟨first, rest, found, rfl, hfirst, hrest⟩ := Program.outcome?_bind h
  cases found with
  | none => exact absurd hrest (by simp)
  | some identity =>
      simp only [Program.pure_eq, Program.outcome?_done] at hrest
      split at hrest
      swap
      · exact absurd hrest (by simp)
      rename_i hnil
      obtain rfl := Except.ok.inj (Option.some.inj hrest)
      rw [hnil, List.append_nil]
      unfold RequestAuth.resolveRequestIdentityForTarget at hfirst
      unfold AccessApi.principalForHeaders at hprovider ⊢
      split at hfirst
      · rename_i hplain
        rcases outcome?_resolveRequestIdentity hfirst with ⟨hkey, hseen⟩ | ⟨hkey, hseen⟩
        · rw [if_pos hkey]
          exact .session hseen
        · rw [if_neg (by simp [hkey]), if_neg hplain]
          exact .token hseen
      · rename_i hsigned
        split at hfirst
        · exact absurd hfirst (by simp)
        · rename_i hkey
          dsimp only at hprovider
          rw [if_neg hkey, if_pos (not_not.mp hsigned)] at hprovider
          exact absurd rfl hprovider

omit [Sha256] in
/-- A human administrator has been seen to be one. -/
theorem outcome?_requireHumanAdmin
    (h : (Http.requireHumanAdmin key headers).outcome? met = some (.ok who)) :
    SessionSeen key headers met who
      ∧ Seen met fun w => getWebParticipantRole w.db who.inst = some "admin" := by
  unfold Http.requireHumanAdmin at h
  obtain ⟨first, rest, session, rfl, hfirst, hrest⟩ := Program.outcome?_bind h
  cases session with
  | none => exact absurd hrest (by simp)
  | some session =>
      dsimp only at hrest
      split at hrest
      · exact absurd hrest (by simp)
      · rename_i hkind
        obtain ⟨second, others, identity, rfl, hsecond, hothers⟩ := Program.outcome?_bind hrest
        obtain ⟨third, last, role, rfl, hthird, hlast⟩ := Program.outcome?_bind hothers
        obtain ⟨w, rfl, hidentity⟩ := outcome?_query hsecond
        obtain ⟨w', rfl, hrole⟩ := outcome?_query hthird
        cases identity with
        | none => exact absurd hlast (by simp)
        | some identity =>
            dsimp only at hlast
            split at hlast
            swap
            · exact absurd hlast (by simp)
            rename_i hadmin
            simp only [Program.pure_eq, Program.outcome?_done] at hlast
            split at hlast
            swap
            · exact absurd hlast (by simp)
            obtain rfl := Except.ok.inj (Option.some.inj hlast)
            have hinst := getWebParticipant_inst hidentity
            refine ⟨⟨session, not_not.mp hkind, ?_, (seen_single hidentity).mono ?_⟩, ?_⟩
            · exact (outcome?_verifiedWebSession hfirst).mono (List.subset_append_left _ _)
            · intro w hw
              rw [List.mem_singleton.mp hw]
              simp
            · rw [hinst]
              refine (seen_single (hrole.trans hadmin)).mono fun w hw => ?_
              rw [List.mem_singleton.mp hw]
              simp

end Credentials

/-! ## Transactions with a warrant -/

/-- A transaction whose effect is warranted by what the request has met. -/
def Justly [Sha256] [Hmac] [Base64Url] (W : List World → Effect → Prop) (past : List World)
    (w w' : World) : Prop := Does (W past) w w'

/-- A look-up changes nothing. -/
def OnlyReads (e : Effect) : Prop := e = .nothing

theorem onlyReads_nothing : OnlyReads .nothing := rfl

section Rules

variable [Sha256] [Hmac] [Base64Url] {α β : Type} {W W' : List World → Effect → Prop}
  {past : List World}

/-- A look-up, and then something that may refer to it. -/
theorem justified_lookup (hnothing : ∀ past, W past .nothing) {p : Program World α}
    {k : α → Program World β} (hp : p.Steps (Does OnlyReads))
    (hk : ∀ met a, p.outcome? met = some a → (k a).Justified (Justly W) (past ++ met)) :
    (p >>= k).Justified (Justly W) past := by
  refine Program.justified_bind (Program.justified_of_steps hp fun later s s' h => ?_) hk
  refine h.mono fun e he => ?_
  rw [show e = .nothing from he]
  exact hnothing _

theorem justified_of_does {p : Program World α} {M : Effect → Prop} (hp : p.Steps (Does M))
    (h : ∀ later e, M e → W (past ++ later) e) : p.Justified (Justly W) past :=
  Program.justified_of_steps hp fun later _ _ hd => hd.mono (h later)

theorem justified_of_reads (hnothing : ∀ past, W past .nothing) {p : Program World α}
    (hp : p.Steps (Does OnlyReads)) : p.Justified (Justly W) past := by
  refine justified_of_does hp fun later e he => ?_
  rw [show e = .nothing from he]
  exact hnothing _

end Rules

/-! ## Tools -/

section Tools

variable [Sha256] [Hmac] [Base64Url] {W : List World → Effect → Prop} {past : List World}
  {principal : Option Principal}

/-- Whom a tool's call writes as, with a token or with a proof. -/
def WriterSeen (principal : Option Principal) (arguments : Json.Object) (w : Http.WritePayload)
    (past : List World) (writer : Identity) : Prop :=
  match principal with
  | some _ => Seen past fun s => getWebParticipant s.db w.participantId = some writer
  | none => ∃ proof, Mcp.parseAuth arguments = .ok proof ∧ ProofSeen ⟨w, proof⟩ past writer

omit [Sha256] in
theorem WriterSeen.mono {arguments : Json.Object} {w : Http.WritePayload} {past' : List World}
    {writer : Identity} (h : WriterSeen principal arguments w past writer) (hsub : past ⊆ past') :
    WriterSeen principal arguments w past' writer := by
  cases principal with
  | some principal => exact Seen.mono h hsub
  | none =>
      obtain ⟨proof, hparse, hseen⟩ := h
      exact ⟨proof, hparse, hseen.mono hsub⟩

/-- What a call of a tool that is given such arguments may do once it has met these states. -/
def ToolWarrant (given : Json.Object → Prop) (principal : Option Principal) (past : List World)
    (e : Effect) : Prop :=
  e = .nothing ∨ ∃ arguments w writer, given arguments ∧ Mcp.parseWrite arguments = .ok w
    ∧ WriterSeen principal arguments w past writer
    ∧ e = .execute writer (Mcp.execution principal w)

omit [Sha256] in
theorem outcome?_resolveWriteIdentity {arguments : Json.Object} {w : Http.WritePayload}
    {met : List World} {writer : Identity}
    (h : (Mcp.resolveWriteIdentity arguments w principal).outcome? met = some (.ok writer)) :
    WriterSeen principal arguments w met writer := by
  unfold Mcp.resolveWriteIdentity at h
  cases principal with
  | some principal =>
      obtain ⟨first, rest, found, rfl, hfirst, hrest⟩ := Program.outcome?_bind h
      obtain ⟨s, rfl, hwho⟩ := outcome?_query hfirst
      cases found with
      | none => exact absurd hrest (by simp)
      | some identity =>
          simp only [Program.pure_eq, Program.outcome?_done] at hrest
          split at hrest
          swap
          · exact absurd hrest (by simp)
          obtain rfl := Except.ok.inj (Option.some.inj hrest)
          exact (seen_single hwho).mono (List.subset_append_left _ _)
  | none =>
      dsimp only at h
      cases hproof : Mcp.parseAuth arguments with
      | error code =>
          rw [hproof] at h
          exact absurd h (by simp)
      | ok proof =>
          rw [hproof] at h
          obtain ⟨first, rest, found, rfl, hfirst, hrest⟩ := Program.outcome?_bind h
          obtain ⟨s, rfl, hauth⟩ := outcome?_query hfirst
          cases found with
          | none => exact absurd hrest (by simp)
          | some auth =>
              dsimp only at hrest
              split at hrest
              · exact absurd hrest (by simp)
              rename_i hscheme
              split at hrest
              · exact absurd hrest (by simp)
              rename_i hverified
              simp only [Program.pure_eq, Program.outcome?_done] at hrest
              split at hrest
              swap
              · exact absurd hrest (by simp)
              obtain rfl := Except.ok.inj (Option.some.inj hrest)
              refine ⟨proof, hproof, Seen.mono (seen_single ?_) (List.subset_append_left _ _)⟩
              -- the tool checks a proof as `GET /w` does
              unfold Http.signedWriter
              rw [hauth]
              dsimp only
              rw [if_neg]
              exact not_or.mpr ⟨hscheme, hverified⟩

theorem steps_resolveWriteIdentity {may : Effect → Prop} (h : may .nothing)
    (arguments : Json.Object) (w : Http.WritePayload) (principal : Option Principal) :
    (Mcp.resolveWriteIdentity arguments w principal).Steps (Does may) := by
  unfold Mcp.resolveWriteIdentity
  cases principal with
  | some principal =>
      refine Program.steps_bind (steps_query h _) fun found => ?_
      cases found with
      | none => trivial
      | some identity => trivial
  | none =>
      cases Mcp.parseAuth arguments with
      | error code => trivial
      | ok proof =>
          refine Program.steps_bind (steps_query h _) fun found => ?_
          cases found with
          | none => trivial
          | some auth =>
              dsimp only
              split
              · trivial
              · split
                · trivial
                · trivial

/-- A write waits for its writer to be found. -/
theorem justified_blackboardWrite (hnothing : ∀ past, W past .nothing) (arguments : Json.Object)
    (hW : ∀ later e, ToolWarrant (fun given => given = arguments) principal (past ++ later) e →
      W (past ++ later) e) :
    (Mcp.blackboardWrite arguments principal).Justified (Justly W) past := by
  unfold Mcp.blackboardWrite
  cases hparse : Mcp.parseWrite arguments with
  | error code => trivial
  | ok w =>
      refine justified_lookup hnothing
        (steps_resolveWriteIdentity onlyReads_nothing arguments w principal)
        fun met who hwho => ?_
      cases who with
      | error code => trivial
      | ok writer =>
          refine justified_of_does (M := fun e => e = .execute writer (Mcp.execution principal w))
            (Program.steps_bind (steps_statement rfl fun _ => rfl) fun _ => trivial) ?_
          intro later e he
          have hsub : met ⊆ past ++ (met ++ later) := fun s hs => by simp [hs]
          have hseen := (outcome?_resolveWriteIdentity hwho).mono hsub
          rw [List.append_assoc]
          exact hW _ e (Or.inr ⟨arguments, w, writer, rfl, hparse, hseen, he⟩)

theorem ToolWarrant.imp {given given' : Json.Object → Prop} {e : Effect}
    (h : ToolWarrant given principal past e) (hgiven : ∀ a, given a → given' a) :
    ToolWarrant given' principal past e := by
  rcases h with h | ⟨arguments, w, writer, hg, hparse, hwriter, he⟩
  · exact Or.inl h
  · exact Or.inr ⟨arguments, w, writer, hgiven _ hg, hparse, hwriter, he⟩

/-- A request calls a tool with these arguments. -/
def Mcp.GivesTool (object arguments : Json.Object) : Prop :=
  ∃ name given, Mcp.toolCall object = .ok (name, given) ∧ arguments = given.getD []

theorem justified_toolCallResult (hnothing : ∀ past, W past .nothing) (object : Json.Object)
    (hW : ∀ later e, ToolWarrant (Mcp.GivesTool object) principal (past ++ later) e →
      W (past ++ later) e) :
    (Mcp.toolCallResult object principal).Justified (Justly W) past := by
  unfold Mcp.toolCallResult
  cases hcall : Mcp.toolCall object with
  | error code => trivial
  | ok call =>
      obtain ⟨name, given⟩ := call
      have hgives : ∀ a, a = given.getD [] → Mcp.GivesTool object a :=
        fun _ ha => ⟨name, given, hcall, ha⟩
      dsimp only
      split
      · exact justified_of_reads hnothing (Program.steps_bind
          (steps_blackboardRead onlyReads_nothing _ principal) fun _ => trivial)
      · split
        · exact Program.justified_bind (justified_blackboardWrite hnothing _
            fun later e he => hW later e (he.imp hgives)) fun _ _ _ => trivial
        · split
          · rename_i tool htool
            exact justified_of_reads hnothing (Program.steps_bind
              (steps_reportingTool onlyReads_nothing htool _ principal) fun _ => trivial)
          · trivial

end Tools

/-! ## JSON-RPC -/

section Rpc

variable [Sha256] [Hmac] [Base64Url] [JsonParser] {W : List World → Effect → Prop}
  {past : List World}

omit [JsonParser] in
theorem justified_stdioDispatch (hnothing : ∀ past, W past .nothing) (value : Json.Value)
    (hW : ∀ object, value.asObject = some object → ∀ later e,
      ToolWarrant (Mcp.GivesTool object) none (past ++ later) e → W (past ++ later) e) :
    (Mcp.stdioDispatch value).Justified (Justly W) past := by
  unfold Mcp.stdioDispatch
  cases hobject : value.asObject with
  | none => trivial
  | some object =>
    dsimp only
    split
    · trivial
    · split
      · split
        · trivial
        · trivial
      · split
        · trivial
        · refine Program.justified_bind ?_ fun _ _ _ => trivial
          unfold Mcp.stdioMethod
          split
          · trivial
          · trivial
          · trivial
          · trivial
          · refine Program.justified_bind (justified_toolCallResult hnothing object
              (hW object hobject)) fun _ result _ => ?_
            cases result with
            | error message => trivial
            | ok result => trivial
          · trivial

/-- A text of JSON is a request that calls a tool with these arguments. -/
def Mcp.TextGivesTool (text : Bytes) (arguments : Json.Object) : Prop :=
  ∃ value object, JsonParser.parse text = some value ∧ value.asObject = some object
    ∧ Mcp.GivesTool object arguments

theorem justified_serveStdio (hnothing : ∀ past, W past .nothing) (lines : List String)
    (hW : ∀ line ∈ lines, ∀ past e,
      ToolWarrant (Mcp.TextGivesTool (Text.utf8 line)) none past e → W past e) :
    (Mcp.serveStdio lines).Justified (Justly W) past := by
  induction lines generalizing past with
  | nil => trivial
  | cons line lines ih =>
      have hrest : ∀ past, (Mcp.serveStdio lines).Justified (Justly W) past :=
        fun past => ih fun line hline => hW line (List.mem_cons_of_mem _ hline)
      unfold Mcp.serveStdio
      split
      · exact hrest past
      · cases hvalue : JsonParser.parse (Text.utf8 line) with
        | none => exact Program.justified_bind (hrest past) fun _ _ _ => trivial
        | some value =>
            refine Program.justified_bind (justified_stdioDispatch hnothing value ?_)
              fun _ _ _ => Program.justified_bind (hrest _) fun _ _ _ => trivial
            intro object hobject later e he
            exact hW line List.mem_cons_self _ e
              (he.imp fun a ha => ⟨value, object, hvalue, hobject, ha⟩)

variable [Base64Standard] [Jwt]

/-- The principal of a call of a tool: that of its bearer token, seen to be good, or none, and then
there is no token. -/
def CallerSeen (verifier : Option OidcVerifier) (headers : Headers) (past : List World) :
    Option Principal → Prop
  | some principal => ∃ v token, verifier = some v ∧ headers.bearerToken = some token
      ∧ Seen past fun w => v.verify token w.now.toNat = some principal
  | none => headers.containsKey "authorization" = false

omit [Sha256] [Hmac] [Base64Url] [JsonParser] [Base64Standard] in
theorem CallerSeen.mono {verifier : Option OidcVerifier} {headers : Headers} {past' : List World}
    {principal : Option Principal} (h : CallerSeen verifier headers past principal)
    (hsub : past ⊆ past') : CallerSeen verifier headers past' principal := by
  cases principal with
  | none => exact h
  | some principal =>
      obtain ⟨v, token, hverifier, htoken, hseen⟩ := h
      exact ⟨v, token, hverifier, htoken, hseen.mono hsub⟩

omit [JsonParser] [Base64Standard] in
theorem steps_resolveHttpBearerPrincipal {may : Effect → Prop} (h : may .nothing)
    (verifier : Option OidcVerifier) (headers : Headers) :
    (Mcp.resolveHttpBearerPrincipal verifier headers).Steps (Does may) := by
  unfold Mcp.resolveHttpBearerPrincipal
  split
  · trivial
  · split
    · refine Program.steps_bind (steps_currentUnixTime h) fun now => ?_
      split
      · trivial
      · trivial
    · trivial

omit [Sha256] [Hmac] [Base64Url] [JsonParser] [Base64Standard] in
theorem outcome?_resolveHttpBearerPrincipal {verifier : Option OidcVerifier} {headers : Headers}
    {met : List World} {principal : Option Principal}
    (h : (Mcp.resolveHttpBearerPrincipal verifier headers).outcome? met = some (.ok principal)) :
    CallerSeen verifier headers met principal := by
  unfold Mcp.resolveHttpBearerPrincipal at h
  split at h
  · rename_i hkey
    simp only [Program.outcome?_done] at h
    split at h
    · obtain rfl := Except.ok.inj (Option.some.inj h)
      exact hkey
    · exact absurd h (by simp)
  · split at h
    · rename_i token v htoken
      obtain ⟨first, rest, now, rfl, hfirst, hrest⟩ := Program.outcome?_bind h
      obtain ⟨w, rfl, rfl⟩ := outcome?_currentUnixTime hfirst
      cases hverify : v.verify token w.now.toNat with
      | none =>
          rw [hverify] at hrest
          exact absurd hrest (by simp)
      | some found =>
          rw [hverify] at hrest
          simp only [Program.pure_eq, Program.outcome?_done] at hrest
          split at hrest
          · obtain rfl := Except.ok.inj (Option.some.inj hrest)
            exact ⟨v, token, rfl, htoken,
              (seen_single hverify).mono (List.subset_append_left _ _)⟩
          · exact absurd hrest (by simp)
    · exact absurd h (by simp)

/-- What a call of a tool over HTTP may do once it has met these states. -/
def HttpToolWarrant (verifier : Option OidcVerifier) (headers : Headers)
    (given : Json.Object → Prop) (past : List World) (e : Effect) : Prop :=
  ∃ principal, (e = .nothing ∨ CallerSeen verifier headers past principal)
    ∧ ToolWarrant given principal past e

omit [JsonParser] [Jwt] in
theorem justified_dispatch (hnothing : ∀ past, W past .nothing) (bearerCapable : Bool)
    (headers : Headers) (object : Json.Object) (method : String) (principal : Option Principal)
    (hW : ∀ later e, ToolWarrant (Mcp.GivesTool object) principal (past ++ later) e →
      W (past ++ later) e) :
    (Mcp.dispatch bearerCapable headers object method principal).Justified (Justly W) past := by
  unfold Mcp.dispatch
  dsimp only
  split
  · split
    · trivial
    · trivial
    · split
      · trivial
      · split
        · trivial
        · unfold Mcp.modernMethod
          dsimp only
          split
          · trivial
          · trivial
          · refine Program.justified_bind (justified_toolCallResult hnothing object hW)
              fun _ result _ => ?_
            cases result with
            | error message => trivial
            | ok result => trivial
          · trivial
  · split
    · trivial
    · split
      · trivial
      · unfold Mcp.legacyMethod
        dsimp only
        split
        · trivial
        · trivial
        · trivial
        · refine Program.justified_bind (justified_toolCallResult hnothing object hW)
            fun _ result _ => ?_
          cases result with
          | error message => trivial
          | ok result => trivial
        · trivial

theorem justified_post [Mcp.UrlParser] (verifier : Option OidcVerifier) (headers : Headers)
    (body : Bytes) : (Mcp.post verifier headers body).Justified
      (Justly (HttpToolWarrant verifier headers (Mcp.TextGivesTool body))) past := by
  have hnothing : ∀ past, HttpToolWarrant verifier headers (Mcp.TextGivesTool body) past .nothing :=
    fun past => ⟨none, Or.inl rfl, Or.inl rfl⟩
  unfold Mcp.post
  split
  · trivial
  · split
    · trivial
    · split
      · trivial
      · rename_i value hvalue
        split
        · trivial
        · rename_i object hobject
          dsimp only
          split
          · trivial
          · split
            · split
              · trivial
              · trivial
            · unfold Mcp.postMethod
              refine justified_lookup hnothing
                (steps_resolveHttpBearerPrincipal onlyReads_nothing verifier headers)
                fun met found hfound => ?_
              cases found with
              | error e => trivial
              | ok principal =>
                  have hcaller := outcome?_resolveHttpBearerPrincipal hfound
                  dsimp only
                  refine justified_lookup hnothing ?_ fun met' gated _ => ?_
                  · split
                    · exact steps_httpToolCallBodyRequiresAuth onlyReads_nothing _
                    · trivial
                  · split
                    · trivial
                    · refine justified_dispatch hnothing _ headers object _ principal
                        fun later e he => ⟨principal, Or.inr ?_, he.imp fun a ha => ?_⟩
                      · exact hcaller.mono fun s hs => by simp [hs]
                      · exact ⟨value, object, hvalue, hobject, ha⟩

omit [JsonParser] [Base64Standard] in
theorem justified_mcpPost (verifier : Option OidcVerifier) (headers : Headers) (tool : Mcp.Tool)
    (arguments : Json.Object) : (Mcp.mcpPost verifier headers tool arguments).Justified
      (Justly (HttpToolWarrant verifier headers fun given => given = arguments)) past := by
  have hnothing : ∀ past, HttpToolWarrant verifier headers (fun given => given = arguments) past
      .nothing := fun past => ⟨none, Or.inl rfl, Or.inl rfl⟩
  unfold Mcp.mcpPost
  refine justified_lookup hnothing
    (steps_resolveHttpBearerPrincipal onlyReads_nothing verifier headers)
    fun met found hfound => ?_
  cases found with
  | error e => trivial
  | ok principal =>
      have hcaller := outcome?_resolveHttpBearerPrincipal hfound
      dsimp only
      refine justified_lookup hnothing ?_ fun met' gated _ => ?_
      · split
        · exact steps_httpToolCallRequiresAuth onlyReads_nothing tool arguments
        · trivial
      · split
        · trivial
        · split
          · exact justified_of_reads hnothing
              (steps_blackboardRead onlyReads_nothing arguments principal)
          · refine justified_blackboardWrite hnothing arguments
              fun later e he => ⟨principal, Or.inr ?_, he⟩
            exact hcaller.mono fun s hs => by simp [hs]

end Rpc

/-! ## Messages -/

section Messages

variable [Sha256] [Hmac] [Base64Url] [JsonParser] {past : List World}

/-- What `GET /w` may do once it has met these states. -/
def NavigationWarrant (participantId : String) (query' : Http.Query) (past : List World)
    (e : Effect) : Prop :=
  e = .nothing ∨ ∃ write writer, Http.parseNavigationWrite participantId query' = .ok write
    ∧ ProofSeen write past writer
    ∧ (e = .ensureChannel write.payload.channel (some writer.inst)
      ∨ e = .navigate writer write.payload)

/-- What a signed message may do. -/
def SignedWarrant (object : Json.Object) (past : List World) (e : Effect) : Prop :=
  e = .nothing ∨ ∃ write writer, Http.parseSignedMessage object = .ok write
    ∧ ProofSeen write past writer
    ∧ (e = .ensureChannel write.payload.channel (some writer.inst)
      ∨ e = .execute writer (Http.signedExecution write.payload))

/-- What a message of a session or a client may do. -/
def PlainWarrant (key : Bytes) (headers : Headers) (object : Json.Object) (past : List World)
    (e : Effect) : Prop :=
  e = .nothing ∨ ∃ who fields, (SessionSeen key headers past who ∨ TokenSeen headers past who)
    ∧ Http.messageFields Http.nameRe Http.kindRe object = .ok fields
    ∧ (e = .ensureChannel fields.channel (some who.inst) ∨ e = .insert who fields)

omit [JsonParser] in
theorem justified_navigationWrite (participantId : String) (query' : Http.Query) :
    (Http.navigationWrite participantId query').Justified
      (Justly (NavigationWarrant participantId query')) past := by
  unfold Http.navigationWrite
  cases hparse : Http.parseNavigationWrite participantId query' with
  | error e => trivial
  | ok write =>
      refine justified_lookup (fun _ => Or.inl rfl) (steps_query onlyReads_nothing _)
        fun met found hfound => ?_
      obtain ⟨w, rfl, hwriter⟩ := outcome?_query hfound
      cases found with
      | none => trivial
      | some writer =>
          refine justified_of_does (M := fun e => e = .nothing
            ∨ e = .ensureChannel write.payload.channel (some writer.inst)
            ∨ e = .navigate writer write.payload) ?_ fun later e he => ?_
          · refine Program.steps_bind (steps_ensureChannelForWrite (Or.inl rfl)
              (Or.inr (Or.inl rfl))) fun active => ?_
            split
            · exact Program.steps_bind (steps_statement (Or.inr (Or.inr rfl)) fun _ => rfl)
                fun _ => trivial
            · trivial
          · refine he.imp_right fun he => ⟨write, writer, hparse, ?_, he⟩
            exact (seen_single hwriter).mono fun s hs => by simp [List.mem_singleton.mp hs]

omit [JsonParser] in
theorem justified_postSignedMessage (object : Json.Object) :
    (Http.postSignedMessage object).Justified (Justly (SignedWarrant object)) past := by
  unfold Http.postSignedMessage
  cases hparse : Http.parseSignedMessage object with
  | error e => trivial
  | ok write =>
      refine justified_lookup (fun _ => Or.inl rfl) (steps_query onlyReads_nothing _)
        fun met found hfound => ?_
      obtain ⟨w, rfl, hwriter⟩ := outcome?_query hfound
      cases found with
      | none => trivial
      | some writer =>
          refine justified_of_does (M := fun e => e = .nothing
            ∨ e = .ensureChannel write.payload.channel (some writer.inst)
            ∨ e = .execute writer (Http.signedExecution write.payload)) ?_ fun later e he => ?_
          · refine Program.steps_bind (steps_ensureChannelForWrite (Or.inl rfl)
              (Or.inr (Or.inl rfl))) fun active => ?_
            split
            · exact Program.steps_bind (steps_statement (Or.inr (Or.inr rfl)) fun _ => rfl)
                fun _ => trivial
            · trivial
          · refine he.imp_right fun he => ⟨write, writer, hparse, ?_, he⟩
            exact (seen_single hwriter).mono fun s hs => by simp [List.mem_singleton.mp hs]

theorem justified_postPlainMessage (key : Bytes) (headers : Headers) (object : Json.Object) :
    (Http.postPlainMessage key headers object).Justified
      (Justly (PlainWarrant key headers object)) past := by
  unfold Http.postPlainMessage
  refine justified_lookup (fun _ => Or.inl rfl)
    (steps_resolveRequestIdentity onlyReads_nothing key headers) fun met found hfound => ?_
  cases found with
  | none => trivial
  | some who =>
      have hseen : SessionSeen key headers met who ∨ TokenSeen headers met who :=
        (outcome?_resolveRequestIdentity hfound).imp And.right And.right
      dsimp only
      cases hfields : Http.messageFields Http.nameRe Http.kindRe object with
      | error e => trivial
      | ok fields =>
          refine justified_of_does (M := fun e => e = .nothing
            ∨ e = .ensureChannel fields.channel (some who.inst) ∨ e = .insert who fields)
            ?_ fun later e he => ?_
          · have happend : (Http.appendChecked who fields).Steps (Does fun e => e = .nothing
                ∨ e = .ensureChannel fields.channel (some who.inst) ∨ e = .insert who fields) :=
              steps_appendChecked (Or.inl rfl) (Or.inr (Or.inl rfl)) (Or.inr (Or.inr rfl))
            dsimp only
            cases fields.replyTo with
            | none => exact happend
            | some target =>
                refine Program.steps_bind (steps_query (Or.inl rfl) _) fun found => ?_
                split
                · exact happend
                · trivial
          · have hsub : met ⊆ (past ++ met) ++ later := fun s hs => by simp [hs]
            exact he.imp_right fun he =>
              ⟨who, fields, hseen.imp (·.mono hsub) (·.mono hsub), hfields, he⟩

/-- What `POST /api/messages` may do. -/
def MessageWarrant (key : Bytes) (headers : Headers) (body : Bytes) (past : List World)
    (e : Effect) : Prop :=
  ∃ object, e = .nothing ∨ Http.readJsonObject body = .ok object
    ∧ (SignedWarrant object past e ∨ PlainWarrant key headers object past e)

theorem justified_postMessage (key : Bytes) (headers : Headers) (body : Bytes) :
    (Http.postMessage key headers body).Justified (Justly (MessageWarrant key headers body))
      past := by
  unfold Http.postMessage
  refine justified_lookup (fun _ => ⟨[], Or.inl rfl⟩)
    (steps_verifiedWebSession onlyReads_nothing key headers) fun met session _ => ?_
  split
  · trivial
  · cases hparsed : Http.readJsonObject body with
    | error e => trivial
    | ok object =>
        dsimp only
        split
        · trivial
        · split
          · refine (justified_postSignedMessage object).mono fun past s s' h => h.mono fun e he => ?_
            exact ⟨object, Or.inr ⟨hparsed, Or.inl he⟩⟩
          · refine (justified_postPlainMessage key headers object).mono fun past s s' h =>
              h.mono fun e he => ?_
            exact ⟨object, Or.inr ⟨hparsed, Or.inr he⟩⟩

/-- What a delivery of the webhook may do. -/
def DeliveryWarrant (settings : GithubWebhook.Settings) (headers : Headers) (body : Bytes)
    (past : List World) (e : Effect) : Prop :=
  e = .nothing ∨ ∃ d writer, GithubWebhook.parseDelivery settings headers body = .ok d
    ∧ (Seen past fun w => getWebParticipant w.db d.participantId = some writer)
    ∧ e = .execute writer (GithubWebhook.execution d)

theorem justified_githubIssueWebhook (settings : GithubWebhook.Settings) (headers : Headers)
    (body : Bytes) : (GithubWebhook.githubIssueWebhook settings headers body).Justified
      (Justly (DeliveryWarrant settings headers body)) past := by
  unfold GithubWebhook.githubIssueWebhook
  cases hparse : GithubWebhook.parseDelivery settings headers body with
  | error e => trivial
  | ok d =>
      refine justified_lookup (fun _ => Or.inl rfl) (steps_query onlyReads_nothing _)
        fun met found hfound => ?_
      obtain ⟨w, rfl, hwho⟩ := outcome?_query hfound
      cases found with
      | none => trivial
      | some writer =>
          refine justified_of_does (M := fun e => e = .execute writer (GithubWebhook.execution d))
            (Program.steps_bind (steps_statement rfl fun _ => rfl) fun _ => trivial)
            fun later e he => Or.inr ⟨d, writer, hparse, ?_, he⟩
          exact (seen_single hwho).mono fun s hs => by simp [List.mem_singleton.mp hs]

variable [Jwt]

/-- What a message with a bearer token may do. -/
def BearerWarrant (verifier : Option OidcVerifier) (participantId : String) (headers : Headers)
    (body : Bytes) (past : List World) (e : Effect) : Prop :=
  e = .nothing ∨ ∃ principal fields intentId named writer,
    CallerSeen verifier headers past (some principal)
    ∧ (Oidc.readJsonObject body).bind Oidc.parseMessage = .ok (fields, intentId)
    ∧ validateParticipantId participantId = some named
    ∧ (Seen past fun w => getWebParticipant w.db named = some writer)
    ∧ e = .execute writer (Oidc.execution principal
        { fields with participantId := named, nonce := intentId })

theorem justified_oidcPost (verifier : OidcVerifier) (participantId : String) (headers : Headers)
    (body : Bytes) : (Oidc.postMessage verifier participantId headers body).Justified
      (Justly (BearerWarrant (some verifier) participantId headers body)) past := by
  unfold Oidc.postMessage
  cases hnamed : validateParticipantId participantId with
  | none => trivial
  | some named =>
      dsimp only
      cases htoken : headers.bearerToken with
      | none => trivial
      | some token =>
          -- the clock is met first, then the participant
          refine justified_lookup (fun _ => Or.inl rfl) (steps_currentUnixTime onlyReads_nothing)
            fun first now hnow => ?_
          obtain ⟨w, rfl, rfl⟩ := outcome?_currentUnixTime hnow
          cases hverify : verifier.verify token w.now.toNat with
          | none => trivial
          | some principal =>
              dsimp only
              cases hparse : (Oidc.readJsonObject body).bind Oidc.parseMessage with
              | error e => trivial
              | ok parsed =>
                  obtain ⟨fields, intentId⟩ := parsed
                  refine justified_lookup (fun _ => Or.inl rfl) (steps_query onlyReads_nothing _)
                    fun met found hfound => ?_
                  obtain ⟨s, rfl, hwho⟩ := outcome?_query hfound
                  cases found with
                  | none => trivial
                  | some writer =>
                      refine justified_of_does (M := fun e => e = .execute writer
                        (Oidc.execution principal
                          { fields with participantId := named, nonce := intentId }))
                        (Program.steps_bind (steps_statement rfl fun _ => rfl) fun _ => trivial)
                        fun later e he => Or.inr ⟨principal, fields, intentId, named, writer,
                          ⟨verifier, token, rfl, htoken, ?_⟩, hparse, hnamed, ?_, he⟩
                      · exact (seen_single hverify).mono fun s hs => by
                          simp [List.mem_singleton.mp hs]
                      · exact (seen_single hwho).mono fun s hs => by
                          simp [List.mem_singleton.mp hs]

end Messages

/-! ## Administration -/

section Admin

variable [Sha256] [Hmac] [Base64Url] [JsonParser] {past : List World}

/-- What a route of the access API may do once it has met these states. -/
def GrantWarrant (key : Bytes) (headers : Headers) (route : AccessApi.Route) (past : List World)
    (e : Effect) : Prop :=
  e = .nothing ∨ ∃ who caller op, Administrator key headers past who caller
    ∧ route.grantOp caller who.inst = some op ∧ e = .grant op

theorem justified_serveRoute (key : Bytes) (headers : Headers) (requestTarget : String)
    (route : AccessApi.Route) :
    (AccessApi.serveRoute key headers requestTarget route).Justified
      (Justly (GrantWarrant key headers route)) past := by
  unfold AccessApi.serveRoute
  refine justified_lookup (fun _ => Or.inl rfl)
    (steps_requireIdentityForTarget onlyReads_nothing key headers route.method requestTarget)
    fun met found hfound => ?_
  cases found with
  | error e => trivial
  | ok who =>
      refine justified_of_does (M := fun e => e = .nothing
        ∨ (AccessApi.principalForHeaders headers who).provider ≠ "participant-hmac"
          ∧ ∃ op, route.grantOp (AccessApi.principalForHeaders headers who) who.inst = some op
            ∧ e = .grant op)
        (steps_handle (Or.inl rfl) route who _ fun op hprovider hop =>
          Or.inr ⟨hprovider, op, hop, rfl⟩) fun later e he => ?_
      refine he.imp_right fun he => ?_
      obtain ⟨hprovider, op, hop, he⟩ := he
      exact ⟨who, _, op, (administrator_of_outcome hfound hprovider).mono fun s hs => by simp [hs],
        hop, he⟩

/-- What a route of the administrators of channels may do. -/
def ChannelWarrant (key : Bytes) (headers : Headers) (route : Http.AdminRoute)
    (past : List World) (e : Effect) : Prop :=
  e = .nothing ∨ ∃ who op, SessionSeen key headers past who
    ∧ (Seen past fun w => getWebParticipantRole w.db who.inst = some "admin")
    ∧ route.channelOp who = some op ∧ e = .channel op

theorem justified_serveAdmin (key : Bytes) (headers : Headers) (route : Http.AdminRoute) :
    (Http.serveAdmin key headers route).Justified (Justly (ChannelWarrant key headers route))
      past := by
  unfold Http.serveAdmin
  refine justified_lookup (fun _ => Or.inl rfl)
    (steps_requireHumanAdmin onlyReads_nothing key headers) fun met found hfound => ?_
  cases found with
  | error e => trivial
  | ok who =>
      obtain ⟨hsession, hrole⟩ := outcome?_requireHumanAdmin hfound
      refine justified_of_does (M := fun e => e = .nothing
        ∨ ∃ op, route.channelOp who = some op ∧ e = .channel op)
        (steps_adminHandle (Or.inl rfl) who route fun op hop => Or.inr ⟨op, hop, rfl⟩)
        fun later e he => he.imp_right fun he => ?_
      obtain ⟨op, hop, he⟩ := he
      have hsub : met ⊆ (past ++ met) ++ later := fun s hs => by simp [hs]
      exact ⟨who, op, hsession.mono hsub, hrole.mono hsub, hop, he⟩

end Admin

/-! ## Calls -/

section Calls

variable [Sha256] [Hmac] [Base64Url] [JsonParser] [Base64Standard] [Jwt] [Mcp.UrlParser]

omit [Base64Standard] [Mcp.UrlParser] in
/-- What a call may do once it has met these states. -/
def Runtime.Call.Warrants (settings : Settings) (past : List World) :
    Runtime.Call → Effect → Prop
  | board (.navigationWrite participantId query'), e =>
      NavigationWarrant participantId query' past e
  | board (.postMessage headers body), e => MessageWarrant settings.sessionKey headers body past e
  | board (.mcp headers _ arguments), e =>
      HttpToolWarrant settings.oidcVerifier headers (fun given => given = arguments) past e
  | mcp headers body, e =>
      HttpToolWarrant settings.oidcVerifier headers (Mcp.TextGivesTool body) past e
  | board (.oidc participantId headers body), e =>
      BearerWarrant settings.oidcVerifier participantId headers body past e
  | board (.github headers body), e => DeliveryWarrant settings.github headers body past e
  | board r, e => r.May settings e
  | access headers _ route, e => GrantWarrant settings.sessionKey headers route past e
  | admin headers route, e => ChannelWarrant settings.sessionKey headers route past e
  | whoami _, e | authGuest, e => e = .nothing
  | stdio lines, e => ∃ line, (e = .nothing ∨ line ∈ lines)
      ∧ ToolWarrant (Mcp.TextGivesTool (Text.utf8 line)) none past e

/-- **Every transaction of a call is warranted by what the call has met.** -/
theorem call_justified (settings : Settings) (c : Runtime.Call) :
    (Runtime.serve settings c).Justified
      (Justly fun past => Runtime.Call.Warrants settings past c) [] := by
  cases c with
  | board r =>
      refine Program.justified_bind ?_ fun _ _ _ => trivial
      cases r with
      | navigationWrite participantId query' =>
          exact justified_navigationWrite participantId query'
      | postMessage headers body => exact justified_postMessage _ headers body
      | mcp headers tool arguments => exact justified_mcpPost _ headers tool arguments
      | oidc participantId headers body =>
          unfold Blackboard.serve
          cases hverifier : settings.oidcVerifier with
          | none => trivial
          | some verifier =>
              refine (justified_oidcPost verifier participantId headers body).mono
                fun past s s' h => h.mono fun e he => ?_
              unfold Runtime.Call.Warrants
              rw [hverifier]
              exact he
      | github headers body => exact justified_githubIssueWebhook settings.github headers body
      | _ => exact justified_of_does (serve_steps settings _) fun _ _ he => he
  | access headers requestTarget route =>
      exact Program.justified_bind (justified_serveRoute _ headers requestTarget route)
        fun _ _ _ => trivial
  | admin headers route =>
      exact Program.justified_bind (justified_serveAdmin _ headers route) fun _ _ _ => trivial
  | whoami headers =>
      refine Program.justified_bind (justified_of_reads ?_
        (steps_whoami onlyReads_nothing _ headers)) fun _ _ _ => trivial
      exact fun _ => onlyReads_nothing
  | authGuest =>
      refine Program.justified_bind (Program.justified_bind (justified_of_reads ?_
        (steps_currentUnixTime onlyReads_nothing)) fun _ _ _ => trivial) fun _ _ _ => trivial
      exact fun _ => onlyReads_nothing
  | mcp headers body =>
      exact Program.justified_bind (justified_post _ headers body) fun _ _ _ => trivial
  | stdio lines =>
      refine Program.justified_bind (justified_serveStdio (fun _ => ?_) lines
        fun line hline _ _ he => ?_) fun _ _ _ => trivial
      · exact ⟨"", Or.inl rfl, Or.inl rfl⟩
      · exact ⟨line, Or.inr hline, he⟩

end Calls

end Blackboard
