import Blackboard.Proof.GuestReads
import Blackboard.Proof.Mediation
import Blackboard.Proof.Sessions
import Blackboard.Proof.Totp

/-!
# Participants that are inactive

Every credential of a participant but one is checked together with the participant's status:
a code, a proof and a delivery are refused once the participant is inactive, and an
execution asks again in the transaction that inserts. A session is not: the participant it
names is looked up, whatever its status. And a request that was told its participant is
active goes on, even if that changes before it inserts or reads. Apart from these two a
deactivated participant writes nothing and reads nothing (`deactivated`).
-/

namespace Blackboard

open Relational (Table)
open Concurrent (Program)

/-- The participant is there and is not active. -/
def Inactive (participantId : String) (w : World) : Prop :=
  ∃ row, w.db.webParticipants.find participantId = some row ∧ row.status ≠ "active"

variable {p : String} {w : World}

/-! ## Look-ups -/

theorem Inactive.auth (h : Inactive p w) : getWebParticipantAuth w.db p = none := by
  obtain ⟨row, hrow, hstatus⟩ := h
  cases hrecord : getWebParticipantAuth w.db p with
  | none => rfl
  | some record =>
      obtain ⟨row', hrow', hactive, -, -⟩ := getWebParticipantAuth_eq_some hrecord
      obtain rfl := Option.some.inj (hrow.symm.trans hrow')
      exact absurd hactive hstatus

/-- The kernel allows nothing for an inactive participant. -/
theorem Inactive.denied (h : Inactive p w) (q : AccessRequest) (hq : q.participantId = p)
    (now : Int) : (q.decision now w.db).allowed = false := by
  rw [← Bool.not_eq_true]
  intro hallowed
  obtain ⟨⟨row', hrow', hid, hactive⟩, -⟩ := grounds_of_allowed hallowed
  obtain ⟨row, hrow, hstatus⟩ := h
  have hfound : w.db.webParticipants.find p = some row' := by
    rw [← hq, ← hid]
    exact Table.find_of_mem hrow'
  obtain rfl := Option.some.inj (hrow.symm.trans hfound)
  exact hstatus hactive

section Signed

variable [Hmac] [Base64Url]

theorem Inactive.signedWriter (h : Inactive p w) {write : Http.SignedWrite}
    (hwrite : write.payload.participantId = p) : Http.signedWriter w.db write = none := by
  unfold Http.signedWriter
  rw [hwrite, h.auth]

theorem Inactive.signedIdentity (h : Inactive p w) (proof method requestTarget : String) :
    RequestAuth.signedIdentity w.db p proof method requestTarget = none := by
  unfold RequestAuth.signedIdentity
  rw [h.auth]

theorem Inactive.readVerified (h : Inactive p w) (proof : String) (a : Mcp.ReadArguments) :
    Mcp.readVerified w.db p proof a = false := by
  unfold Mcp.readVerified
  rw [h.auth]

end Signed

/-! ## What is barred -/

/-- Nothing is written as the participant. -/
def NothingBy (p : String) (w w' : World) : Prop :=
  ∀ m ∈ w'.db.messages, m ∉ w.db.messages → m.inst ≠ p

theorem NothingBy.of_messages {w' : World} (h : w'.db.messages = w.db.messages) :
    NothingBy p w w' := by
  intro m hm hnew
  rw [h] at hm
  exact absurd hm hnew

/-- As long as the participant is inactive, the request writes nothing as it and is told no
message. -/
structure Barred (p : String) (prog : Program World Response) : Prop where
  within : prog.Within (Inactive p) (NothingBy p) fun r => r.messages = []

theorem barred_done {r : Response} (h : r.messages = []) : Barred p (.done r) := ⟨h⟩

/-- A first part that may be told who it is for. -/
theorem barred_bind {α : Type} {prog : Program World α} {k : α → Program World Response}
    {Q : α → Prop} (hprog : prog.Within (Inactive p) (NothingBy p) Q)
    (hk : ∀ a, Q a → Barred p (k a)) : Barred p (prog >>= k) :=
  ⟨Program.within_bind hprog fun a ha => (hk a ha).within⟩

theorem within_query {α : Type} {q : Database → α} {Q : α → Prop}
    (h : ∀ w, Inactive p w → Q (q w.db)) : (query q).Within (Inactive p) (NothingBy p) Q :=
  fun s hs => ⟨NothingBy.of_messages rfl, h s hs⟩

section Server

variable [Sha256] [Hmac] [Base64Url]

/-- What only reads writes nothing as anybody. -/
theorem within_of_reads {α : Type} {prog : Program World α} {Q : α → Prop}
    (h : prog.Within (fun _ => True) (Does fun e => e = .nothing) Q) :
    prog.Within (Inactive p) (NothingBy p) Q := by
  refine (h.anti fun _ _ => trivial).mono (fun s s' hdoes => ?_) fun _ ha => ha
  obtain ⟨e, rfl, rfl⟩ := hdoes
  exact NothingBy.of_messages rfl

theorem within_of_nothing {α : Type} {prog : Program World α}
    (h : prog.Steps (Does fun e => e = .nothing)) :
    prog.Within (Inactive p) (NothingBy p) fun _ => True :=
  within_of_reads (Program.within_of_steps h)

omit [Hmac] [Base64Url] in
/-- **An execution for an inactive participant does nothing.** -/
theorem barred_execute {writer : Identity} {request : MessageExecutionRequest}
    {reply : Except SqlError MessageExecutionResult → Response}
    (hp : request.intent.participantId = p)
    (hreply : ∀ r, (∀ m, r ≠ .ok (.created m) ∧ r ≠ .ok (.existing m)) →
      (reply r).messages = []) :
    Barred p (do
      let result ← statement fun now db => executeMessageIntent now writer request db
      return reply result) := by
  refine ⟨fun s hs => ?_⟩
  have hdenied : (executionDecision s.now s.db request).allowed = false :=
    hs.denied ⟨request.authority.principal, request.intent.participantId,
      request.intent.capability, some request.intent.resource, some request.intent.intentId⟩
      hp s.now
  rcases executeMessageIntent_cases s.now writer request s.db with
    ⟨m, -, hf⟩ | ⟨m, -, hr⟩ | ⟨hdb, hanswer⟩
  · rw [hf.toAccepted.allowed] at hdenied
    exact absurd hdenied (by simp)
  · rw [hr.toAccepted.allowed] at hdenied
    exact absurd hdenied (by simp)
  · exact ⟨NothingBy.of_messages (congrArg Database.messages hdb), hreply _ hanswer⟩

/-! ## Who presents a credential -/

variable [JsonParser]

/-- A human session of the participant, good at some time. -/
def Headers.BearsSession (headers : Headers) (key : Bytes) (p : String) : Prop :=
  ∃ now session, sessionAt key headers now = some session ∧ session.sessionType = .humanWeb
    ∧ session.participantId = p

/-- The proof of a read is the participant's. -/
def Headers.SignsAs (headers : Headers) (p : String) : Prop :=
  headers.containsKey WebAuth.webSessionHeader = false
    ∧ headers.text RequestAuth.participantIdHeader = some p

/-- The request relies on a session of the participant. -/
def Request.BySession (settings : Settings) (p : String) : Request → Prop
  | .messages headers .. | .channels headers .. | .messageWindow headers .. =>
      headers.BearsSession settings.sessionKey p
  | .postMessage headers body => headers.BearsSession settings.sessionKey p
      ∧ ¬ Request.Executes (.postMessage headers body)
  | _ => False

def Mcp.readParticipant (arguments : Json.Object) : Option String :=
  ((arguments.get "participant_id").bind Json.Value.asStr).bind validateParticipantId

/-- The request relies on a credential of the participant, or on one that is bound to it. -/
def Request.Presents (settings : Settings) (p : String) (r : Request) : Prop :=
  r.BySession settings p
    ∨ (∃ write, r.carries = some write ∧ write.participantId = p)
    ∨ match r with
      | .authTotp body => ∃ object, Http.readJsonObject body = .ok object
          ∧ ((object.get "participant_id").bind Json.Value.asStr).bind validateParticipantId
            = some p
      | .messages headers .. | .channels headers .. | .messageWindow headers .. =>
          headers.SignsAs p
      | .mcp _ .blackboardRead arguments => Mcp.readParticipant arguments = some p
      | .oidc participantId .. => validateParticipantId participantId = some p
      | .github headers body =>
          ∃ d, GithubWebhook.parseDelivery settings.github headers body = .ok d
            ∧ d.participantId = p
      | _ => False

/-! ## The routes -/

section Reading

variable {key : Bytes} {headers : Headers}

omit [Sha256] in
theorem verifiedWebSession_of_signsAs (h : headers.SignsAs p) :
    RequestAuth.verifiedWebSession key headers = .done none := by
  unfold RequestAuth.verifiedWebSession
  rw [text_of_containsKey_false h.1]

theorem within_resolveRequestIdentityForTarget (h : headers.SignsAs p)
    (method requestTarget : String) :
    (RequestAuth.resolveRequestIdentityForTarget key headers method requestTarget).Within
      (Inactive p) (NothingBy p) fun who => who = none := by
  obtain ⟨hsession, hname⟩ := h
  have hkey := containsKey_of_text hname
  unfold RequestAuth.resolveRequestIdentityForTarget
  split
  · unfold RequestAuth.resolveRequestIdentity
    rw [if_neg (by simp [hsession]), if_pos (Or.inl hkey)]
    exact rfl
  · rw [if_neg (by simp [hsession]), hname]
    split
    · rename_i hid _ _
      rw [Option.some.injEq] at hid
      split
      · exact rfl
      · rw [← hid]
        exact within_query fun s hs => hs.signedIdentity _ _ _
    · exact rfl

theorem within_requireReadAccessForTarget (h : headers.SignsAs p)
    (method requestTarget : String) :
    (Http.requireReadAccessForTarget key headers method requestTarget).Within
      (Inactive p) (NothingBy p) fun r => r = .error .unauthorized := by
  unfold Http.requireReadAccessForTarget
  rw [verifiedWebSession_of_signsAs h, Program.done_bind]
  refine Program.within_bind (within_resolveRequestIdentityForTarget h method requestTarget)
    fun who hwho => ?_
  rw [hwho]
  exact rfl

theorem barred_messages (h : headers.SignsAs p) (requestTarget : String) (query' : Http.Query) :
    Barred p (Http.messages key headers requestTarget query') := by
  unfold Http.messages
  refine barred_bind (within_requireReadAccessForTarget h "GET" requestTarget) fun r hr => ?_
  rw [hr]
  exact barred_done rfl

theorem barred_channels (h : headers.SignsAs p) (requestTarget : String) (query' : Http.Query) :
    Barred p (Http.channels key headers requestTarget query') := by
  unfold Http.channels
  refine barred_bind (within_requireReadAccessForTarget h "GET" requestTarget) fun r hr => ?_
  rw [hr]
  exact barred_done rfl

theorem barred_messageWindow (h : headers.SignsAs p) (requestTarget : String)
    (q : History.MessageWindowQuery) :
    Barred p (History.messageWindow key headers requestTarget q) := by
  unfold History.messageWindow
  cases History.parseWindow q with
  | error e => exact barred_done rfl
  | ok window =>
      obtain ⟨order, limit⟩ := window
      dsimp only
      rw [verifiedWebSession_of_signsAs h, Program.done_bind]
      refine barred_bind (within_resolveRequestIdentityForTarget h "GET" requestTarget)
        fun who hwho => ?_
      rw [hwho]
      exact barred_done rfl

end Reading

theorem barred_authTotp (key body : Bytes) : Barred p (Http.authTotp key body) := by
  have hclock : (RequestAuth.currentUnixTime).Within (Inactive p) (NothingBy p) fun _ => True :=
    within_of_nothing (steps_currentUnixTime rfl)
  unfold Http.authTotp
  split
  · exact barred_done rfl
  · split
    · exact barred_done rfl
    · split
      · exact barred_done rfl
      · exact barred_done rfl
      · rename_i participantId code _ _
        refine barred_bind hclock fun now _ => ?_
        have hlogin : (statement fun _ db => authenticateWebTotp participantId code now db).Within
            (Inactive p) (NothingBy p) fun _ => True := by
          intro s _
          obtain ⟨webParticipants, hdb⟩ := authenticateWebTotp_edited participantId code now s.db
          refine ⟨NothingBy.of_messages ?_, trivial⟩
          simp only [hdb]
        refine barred_bind hlogin fun result _ => ?_
        split
        · exact barred_done rfl
        · exact barred_done rfl
        · have hrole : (query fun db => getWebParticipantRole db participantId).Within (Inactive p)
              (NothingBy p) fun _ => True := within_query fun _ _ => trivial
          refine barred_bind hrole fun role _ => ?_
          exact barred_bind hclock fun _ _ => barred_done rfl

theorem barred_navigationWrite {participantId : String} {query' : Http.Query}
    (h : ∃ write, (Request.navigationWrite participantId query').carries = some write
      ∧ write.participantId = p) : Barred p (Http.navigationWrite participantId query') := by
  obtain ⟨write, hcarries, hp⟩ := h
  unfold Http.navigationWrite
  cases hparse : Http.parseNavigationWrite participantId query' with
  | error e => exact barred_done rfl
  | ok w =>
      have hw : w.payload = write := by
        simp only [Request.carries, hparse] at hcarries
        exact Option.some.inj hcarries
      rw [← hw] at hp
      refine barred_bind (within_query (Q := fun r => r = none) fun s hs => hs.signedWriter hp)
        fun writer hwriter => ?_
      rw [hwriter]
      exact barred_done rfl

omit [JsonParser] in
theorem barred_postSignedMessage {object : Json.Object}
    (h : ∀ w, Http.parseSignedMessage object = .ok w → w.payload.participantId = p) :
    Barred p (Http.postSignedMessage object) := by
  unfold Http.postSignedMessage
  cases hparse : Http.parseSignedMessage object with
  | error e => exact barred_done rfl
  | ok w =>
      refine barred_bind
        (within_query (Q := fun r => r = none) fun s hs => hs.signedWriter (h w hparse))
        fun writer hwriter => ?_
      rw [hwriter]
      exact barred_done rfl

theorem barred_postMessage {key : Bytes} {headers : Headers} {body : Bytes}
    (h : ∃ write, (Request.postMessage headers body).carries = some write
      ∧ write.participantId = p) : Barred p (Http.postMessage key headers body) := by
  obtain ⟨write, hcarries, hp⟩ := h
  have hsession : (RequestAuth.verifiedWebSession key headers).Steps
      (Does fun e => e = .nothing) :=
    @steps_verifiedWebSession _ _ _ _ (fun e => e = .nothing) rfl key headers
  unfold Http.postMessage
  refine barred_bind (within_of_nothing hsession) fun session _ => ?_
  split
  · exact barred_done rfl
  · simp only [Request.carries] at hcarries
    cases hread : Http.readJsonObject body with
    | error e => exact barred_done rfl
    | ok object =>
        rw [hread] at hcarries
        dsimp only at hcarries ⊢
        split
        · exact barred_done rfl
        · split
          · rename_i hsigned
            rw [if_pos hsigned] at hcarries
            refine barred_postSignedMessage fun w hparse => ?_
            rw [hparse] at hcarries
            rw [show w.payload = write from Option.some.inj hcarries]
            exact hp
          · rename_i hplain
            rw [if_neg hplain] at hcarries
            exact absurd hcarries (by simp)

section Mcp

variable {arguments : Json.Object} {principal : Option Principal}

omit [Sha256] [JsonParser] in
theorem barred_blackboardRead (h : Mcp.readParticipant arguments = some p) :
    Barred p (Mcp.blackboardRead arguments principal) := by
  unfold Mcp.blackboardRead
  cases Mcp.parseRead arguments with
  | error code => exact barred_done rfl
  | ok a =>
      have hnamed : ((arguments.get "participant_id").bind Json.Value.asStr).isSome = true := by
        unfold Mcp.readParticipant at h
        obtain ⟨value, hvalue, -⟩ := Option.bind_eq_some_iff.mp h
        rw [hvalue]
        rfl
      have hvalid : ((arguments.get "participant_id").bind Json.Value.asStr).bind
          validateParticipantId = some p := h
      dsimp only
      rw [if_pos (Or.inl hnamed), hvalid]
      dsimp only
      cases principal with
      | some principal =>
          have hauthorize : (statement fun now db =>
              (authorize now db principal p readMessages (some a.channel), db)).Within
              (Inactive p) (NothingBy p) fun allowed => allowed = false := by
            intro s hs
            refine ⟨NothingBy.of_messages rfl, ?_⟩
            exact hs.denied ⟨principal, p, readMessages, some a.channel, none⟩ rfl s.now
          refine barred_bind hauthorize fun allowed hallowed => ?_
          rw [hallowed]
          exact barred_done rfl
      | none =>
          dsimp only
          cases Mcp.parseAuth arguments with
          | error code => exact barred_done rfl
          | ok proof =>
              refine barred_bind (within_query (Q := fun r => r = false) fun s hs =>
                hs.readVerified proof a) fun verified hverified => ?_
              rw [hverified]
              exact barred_done rfl

omit [JsonParser] in
theorem barred_blackboardWrite {w : Http.WritePayload} (hparse : Mcp.parseWrite arguments = .ok w)
    (hp : w.participantId = p) : Barred p (Mcp.blackboardWrite arguments principal) := by
  unfold Mcp.blackboardWrite
  rw [hparse]
  have hreads := @within_resolveWriteIdentity _ _ _ (fun e => e = .nothing) rfl arguments w principal
  refine barred_bind (within_of_reads hreads) fun who _ => ?_
  cases who with
  | error code => exact barred_done rfl
  | ok writer =>
      refine barred_execute ?_ ?_
      · cases principal with
        | none => exact hp
        | some principal => exact hp
      · intro r hr
        cases r with
        | error e => rfl
        | ok result =>
            cases result with
            | created m => exact absurd rfl (hr m).1
            | existing m => exact absurd rfl (hr m).2
            | _ => rfl

variable [Jwt]

omit [JsonParser] in
theorem barred_mcpPost {verifier : Option OidcVerifier} {headers : Headers} {tool : Mcp.Tool}
    (hread : tool = .blackboardRead →
      ∀ principal, Barred p (Mcp.blackboardRead arguments principal))
    (hwrite : tool = .blackboardWrite →
      ∀ principal, Barred p (Mcp.blackboardWrite arguments principal)) :
    Barred p (Mcp.mcpPost verifier headers tool arguments) := by
  have hbearer := @within_resolveHttpBearerPrincipal _ _ _ _ (fun e => e = .nothing) rfl verifier
    headers
  have hgate := @steps_httpToolCallRequiresAuth _ _ _ (fun e => e = .nothing) rfl tool arguments
  unfold Mcp.mcpPost
  refine barred_bind (within_of_reads hbearer) fun principal _ => ?_
  cases principal with
  | error e => exact barred_done rfl
  | ok principal =>
      dsimp only
      have hrefuse : (if verifier.isSome = true ∧ principal.isNone = true then
          Mcp.httpToolCallRequiresAuth tool arguments else .done false).Within (Inactive p)
          (NothingBy p) fun _ => True := by
        split
        · exact within_of_nothing hgate
        · exact trivial
      refine barred_bind hrefuse fun refuse _ => ?_
      split
      · exact barred_done rfl
      · cases tool with
        | blackboardRead => exact hread rfl principal
        | blackboardWrite => exact hwrite rfl principal

end Mcp

variable [Jwt]

omit [Hmac] [Base64Url] in
theorem barred_oidcPost {verifier : OidcVerifier} {participantId : String} {headers : Headers}
    {body : Bytes} (hp : validateParticipantId participantId = some p) :
    Barred p (Oidc.postMessage verifier participantId headers body) := by
  have hclock : (RequestAuth.currentUnixTime).Within (Inactive p) (NothingBy p) fun _ => True :=
    fun s _ => ⟨NothingBy.of_messages rfl, trivial⟩
  unfold Oidc.postMessage
  rw [hp]
  dsimp only
  cases headers.bearerToken with
  | none => exact barred_done rfl
  | some token =>
      refine barred_bind hclock fun now _ => ?_
      cases verifier.verify token now with
      | none => exact barred_done rfl
      | some principal =>
          dsimp only
          cases (Oidc.readJsonObject body).bind Oidc.parseMessage with
          | error e => exact barred_done rfl
          | ok parsed =>
              obtain ⟨fields, intentId⟩ := parsed
              have hwho : (query fun db => getWebParticipant db p).Within (Inactive p)
                  (NothingBy p) fun _ => True := within_query fun _ _ => trivial
              refine barred_bind hwho fun who _ => ?_
              cases who with
              | none => exact barred_done rfl
              | some writer =>
                  refine barred_execute rfl ?_
                  intro r hr
                  cases r with
                  | error e => rfl
                  | ok result =>
                      cases result with
                      | created m => exact absurd rfl (hr m).1
                      | existing m => exact absurd rfl (hr m).2
                      | _ => rfl

omit [Base64Url] [Jwt] in
theorem barred_githubIssueWebhook {settings : GithubWebhook.Settings} {headers : Headers}
    {body : Bytes} {d : GithubWebhook.IssueDelivery}
    (hparse : GithubWebhook.parseDelivery settings headers body = .ok d)
    (hp : d.participantId = p) :
    Barred p (GithubWebhook.githubIssueWebhook settings headers body) := by
  unfold GithubWebhook.githubIssueWebhook
  rw [hparse]
  have hwho : (query fun db => getWebParticipant db d.participantId).Within (Inactive p)
      (NothingBy p) fun _ => True := within_query fun _ _ => trivial
  refine barred_bind hwho fun who _ => ?_
  cases who with
  | none => exact barred_done rfl
  | some writer =>
      refine barred_execute hp ?_
      intro r hr
      cases r with
      | error e =>
          cases e with
          | _ => rfl
      | ok result =>
          cases result with
          | created m => exact absurd rfl (hr m).1
          | existing m => exact absurd rfl (hr m).2
          | _ => rfl

/-- **Every credential but a session is checked against the status.** -/
theorem serve_barred (settings : Settings) {r : Request} (h : r.Presents settings p)
    (hsession : ¬ r.BySession settings p) : Barred p (serve settings r) := by
  have hother := h.resolve_left hsession
  cases r with
  | authTotp body => exact barred_authTotp settings.sessionKey body
  | navigationWrite participantId query => exact barred_navigationWrite (hother.resolve_right id)
  | postMessage headers body => exact barred_postMessage (hother.resolve_right id)
  | messages headers requestTarget query =>
      refine barred_messages (hother.resolve_left ?_) requestTarget query
      rintro ⟨write, hcarries, -⟩
      exact absurd hcarries (by simp [Request.carries])
  | channels headers requestTarget query =>
      refine barred_channels (hother.resolve_left ?_) requestTarget query
      rintro ⟨write, hcarries, -⟩
      exact absurd hcarries (by simp [Request.carries])
  | messageWindow headers requestTarget q =>
      refine barred_messageWindow (hother.resolve_left ?_) requestTarget q
      rintro ⟨write, hcarries, -⟩
      exact absurd hcarries (by simp [Request.carries])
  | mcp headers tool arguments =>
      refine barred_mcpPost (fun htool principal => ?_) fun htool principal => ?_
      · subst htool
        refine barred_blackboardRead (hother.resolve_left ?_)
        rintro ⟨write, hcarries, -⟩
        exact absurd hcarries (by simp [Request.carries])
      · subst htool
        obtain ⟨write, hcarries, hp⟩ := hother.resolve_right id
        cases hparse : Mcp.parseWrite arguments with
        | error code =>
            simp only [Request.carries, hparse] at hcarries
            exact absurd hcarries (by simp [Except.toOption])
        | ok w =>
            simp only [Request.carries, hparse] at hcarries
            rw [← show w = write from Option.some.inj hcarries] at hp
            exact barred_blackboardWrite hparse hp
  | oidc participantId headers body =>
      have hp : validateParticipantId participantId = some p := by
        refine hother.resolve_left ?_
        rintro ⟨write, hcarries, -⟩
        exact absurd hcarries (by simp [Request.carries])
      unfold serve
      cases settings.oidcVerifier with
      | none => exact barred_done rfl
      | some verifier => exact barred_oidcPost hp
  | github headers body =>
      obtain ⟨d, hparse, hp⟩ := hother.resolve_left (by
        rintro ⟨write, hcarries, -⟩
        exact absurd hcarries (by simp [Request.carries]))
      exact barred_githubIssueWebhook hparse hp
  | _ =>
      rcases hother with ⟨write, hcarries, -⟩ | hno
      · exact absurd hcarries (by simp [Request.carries])
      · exact hno.elim

/-! ## Runs -/

omit [Sha256] [Hmac] [Base64Url] [JsonParser] [Jwt] in
/-- An update that leaves the status alone. -/
theorem inactive_of_update {participantId : String} {set : WebParticipant → WebParticipant} {hset}
    (hstatus : ∀ row, (set row).status = row.status) {s s' : World}
    (hs : s'.db = updateWebParticipant participantId set hset s.db) (h : Inactive p s') :
    Inactive p s := by
  obtain ⟨row', hrow', hne⟩ := h
  rw [hs, find_updateWebParticipant] at hrow'
  obtain ⟨row, hrow, rfl⟩ := Option.map_eq_some_iff.mp hrow'
  refine ⟨row, hrow, fun hactive => hne ?_⟩
  split
  · rw [hstatus]
    exact hactive
  · exact hactive

omit [JsonParser] [Jwt] in
/-- Only an operation on participants takes one out of service. -/
theorem Effect.inactive_of_apply {e : Effect} (hop : ∀ op, e ≠ .participant op)
    (hcredential : ∀ op, e ≠ .credential op) (s : World) (h : Inactive p (e.apply s)) :
    Inactive p s := by
  rcases e.cases_participants s with
    hsame | ⟨participantId, code, now, rfl⟩ | ⟨op, rfl⟩ | ⟨op, rfl⟩
  · unfold Inactive at h ⊢
    rw [hsame] at h
    exact h
  · simp only [Effect.apply] at h
    rcases authenticateWebTotp_cases participantId code now s.db with
      ⟨-, hdb⟩ | ⟨row, -, ⟨_, _, -, -, -, hdb⟩ | ⟨step, -, -, hdb⟩ | ⟨-, hdb⟩⟩
    · rw [hdb] at h
      exact h
    · rw [hdb] at h
      exact h
    · rw [hdb] at h
      refine inactive_of_update (fun found => ?_) rfl h
      exact rfl
    · rw [hdb] at h
      refine inactive_of_update (fun found => ?_) rfl h
      unfold WebParticipant.codeFailed
      split
      · rfl
      · rfl
  · exact absurd rfl (hop op)
  · exact absurd rfl (hcredential op)

omit [Sha256] [Jwt] in
theorem Request.Presents.not_administrative {settings : Settings} {r : Request}
    (h : r.Presents settings p) : (∀ op, r ≠ .participant op) ∧ ∀ op, r ≠ .credential op := by
  have hno : ∀ r : Request, r.carries = none → r.BySession settings p = False →
      ¬ (r.BySession settings p ∨ ∃ write, r.carries = some write ∧ write.participantId = p) := by
    intro r hcarries hsession
    rintro (h | ⟨write, hwrite, -⟩)
    · rw [hsession] at h
      exact h
    · rw [hcarries] at hwrite
      exact absurd hwrite (by simp)
  refine ⟨?_, ?_⟩
  · rintro op rfl
    rcases h with h | h | h
    · exact hno _ rfl rfl (Or.inl h)
    · exact hno _ rfl rfl (Or.inr h)
    · exact h
  · rintro op rfl
    rcases h with h | h | h
    · exact hno _ rfl rfl (Or.inl h)
    · exact hno _ rfl rfl (Or.inr h)
    · exact h

/-- A request with a credential of the participant leaves its status alone. -/
theorem serve_keepsStatus (settings : Settings) {r : Request} (h : r.Presents settings p) :
    (serve settings r).Steps fun s s' => Inactive p s' → Inactive p s := by
  obtain ⟨hparticipant, hcredential⟩ := h.not_administrative
  refine (serve_steps settings r).mono fun s s' hdoes hinactive => ?_
  obtain ⟨e, hmay, rfl⟩ := hdoes
  refine Effect.inactive_of_apply (fun op he => ?_) (fun op he => ?_) s hinactive
  · rw [he] at hmay
    exact hparticipant op hmay.origin
  · rw [he] at hmay
    exact hcredential op hmay.origin

/-- While the participant is inactive nobody arrives with a session of it, and when it becomes
inactive every request in flight with a credential of it has yet to be told. -/
structure Orderly (settings : Settings) (p : String) (e : ServerEvent) : Prop where
  arrives : ∀ r, e.act = .start r → Inactive p e.before.store → ¬ r.BySession settings p
  deactivates : ¬ Inactive p e.before.store → Inactive p e.after.store →
    ∀ t ∈ e.before.pool, t.request.Presents settings p → Barred p t.rest

/-- While the participant is inactive, a request with a credential of it writes nothing as it and is
told no message of a channel that is not public. -/
def Ineffective (settings : Settings) (p : String) (e : ServerEvent) : Prop :=
  Inactive p e.before.store → ∀ r, e.out = some r → r.Presents settings p →
    NothingBy p e.before.store e.after.store
      ∧ ∀ a, Concurrent.answer e = some a → ∀ m ∈ a.messages,
        channelIsPublicActive e.before.store.db m.channel = true

end Server

/-! ## A session that outlives its participant -/

section Sample

private def outlivedPayload : Bytes := WebAuth.sessionPayload "alice" .humanWeb 28800

private def outlivedTag : Bytes :=
  [227, 128, 122, 119, 65, 228, 131, 60, 244, 183, 184, 149, 224, 229, 95, 225, 228, 16, 182, 104,
    62, 20, 112, 143, 251, 130, 82, 235, 168, 197, 142, 66]

private def helloBody : Bytes :=
  Text.utf8 (Json.renderObject [("body", .string "hello"), ("channel", .string "general")])

@[reducible] private def outlivedHmac : Hmac := .ofTable
  [((sampleSecretBytes, outlivedPayload), outlivedTag)]

@[reducible] private def outlivedBase64Url : Base64Url := .ofTable
  [(outlivedPayload, "eyJleHBpcmVzX2F0IjoyODgwMCwicGFydGljaXBhbnRfaWQiOiJhbGljZSIsInB1cnBvc2UiOiJ"
      ++ "odW1hbi13ZWItc2Vzc2lvbi12MSIsInNlc3Npb25fdHlwZSI6Imh1bWFuLXdlYiIsInZlcnNpb24iOiJiYnNlc3M"
      ++ "tdjEifQ"),
    (outlivedTag, "44B6d0Hkgzz0t7iV4OVf4eQQtmg-FHCP-4JS66jFjkI")]

@[reducible] private def outlivedJsonParser : JsonParser where
  parse bytes :=
    if bytes = outlivedPayload then
      some (.object [("expires_at", .number (.int 28800)), ("participant_id", .string "alice"),
        ("purpose", .string WebAuth.webSessionPurpose), ("session_type", .string "human-web"),
        ("version", .string WebAuth.webSessionPrefix)])
    else if bytes = helloBody then
      some (.object [("body", .string "hello"), ("channel", .string "general")])
    else none

attribute [local instance] sampleSha256 outlivedHmac outlivedBase64Url outlivedJsonParser sampleJwt

private def outlivedSettings : Settings := ⟨sampleSecretBytes, ⟨none, none⟩, none⟩

private def aliceSession : WebAuth.WebSession :=
  WebAuth.issueWebSessionAt sampleSecretBytes "alice" .humanWeb 0

private def sessionHeaders : Headers := [(WebAuth.webSessionHeader, some aliceSession.token)]

private def helloBySession : Request := .postMessage sessionHeaders helloBody

private def retireAlice : Request := .participant (.setStatus "alice" "inactive")

private def retiredAfter (moves : List Move) : Concurrent.Config Request World Response :=
  Transition.run (Concurrent.step (serve outlivedSettings)) ⟨⟨sampleStore, 0⟩, []⟩ moves

private def Request.posted : Request → Option (Headers × Bytes)
  | .postMessage headers body => some (headers, body)
  | _ => none

private def Request.retires : Request → Bool
  | .participant _ => true
  | _ => false

private def helloByProof : Request := .navigationWrite "alice" (sampleQuery none sampleProof)

/-- Alice is deactivated; then her proof arrives. -/
def proofAfterRetirement : List Move :=
  [.start retireAlice, .advance 0, .start helloByProof, .advance 1]

/-- Alice is deactivated; somebody who has her session says hello. -/
def helloAfterRetirement : List Move :=
  [.start retireAlice, .advance 0, .start helloBySession, .advance 1, .advance 1, .advance 1,
    .advance 1, .advance 1, .advance 1, .advance 1]

private def beforeInsertion : Concurrent.Config Request World Response :=
  retiredAfter (helloAfterRetirement.take 9)

private def lastSaid : ServerEvent :=
  ⟨beforeInsertion, .advance 1,
    (Concurrent.step (serve outlivedSettings) (.advance 1) beforeInsertion).1,
    (Concurrent.step (serve outlivedSettings) (.advance 1) beforeInsertion).2⟩

private def said : Message :=
  ⟨1, 0, "general", "chatgpt", "alice", none, "message", "hello", none⟩

end Sample

end Blackboard
