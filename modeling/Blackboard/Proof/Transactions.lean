import Blackboard.Model.Server
import Blackboard.Proof.Requests

/-!
# What a request's transactions can do

Every transaction of a request, whatever the requests in between have done, is one of a
dozen effects, and the request says which ones and with what arguments. An argument about
all interleavings is a case analysis over the effects.
-/

namespace Blackboard

open Concurrent (Program)

/-! ## Effects -/

/-- What a transaction does. -/
inductive Effect where
  /-- It reads. -/
  | nothing
  | ensureChannel (channel : String) (createdBy : Option String)
  /-- The unconditional insertion of the plain route. -/
  | insert (identity : Identity) (fields : Http.MessageFields)
  | navigate (writer : Identity) (payload : Http.WritePayload)
  | execute (writer : Identity) (request : MessageExecutionRequest)
  | login (participantId code : String) (now : Nat)
  | grant (op : GrantOp)
  | participant (op : ParticipantOp)
  | channel (op : ChannelOp)
  | credential (op : CredentialOp)
  | tick (now : Int)

section Effects

variable [Sha256] [Hmac] [Base64Url]

def Effect.apply : Effect → World → World
  | nothing, w => w
  | ensureChannel name createdBy, w =>
      { w with db := Blackboard.ensureChannel w.now name createdBy w.db }
  | insert identity fields, w =>
      { w with
        db := (insertMessage w.now identity fields.channel none fields.kind fields.body
          fields.replyTo w.db).2 }
  | navigate writer payload, w =>
      { w with db := (appendNavigationMessage w.now writer payload.navigationInput w.db).2 }
  | execute writer request, w =>
      { w with db := (executeMessageIntent w.now writer request w.db).2 }
  | login participantId code now, w =>
      { w with db := (authenticateWebTotp participantId code now w.db).2 }
  | grant op, w => { w with db := op.apply w.now w.db }
  | participant op, w => { w with db := op.apply w.db }
  | channel op, w => { w with db := op.apply w.now w.db }
  | credential op, w => { w with db := op.apply w.db }
  | tick now, w => { w with now }

/-- A transaction with one of these effects. -/
def Does (may : Effect → Prop) (w w' : World) : Prop := ∃ e, may e ∧ w' = e.apply w

theorem Does.nothing {may : Effect → Prop} (h : may .nothing) (w : World) : Does may w w :=
  ⟨.nothing, h, rfl⟩

theorem Does.mono {may may' : Effect → Prop} {w w' : World} (h : Does may w w')
    (hmay : ∀ e, may e → may' e) : Does may' w w' := by
  obtain ⟨e, he, hw⟩ := h
  exact ⟨e, hmay e he, hw⟩

theorem steps_statement {α : Type} {may : Effect → Prop} {op : Int → Database → α × Database}
    {e : Effect} (he : may e) (happly : ∀ w : World, e.apply w = { w with db := (op w.now w.db).2 }) :
    (statement op).Steps (Does may) :=
  ⟨fun w => ⟨e, he, (happly w).symm⟩, fun _ => trivial⟩

section Reads

variable {may : Effect → Prop}

theorem steps_query {α : Type} (h : may .nothing) (q : Database → α) :
    (query q).Steps (Does may) := ⟨fun w => Does.nothing h w, fun _ => trivial⟩

/-- What comes after a query may depend on what it found. -/
theorem steps_query_bind {α β : Type} (h : may .nothing) {q : Database → α}
    {k : α → Program World β} (hk : ∀ w : World, (k (q w.db)).Steps (Does may)) :
    (query q >>= k).Steps (Does may) := ⟨fun w => Does.nothing h w, hk⟩

theorem within_query_bind {α β : Type} {A : World → Prop} {Q : β → Prop} (h : may .nothing)
    {q : Database → α} {k : α → Program World β}
    (hk : ∀ w, A w → (k (q w.db)).Within A (Does may) Q) :
    (query q >>= k).Within A (Does may) Q := fun w hw => ⟨Does.nothing h w, hk w hw⟩

theorem steps_currentUnixTime (h : may .nothing) :
    RequestAuth.currentUnixTime.Steps (Does may) := ⟨fun w => Does.nothing h w, fun _ => trivial⟩

end Reads

variable [JsonParser]

/-- The effects of a signed message. -/
def SignedEffect (object : Json.Object) (e : Effect) : Prop :=
  e = .nothing ∨ ∃ write writer, Http.parseSignedMessage object = .ok write
    ∧ writer.inst = write.payload.participantId
    ∧ (e = .ensureChannel write.payload.channel (some writer.inst)
      ∨ e = .execute writer (Http.signedExecution write.payload))

/-- The effects of a message of a session or a client. -/
def PlainEffect (object : Json.Object) (e : Effect) : Prop :=
  e = .nothing ∨ ∃ identity fields, Http.messageFields Http.nameRe Http.kindRe object = .ok fields
    ∧ (e = .ensureChannel fields.channel (some identity.inst) ∨ e = .insert identity fields)

/-- The effects a request may have. -/
def Request.May (settings : Settings) : Request → Effect → Prop
  | .navigationRead .., e | .messages .., e | .channels .., e | .messageWindow .., e => e = .nothing
  | .navigationWrite participantId query, e =>
      e = .nothing ∨ ∃ write writer, Http.parseNavigationWrite participantId query = .ok write
        ∧ writer.inst = write.payload.participantId
        ∧ (e = .ensureChannel write.payload.channel (some writer.inst)
          ∨ e = .navigate writer write.payload)
  | .authTotp _, e => e = .nothing ∨ ∃ participantId code now, e = .login participantId code now
  | .postMessage _ body, e =>
      e = .nothing ∨ ∃ object, Http.readJsonObject body = .ok object
        ∧ (SignedEffect object e ∨ PlainEffect object e)
  | .mcp _ _ arguments, e =>
      e = .nothing ∨ ∃ w writer principal, Mcp.parseWrite arguments = .ok w
        ∧ writer.inst = w.participantId ∧ e = .execute writer (Mcp.execution principal w)
  | .oidc _ _ body, e =>
      e = .nothing ∨ ∃ fields intentId participantId principal writer,
        (Oidc.readJsonObject body).bind Oidc.parseMessage = .ok (fields, intentId)
        ∧ writer.inst = participantId
        ∧ e = .execute writer (Oidc.execution principal
            { fields with participantId, nonce := intentId })
  | .github headers body, e =>
      e = .nothing ∨ ∃ d writer, GithubWebhook.parseDelivery settings.github headers body = .ok d
        ∧ writer.inst = d.participantId ∧ e = .execute writer (GithubWebhook.execution d)
  | .grant op, e => e = .grant op
  | .participant op, e => e = .participant op
  | .channel op, e => e = .channel op
  | .credential op, e => e = .credential op
  | .tick now, e => e = .tick now

/-- The request an effect comes from. -/
def Effect.From (r : Request) : Effect → Prop
  | .nothing | .ensureChannel .. => True
  | .insert .. => ∃ headers body, r = .postMessage headers body
  | .navigate .. => ∃ participantId query, r = .navigationWrite participantId query
  | .execute .. => (∃ headers body, r = .postMessage headers body)
      ∨ (∃ headers tool arguments, r = .mcp headers tool arguments)
      ∨ (∃ participantId headers body, r = .oidc participantId headers body)
      ∨ ∃ headers body, r = .github headers body
  | .login .. => ∃ body, r = .authTotp body
  | .grant op => r = .grant op
  | .participant op => r = .participant op
  | .channel op => r = .channel op
  | .credential op => r = .credential op
  | .tick now => r = .tick now

omit [Base64Url] in
/-- **Every effect comes from a route of its kind.** -/
theorem Request.May.origin {settings : Settings} {r : Request} {e : Effect}
    (h : r.May settings e) : e.From r := by
  cases r with
  | navigationWrite participantId query =>
      rcases h with rfl | ⟨write, writer, -, -, rfl | rfl⟩
      · trivial
      · trivial
      · exact ⟨participantId, query, rfl⟩
  | authTotp body =>
      rcases h with rfl | ⟨participantId, code, now, rfl⟩
      · trivial
      · exact ⟨body, rfl⟩
  | postMessage headers body =>
      rcases h with rfl | ⟨object, -, (rfl | ⟨write, writer, -, -, rfl | rfl⟩)
        | (rfl | ⟨identity, fields, -, rfl | rfl⟩)⟩
      · trivial
      · trivial
      · trivial
      · exact Or.inl ⟨headers, body, rfl⟩
      · trivial
      · trivial
      · exact ⟨headers, body, rfl⟩
  | mcp headers tool arguments =>
      rcases h with rfl | ⟨w, writer, principal, -, -, rfl⟩
      · trivial
      · exact Or.inr (Or.inl ⟨headers, tool, arguments, rfl⟩)
  | oidc participantId headers body =>
      rcases h with rfl | ⟨fields, intentId, named, principal, writer, -, -, rfl⟩
      · trivial
      · exact Or.inr (Or.inr (Or.inl ⟨participantId, headers, body, rfl⟩))
  | github headers body =>
      rcases h with rfl | ⟨d, writer, -, -, rfl⟩
      · trivial
      · exact Or.inr (Or.inr (Or.inr ⟨headers, body, rfl⟩))
  | grant op => rw [show e = .grant op from h]; rfl
  | participant op => rw [show e = .participant op from h]; rfl
  | channel op => rw [show e = .channel op from h]; rfl
  | credential op => rw [show e = .credential op from h]; rfl
  | tick now => rw [show e = .tick now from h]; rfl
  | _ => rw [show e = .nothing from h]; trivial

/-! ## Looking somebody up -/

section LookUps

variable {may : Effect → Prop}

theorem steps_verifiedWebSession (h : may .nothing) (key : Bytes) (headers : Headers) :
    (RequestAuth.verifiedWebSession key headers).Steps (Does may) := by
  unfold RequestAuth.verifiedWebSession
  split
  · trivial
  · exact Program.steps_bind (steps_currentUnixTime h) fun _ => trivial

theorem steps_resolveRequestIdentity (h : may .nothing) (key : Bytes) (headers : Headers) :
    (RequestAuth.resolveRequestIdentity key headers).Steps (Does may) := by
  unfold RequestAuth.resolveRequestIdentity
  split
  · refine Program.steps_bind (steps_verifiedWebSession h key headers) fun session => ?_
    cases session with
    | none => trivial
    | some session =>
        dsimp only
        split
        · trivial
        · exact steps_query h _
  · split
    · trivial
    · cases headers.bearerToken with
      | none => trivial
      | some token => exact steps_query h _

/-- The session a request is found to carry is good at some time. -/
theorem within_verifiedWebSession (h : may .nothing) (key : Bytes) (headers : Headers) :
    (RequestAuth.verifiedWebSession key headers).Within (fun _ => True) (Does may)
      fun r => ∀ session, r = some session → ∃ now, sessionAt key headers now = some session := by
  unfold RequestAuth.verifiedWebSession sessionAt
  cases headers.text WebAuth.webSessionHeader with
  | none => exact fun session hr => absurd hr (by simp)
  | some token => exact fun s _ => ⟨Does.nothing h s, fun session hr => ⟨s.now, hr⟩⟩

/-- With a session header, whoever is found is the participant of a human session. -/
theorem within_resolveRequestIdentity (h : may .nothing) (key : Bytes) (headers : Headers) :
    (RequestAuth.resolveRequestIdentity key headers).Within (fun _ => True) (Does may)
      fun r => ∀ identity, r = some identity →
        headers.containsKey WebAuth.webSessionHeader = true →
        ∃ now session, sessionAt key headers now = some session
          ∧ session.sessionType = .humanWeb ∧ identity.inst = session.participantId := by
  unfold RequestAuth.resolveRequestIdentity
  split
  · refine Program.within_bind (within_verifiedWebSession h key headers) fun session hs => ?_
    cases session with
    | none => exact fun identity hr _ => absurd hr (by simp)
    | some session =>
        dsimp only
        split
        · exact fun identity hr _ => absurd hr (by simp)
        · rename_i hkind
          refine fun s _ => ⟨Does.nothing h s, fun identity hr _ => ?_⟩
          obtain ⟨now, hnow⟩ := hs session rfl
          exact ⟨now, session, hnow, not_not.mp hkind, getWebParticipant_inst hr⟩
  · rename_i hno
    have hsteps : (RequestAuth.resolveRequestIdentity key headers).Steps (Does may) :=
      steps_resolveRequestIdentity h key headers
    have hquiet := Program.within_of_steps (A := fun _ => True) hsteps
    unfold RequestAuth.resolveRequestIdentity at hquiet
    rw [if_neg hno] at hquiet
    exact hquiet.mono (fun _ _ hd => hd) fun r _ identity _ hkey => absurd hkey hno

theorem steps_resolveRequestIdentityForTarget (h : may .nothing) (key : Bytes) (headers : Headers)
    (method requestTarget : String) :
    (RequestAuth.resolveRequestIdentityForTarget key headers method requestTarget).Steps
      (Does may) := by
  unfold RequestAuth.resolveRequestIdentityForTarget
  split
  · exact steps_resolveRequestIdentity h key headers
  · split
    · trivial
    · split
      · split
        · trivial
        · exact steps_query h _
      · trivial

theorem steps_requireReadAccessForTarget (h : may .nothing) (key : Bytes) (headers : Headers)
    (method requestTarget : String) :
    (Http.requireReadAccessForTarget key headers method requestTarget).Steps (Does may) := by
  unfold Http.requireReadAccessForTarget
  refine Program.steps_bind (steps_verifiedWebSession h key headers) fun session => ?_
  cases session with
  | none =>
      refine Program.steps_bind
        (steps_resolveRequestIdentityForTarget h key headers method requestTarget) fun identity => ?_
      cases identity with
      | none => trivial
      | some identity => trivial
  | some session =>
      dsimp only
      cases session.sessionType with
      | guest => trivial
      | humanWeb =>
          refine Program.steps_bind (steps_query h _) fun identity => ?_
          cases identity with
          | none => trivial
          | some identity => trivial

end LookUps

/-! ## The routes -/

section Routes

variable {settings : Settings}

omit [JsonParser] in
theorem steps_ensureChannelForWrite {may : Effect → Prop} {channel : String}
    {createdBy : Option String} (hnothing : may .nothing)
    (hensure : may (.ensureChannel channel createdBy)) :
    (ensureChannelForWrite channel createdBy).Steps (Does may) :=
  Program.steps_bind (steps_statement hensure fun _ => rfl) fun _ => steps_query hnothing _

omit [JsonParser] in
theorem steps_navigationRead {may : Effect → Prop} (h : may .nothing) (channel : String)
    (query' : Http.Query) : (Http.navigationRead channel query').Steps (Does may) := by
  unfold Http.navigationRead
  split
  · trivial
  · split
    · refine Program.steps_bind (steps_query h _) fun isPublic => ?_
      split
      · exact Program.steps_bind (steps_query h _) fun _ => trivial
      · trivial
    · trivial

omit [JsonParser] in
theorem steps_listMessages {may : Effect → Prop} (h : may .nothing) (q : Http.MessagesQuery) :
    (Http.listMessages q).Steps (Does may) :=
  Program.steps_bind (steps_query h _) fun _ => trivial

theorem steps_messages {may : Effect → Prop} (h : may .nothing) (key : Bytes) (headers : Headers)
    (requestTarget : String) (query' : Http.Query) :
    (Http.messages key headers requestTarget query').Steps (Does may) := by
  unfold Http.messages
  refine Program.steps_bind (steps_requireReadAccessForTarget h key headers "GET" requestTarget)
    fun access => ?_
  cases access with
  | error e => trivial
  | ok access =>
      dsimp only
      cases Http.parseMessages query' with
      | error e => trivial
      | ok q =>
          dsimp only
          split
          · exact steps_listMessages h q
          · trivial
          · refine Program.steps_bind (steps_query h _) fun isPublic => ?_
            split
            · exact steps_listMessages h q
            · trivial

theorem steps_channels {may : Effect → Prop} (h : may .nothing) (key : Bytes) (headers : Headers)
    (requestTarget : String) (query' : Http.Query) :
    (Http.channels key headers requestTarget query').Steps (Does may) := by
  unfold Http.channels
  refine Program.steps_bind (steps_requireReadAccessForTarget h key headers "GET" requestTarget)
    fun access => ?_
  cases access with
  | error e => trivial
  | ok access =>
      dsimp only
      split
      · trivial
      · trivial
      · exact Program.steps_bind (steps_query h _) fun _ => trivial

omit [JsonParser] in
theorem steps_readWindow {may : Effect → Prop} (h : may .nothing) (channel : String)
    (order : History.MessageOrder) (before after : Option Int) (limit : Nat) :
    (History.readWindow channel order before after limit).Steps (Does may) := by
  unfold History.readWindow
  refine Program.steps_bind (steps_query h _) fun rows => ?_
  cases rows.getLast? with
  | none => trivial
  | some last => exact Program.steps_bind (steps_query h _) fun _ => trivial

theorem steps_messageWindow {may : Effect → Prop} (h : may .nothing) (key : Bytes)
    (headers : Headers) (requestTarget : String) (q : History.MessageWindowQuery) :
    (History.messageWindow key headers requestTarget q).Steps (Does may) := by
  unfold History.messageWindow
  cases History.parseWindow q with
  | error e => trivial
  | ok window =>
      obtain ⟨order, limit⟩ := window
      have hpage : (do
          let page ← History.readWindow q.channel order q.before q.after limit
          return History.windowResponse order page).Steps (Does may) :=
        Program.steps_bind (steps_readWindow h q.channel order q.before q.after limit)
          fun _ => trivial
      refine Program.steps_bind (steps_verifiedWebSession h key headers) fun session => ?_
      split
      · refine Program.steps_bind (steps_query h _) fun isPublic => ?_
        split
        · exact hpage
        · trivial
      · refine Program.steps_bind
          (steps_resolveRequestIdentityForTarget h key headers "GET" requestTarget) fun who => ?_
        cases who with
        | none => trivial
        | some identity => exact hpage

theorem steps_navigationWrite (participantId : String) (query' : Http.Query) :
    (Http.navigationWrite participantId query').Steps
      (Does (Request.May settings (.navigationWrite participantId query'))) := by
  have hnothing : Request.May settings (.navigationWrite participantId query') .nothing :=
    Or.inl rfl
  unfold Http.navigationWrite
  cases hparse : Http.parseNavigationWrite participantId query' with
  | error e => trivial
  | ok write =>
      refine steps_query_bind hnothing fun w => ?_
      cases hwriter : Http.signedWriter w.db write with
      | none => trivial
      | some writer =>
          have hmay : ∀ e, e = .ensureChannel write.payload.channel (some writer.inst)
              ∨ e = .navigate writer write.payload →
              Request.May settings (.navigationWrite participantId query') e :=
            fun e he => Or.inr ⟨write, writer, hparse, signedWriter_inst hwriter, he⟩
          refine Program.steps_bind
            (steps_ensureChannelForWrite hnothing (hmay _ (Or.inl rfl))) fun active => ?_
          split
          · exact Program.steps_bind (steps_statement (hmay _ (Or.inr rfl)) fun _ => rfl)
              fun _ => trivial
          · trivial

theorem steps_authTotp (key body : Bytes) :
    (Http.authTotp key body).Steps (Does (Request.May settings (.authTotp body))) := by
  have hnothing : Request.May settings (.authTotp body) .nothing := Or.inl rfl
  unfold Http.authTotp
  split
  · trivial
  · split
    · trivial
    · split
      · trivial
      · trivial
      · rename_i participantId code _ _
        refine Program.steps_bind (steps_currentUnixTime hnothing) fun now => ?_
        have hlogin : Request.May settings (.authTotp body) (.login participantId code now) :=
          Or.inr ⟨participantId, code, now, rfl⟩
        refine Program.steps_bind (steps_statement hlogin fun _ => rfl) fun result => ?_
        split
        · trivial
        · trivial
        · refine Program.steps_bind (steps_query hnothing _) fun role => ?_
          exact Program.steps_bind (steps_currentUnixTime hnothing) fun _ => trivial

omit [JsonParser] in
theorem steps_postSignedMessage (object : Json.Object) :
    (Http.postSignedMessage object).Steps (Does (SignedEffect object)) := by
  have hnothing : SignedEffect object .nothing := Or.inl rfl
  unfold Http.postSignedMessage
  cases hparse : Http.parseSignedMessage object with
  | error e => trivial
  | ok write =>
      refine steps_query_bind hnothing fun w => ?_
      cases hwriter : Http.signedWriter w.db write with
      | none => trivial
      | some writer =>
          have hmay : ∀ e, e = .ensureChannel write.payload.channel (some writer.inst)
              ∨ e = .execute writer (Http.signedExecution write.payload) →
              SignedEffect object e :=
            fun e he => Or.inr ⟨write, writer, hparse, signedWriter_inst hwriter, he⟩
          refine Program.steps_bind
            (steps_ensureChannelForWrite hnothing (hmay _ (Or.inl rfl))) fun active => ?_
          split
          · exact Program.steps_bind (steps_statement (hmay _ (Or.inr rfl)) fun _ => rfl)
              fun _ => trivial
          · trivial

omit [JsonParser] in
theorem steps_appendChecked {may : Effect → Prop} {identity : Identity}
    {fields : Http.MessageFields} (hnothing : may .nothing)
    (hensure : may (.ensureChannel fields.channel (some identity.inst)))
    (hinsert : may (.insert identity fields)) :
    (Http.appendChecked identity fields).Steps (Does may) := by
  unfold Http.appendChecked
  refine Program.steps_bind (steps_ensureChannelForWrite hnothing hensure) fun active => ?_
  split
  · refine Program.steps_bind ?_ fun appended => ?_
    · unfold appendMessage
      refine Program.steps_bind (steps_statement hensure fun _ => rfl) fun _ => ?_
      refine Program.steps_bind (steps_statement hinsert fun _ => rfl) fun _ => ?_
      exact steps_query hnothing _
    · cases appended with
      | ok message => trivial
      | error e => trivial
  · trivial

/-- What is known of whoever the look-up finds is known of the author. -/
theorem steps_postPlainMessage {may : Effect → Prop} {key : Bytes} {headers : Headers}
    {object : Json.Object} (From : Identity → Prop) (hnothing : may .nothing)
    (hwho : (RequestAuth.resolveRequestIdentity key headers).Within (fun _ => True) (Does may)
      fun who => ∀ identity, who = some identity → From identity)
    (hmay : ∀ identity fields e, From identity →
      Http.messageFields Http.nameRe Http.kindRe object = .ok fields →
      e = .ensureChannel fields.channel (some identity.inst) ∨ e = .insert identity fields →
      may e) :
    (Http.postPlainMessage key headers object).Steps (Does may) := by
  unfold Http.postPlainMessage
  refine Program.steps_bind_of_within hwho fun who hfrom => ?_
  cases who with
  | none => trivial
  | some identity =>
      dsimp only
      cases hfields : Http.messageFields Http.nameRe Http.kindRe object with
      | error e => trivial
      | ok fields =>
          have hauthor : ∀ e, e = .ensureChannel fields.channel (some identity.inst)
              ∨ e = .insert identity fields → may e :=
            fun e he => hmay identity fields e (hfrom identity rfl) hfields he
          have happend : (Http.appendChecked identity fields).Steps (Does may) :=
            steps_appendChecked hnothing (hauthor _ (Or.inl rfl)) (hauthor _ (Or.inr rfl))
          dsimp only
          cases fields.replyTo with
          | none => exact happend
          | some target =>
              refine Program.steps_bind (steps_query hnothing _) fun found => ?_
              split
              · exact happend
              · trivial

theorem steps_postPlainMessage_of_anybody (key : Bytes) (headers : Headers)
    (object : Json.Object) :
    (Http.postPlainMessage key headers object).Steps (Does (PlainEffect object)) := by
  have hnothing : PlainEffect object .nothing := Or.inl rfl
  refine steps_postPlainMessage (fun _ => True) hnothing ?_ ?_
  · refine (Program.within_of_steps (steps_resolveRequestIdentity hnothing key headers)).mono
      (fun _ _ h => h) ?_
    exact fun _ _ _ _ => trivial
  · exact fun identity fields e _ hfields he => Or.inr ⟨identity, fields, hfields, he⟩

theorem steps_postMessage (key : Bytes) (headers : Headers) (body : Bytes) :
    (Http.postMessage key headers body).Steps
      (Does (Request.May settings (.postMessage headers body))) := by
  have hnothing : Request.May settings (.postMessage headers body) .nothing := Or.inl rfl
  unfold Http.postMessage
  refine Program.steps_bind (steps_verifiedWebSession hnothing key headers) fun session => ?_
  split
  · trivial
  · cases hparsed : Http.readJsonObject body with
    | error e => trivial
    | ok object =>
        dsimp only
        split
        · trivial
        · split
          · refine (steps_postSignedMessage object).mono fun _ _ h => h.mono fun e he => ?_
            exact Or.inr ⟨object, hparsed, Or.inl he⟩
          · refine (steps_postPlainMessage_of_anybody key headers object).mono fun _ _ h =>
              h.mono fun e he => ?_
            exact Or.inr ⟨object, hparsed, Or.inr he⟩

section Mcp

omit [JsonParser] in
theorem steps_listPage {may : Effect → Prop} (h : may .nothing) (a : Mcp.ReadArguments) :
    (Mcp.listPage a).Steps (Does may) := Program.steps_bind (steps_query h _) fun _ => trivial

omit [JsonParser] in
theorem steps_blackboardRead {may : Effect → Prop} (h : may .nothing) (arguments : Json.Object)
    (principal : Option Principal) :
    (Mcp.blackboardRead arguments principal).Steps (Does may) := by
  unfold Mcp.blackboardRead
  cases Mcp.parseRead arguments with
  | error code => trivial
  | ok a =>
      dsimp only
      have hpage : ∀ allowed : Bool, ∀ code, (if allowed = true then Mcp.listPage a
          else pure (Mcp.toolError code)).Steps (Does may) := by
        intro allowed code
        split
        · exact steps_listPage h a
        · trivial
      split
      · split
        · trivial
        · cases principal with
          | some principal =>
              exact Program.steps_bind (steps_statement h fun _ => rfl) fun allowed => hpage _ _
          | none =>
              dsimp only
              cases Mcp.parseAuth arguments with
              | error code => trivial
              | ok proof => exact Program.steps_bind (steps_query h _) fun verified => hpage _ _
      · exact Program.steps_bind (steps_query h _) fun isPublic => hpage _ _

omit [JsonParser] in
/-- A call writes as the participant it names. -/
theorem within_resolveWriteIdentity {may : Effect → Prop} (h : may .nothing)
    (arguments : Json.Object) (w : Http.WritePayload) (principal : Option Principal) :
    (Mcp.resolveWriteIdentity arguments w principal).Within (fun _ => True) (Does may)
      fun r => ∀ writer, r = .ok writer → writer.inst = w.participantId := by
  unfold Mcp.resolveWriteIdentity
  cases principal with
  | some principal =>
      refine within_query_bind h fun s _ => ?_
      cases hwho : getWebParticipant s.db w.participantId with
      | none => exact fun writer hw => absurd hw (by simp)
      | some identity =>
          intro writer hw
          rw [← Except.ok.inj hw]
          exact getWebParticipant_inst hwho
  | none =>
      cases Mcp.parseAuth arguments with
      | error code => exact fun writer hw => absurd hw (by simp)
      | ok proof =>
          refine within_query_bind h fun s _ => ?_
          cases hauth : getWebParticipantAuth s.db w.participantId with
          | none => exact fun writer hw => absurd hw (by simp)
          | some auth =>
              dsimp only
              split
              · exact fun writer hw => absurd hw (by simp)
              · split
                · exact fun writer hw => absurd hw (by simp)
                · intro writer hw
                  rw [← Except.ok.inj hw]
                  exact getWebParticipantAuth_inst hauth

omit [JsonParser] in
theorem steps_blackboardWrite {may : Effect → Prop} {arguments : Json.Object}
    {principal : Option Principal} (hnothing : may .nothing)
    (hexecute : ∀ w writer, Mcp.parseWrite arguments = .ok w → writer.inst = w.participantId →
      may (.execute writer (Mcp.execution principal w))) :
    (Mcp.blackboardWrite arguments principal).Steps (Does may) := by
  unfold Mcp.blackboardWrite
  cases hparse : Mcp.parseWrite arguments with
  | error code => trivial
  | ok w =>
      refine Program.steps_bind_of_within
        (within_resolveWriteIdentity hnothing arguments w principal) fun who hwho => ?_
      cases who with
      | error code => trivial
      | ok writer =>
          have hmay := hexecute w writer hparse (hwho writer rfl)
          exact Program.steps_bind (steps_statement hmay fun _ => rfl) fun _ => trivial

omit [JsonParser] in
theorem steps_httpToolCallRequiresAuth {may : Effect → Prop} (hnothing : may .nothing)
    (tool : Mcp.Tool) (arguments : Json.Object) :
    (Mcp.httpToolCallRequiresAuth tool arguments).Steps (Does may) := by
  unfold Mcp.httpToolCallRequiresAuth
  split
  · trivial
  · split
    · trivial
    · split
      · trivial
      · split
        · trivial
        · exact steps_query hnothing _

variable [Jwt]

/-- The bearer token of a request was good at some time, for this principal. -/
def BearerVerified (verifier : Option OidcVerifier) (headers : Headers) (principal : Principal) :
    Prop :=
  ∃ v token now, verifier = some v ∧ headers.bearerToken = some token
    ∧ v.verify token now = some principal

/-- The principal of a call: that of its bearer token, and none only without one. -/
def CallPrincipal (verifier : Option OidcVerifier) (headers : Headers) :
    Option Principal → Prop
  | some principal => BearerVerified verifier headers principal
  | none => headers.containsKey "authorization" = false

omit [JsonParser] in
theorem within_resolveHttpBearerPrincipal {may : Effect → Prop} (hnothing : may .nothing)
    (verifier : Option OidcVerifier) (headers : Headers) :
    (Mcp.resolveHttpBearerPrincipal verifier headers).Within (fun _ => True) (Does may)
      fun r => ∀ principal, r = .ok principal → CallPrincipal verifier headers principal := by
  unfold Mcp.resolveHttpBearerPrincipal
  split
  · rename_i hno
    intro principal h
    rw [← Except.ok.inj h]
    exact hno
  · split
    · rename_i token v htoken
      refine Program.within_bind (Program.within_of_steps (steps_currentUnixTime hnothing))
        fun now _ => ?_
      cases hverify : v.verify token now with
      | none => exact fun principal h => absurd h (by simp)
      | some principal =>
          intro found h
          rw [← Except.ok.inj h]
          exact ⟨v, token, now, rfl, htoken, hverify⟩
    · exact fun principal h => absurd h (by simp)

omit [JsonParser] in
theorem steps_mcpPost {may : Effect → Prop} {verifier : Option OidcVerifier} {headers : Headers}
    {tool : Mcp.Tool} {arguments : Json.Object} (hnothing : may .nothing)
    (hexecute : ∀ principal w writer, tool = .blackboardWrite →
      CallPrincipal verifier headers principal → Mcp.parseWrite arguments = .ok w →
      writer.inst = w.participantId → may (.execute writer (Mcp.execution principal w))) :
    (Mcp.mcpPost verifier headers tool arguments).Steps (Does may) := by
  unfold Mcp.mcpPost
  refine Program.steps_bind_of_within
    (within_resolveHttpBearerPrincipal hnothing verifier headers) fun principal hprincipal => ?_
  cases principal with
  | error e => trivial
  | ok principal =>
      dsimp only
      refine Program.steps_bind ?_ fun refuse => ?_
      · split
        · exact steps_httpToolCallRequiresAuth hnothing tool arguments
        · trivial
      · split
        · trivial
        · split
          · exact steps_blackboardRead hnothing arguments principal
          · exact steps_blackboardWrite hnothing fun w writer hparse hwriter =>
              hexecute principal w writer rfl (hprincipal principal rfl) hparse hwriter

end Mcp

theorem steps_githubIssueWebhook (headers : Headers) (body : Bytes) :
    (GithubWebhook.githubIssueWebhook settings.github headers body).Steps
      (Does (Request.May settings (.github headers body))) := by
  have hnothing : Request.May settings (.github headers body) .nothing := Or.inl rfl
  unfold GithubWebhook.githubIssueWebhook
  cases hparse : GithubWebhook.parseDelivery settings.github headers body with
  | error e => trivial
  | ok d =>
      refine steps_query_bind hnothing fun w => ?_
      cases hwho : getWebParticipant w.db d.participantId with
      | none => trivial
      | some writer =>
          have hexecute : Request.May settings (.github headers body)
              (.execute writer (GithubWebhook.execution d)) :=
            Or.inr ⟨d, writer, hparse, getWebParticipant_inst hwho, rfl⟩
          exact Program.steps_bind (steps_statement hexecute fun _ => rfl) fun _ => trivial

variable [Jwt]

theorem steps_oidcPost {may : Effect → Prop} {verifier : OidcVerifier} {participantId : String}
    {headers : Headers} {body : Bytes} (hnothing : may .nothing)
    (hexecute : ∀ principal fields intentId named writer,
      BearerVerified (some verifier) headers principal →
      (Oidc.readJsonObject body).bind Oidc.parseMessage = .ok (fields, intentId) →
      validateParticipantId participantId = some named → writer.inst = named →
      may (.execute writer (Oidc.execution principal
        { fields with participantId := named, nonce := intentId }))) :
    (Oidc.postMessage verifier participantId headers body).Steps (Does may) := by
  unfold Oidc.postMessage
  cases hnamed : validateParticipantId participantId with
  | none => trivial
  | some named =>
      dsimp only
      cases htoken : headers.bearerToken with
      | none => trivial
      | some token =>
          refine Program.steps_bind (steps_currentUnixTime hnothing) fun now => ?_
          cases hverify : verifier.verify token now with
          | none => trivial
          | some principal =>
              dsimp only
              cases hparse : (Oidc.readJsonObject body).bind Oidc.parseMessage with
              | error e => trivial
              | ok parsed =>
                  obtain ⟨fields, intentId⟩ := parsed
                  refine steps_query_bind hnothing fun w => ?_
                  cases hwho : getWebParticipant w.db named with
                  | none => trivial
                  | some writer =>
                      have hmay := hexecute principal fields intentId named writer
                        ⟨verifier, token, now, rfl, htoken, hverify⟩ hparse hnamed
                        (getWebParticipant_inst hwho)
                      exact Program.steps_bind (steps_statement hmay fun _ => rfl)
                        fun _ => trivial

/-- **Every transaction of a request has one of the effects the request may have.** -/
theorem serve_steps (settings : Settings) (r : Request) :
    (serve settings r).Steps (Does (r.May settings)) := by
  cases r with
  | navigationRead channel query' =>
      have hnothing : Request.May settings (.navigationRead channel query') .nothing := rfl
      exact steps_navigationRead hnothing channel query'
  | navigationWrite participantId query' => exact steps_navigationWrite participantId query'
  | authTotp body => exact steps_authTotp settings.sessionKey body
  | messages headers requestTarget query' =>
      have hnothing : Request.May settings (.messages headers requestTarget query') .nothing := rfl
      exact steps_messages hnothing settings.sessionKey headers requestTarget query'
  | channels headers requestTarget query' =>
      have hnothing : Request.May settings (.channels headers requestTarget query') .nothing := rfl
      exact steps_channels hnothing settings.sessionKey headers requestTarget query'
  | messageWindow headers requestTarget q =>
      have hnothing : Request.May settings (.messageWindow headers requestTarget q) .nothing := rfl
      exact steps_messageWindow hnothing settings.sessionKey headers requestTarget q
  | postMessage headers body => exact steps_postMessage settings.sessionKey headers body
  | mcp headers tool arguments =>
      exact steps_mcpPost (Or.inl rfl) fun principal w writer _ _ hparse hwriter =>
        Or.inr ⟨w, writer, principal, hparse, hwriter, rfl⟩
  | oidc participantId headers body =>
      unfold serve
      cases settings.oidcVerifier with
      | none => trivial
      | some verifier =>
          exact steps_oidcPost (Or.inl rfl)
            fun principal fields intentId named writer _ hparse _ hwriter =>
              Or.inr ⟨fields, intentId, named, principal, writer, hparse, hwriter, rfl⟩
  | github headers body => exact steps_githubIssueWebhook headers body
  | grant op => exact ⟨fun w => ⟨.grant op, rfl, rfl⟩, fun _ => trivial⟩
  | participant op => exact ⟨fun w => ⟨.participant op, rfl, rfl⟩, fun _ => trivial⟩
  | channel op => exact ⟨fun w => ⟨.channel op, rfl, rfl⟩, fun _ => trivial⟩
  | credential op => exact ⟨fun w => ⟨.credential op, rfl, rfl⟩, fun _ => trivial⟩
  | tick now => exact ⟨fun w => ⟨.tick now, rfl, rfl⟩, fun _ => trivial⟩

end Routes

end Effects

end Blackboard
