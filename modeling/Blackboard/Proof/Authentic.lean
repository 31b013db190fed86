import Blackboard.Proof.Warrants

/-!
# Who wrote what is on the board

A message carries the name of its author, and a reader has nothing but that name. So the
question is which call put the message there, and what that call had seen of whoever sent
it: a session, a token or a proof that was good in a state of the board it met, or a
delivery signed with the secret of the webhook.

The arguments of a tool have to be those the call carries. A proof of a write exists for
everybody with a secret; what counts is that somebody sent one.
-/

namespace Blackboard

open Relational (Table)

/-! ## Contents -/

/-- The message has these contents and this author. -/
structure Message.Carries (m : Message) (who : Identity) (conversationRef : Option String)
    (fields : Http.MessageFields) : Prop where
  source : m.source = who.source
  inst : m.inst = who.inst
  conversationRef : m.conversationRef = conversationRef
  fields : (⟨m.channel, m.kind, m.body, m.replyTo⟩ : Http.MessageFields) = fields

theorem carries_messageRow (now : Int) (who : Identity) (conversationRef : Option String)
    (fields : Http.MessageFields) (id : Int) :
    (messageRow now who fields.channel conversationRef fields.kind fields.body fields.replyTo
      id).Carries who conversationRef fields := ⟨rfl, rfl, rfl, rfl⟩

/-- The contents a request for an execution asks for. -/
def MessageExecutionRequest.fields (request : MessageExecutionRequest) : Http.MessageFields :=
  ⟨request.channel, request.kind, request.body, request.replyTo⟩

/-- A message an execution has written, with the kernel's leave. -/
structure Message.ExecutedFor (m : Message) (w : World) (who : Identity)
    (request : MessageExecutionRequest) : Prop where
  contents : m.Carries who request.intent.conversationRef request.fields
  allowed : (request.access.decision w.now w.db).allowed = true

section Effects

variable [Sha256] [Hmac] [Base64Url]

/-- The effect adds this message to the board. -/
inductive Effect.Adds (w : World) (m : Message) : Effect → Prop
  | insert {who : Identity} {fields : Http.MessageFields} :
      m.Carries who none fields → Effect.Adds w m (.insert who fields)
  | navigate {who : Identity} {payload : Http.WritePayload} :
      m.Carries who none payload.toMessageFields → Effect.Adds w m (.navigate who payload)
  | execute {who : Identity} {request : MessageExecutionRequest} :
      m.ExecutedFor w who request → Effect.Adds w m (.execute who request)

/-- **A message that is new** has been added by the effect. -/
theorem Effect.adds_of_new {e : Effect} {w : World} {m : Message} (hnew : m ∉ w.db.messages)
    (hm : m ∈ (e.apply w).db.messages) : e.Adds w m := by
  rcases e.cases_ledger w with
    hsame | ⟨identity, fields, rfl⟩ | ⟨writer, payload, m', rfl, hw, -⟩
      | ⟨writer, request, m', rfl, hf⟩ | ⟨writer, request, m', rfl, hr⟩
  · rw [hsame.messages] at hm
    exact absurd hm hnew
  · rcases mem_append_messageRow.mp hm with hold | rfl
    · exact absurd hold hnew
    · exact .insert (carries_messageRow _ _ _ _ _)
  · rcases (hw.mem_messages m).mp hm with hold | rfl
    · exact absurd hold hnew
    · refine .navigate ?_
      rw [hw.message]
      exact carries_messageRow _ writer none payload.toMessageFields _
  · rcases (hf.mem_messages m).mp hm with hold | rfl
    · exact absurd hold hnew
    · refine .execute ⟨?_, hf.toAccepted.allowed⟩
      rw [hf.effects.message]
      exact carries_messageRow _ writer _ request.fields _
  · rw [hr.frame] at hm
    exact absurd hm hnew

end Effects

/-! ## Authors -/

section Authors

variable [Sha256] [Hmac] [Base64Url] [JsonParser] [Base64Standard] [Jwt]

omit [Sha256] [Hmac] [Base64Url] [Base64Standard] in
/-- The call calls a tool with these arguments, for this principal. -/
def Runtime.Call.Gives (settings : Settings) (past : List World) :
    Runtime.Call → Option Principal → Json.Object → Prop
  | board (.mcp headers _ given), principal, arguments =>
      CallerSeen settings.oidcVerifier headers past principal ∧ arguments = given
  | mcp headers body, principal, arguments =>
      CallerSeen settings.oidcVerifier headers past principal ∧ Mcp.TextGivesTool body arguments
  | stdio lines, principal, arguments =>
      principal = none ∧ ∃ line ∈ lines, Mcp.TextGivesTool (Text.utf8 line) arguments
  | _, _, _ => False

/-- **The call may write this message**: what it came with says so, and it has seen whose it is. -/
inductive Authentic (settings : Settings) (past : List World) (w : World) (m : Message) :
    Runtime.Call → Prop
  | navigation {participantId : String} {query' : Http.Query} {write : Http.SignedWrite}
      {who : Identity} :
      Http.parseNavigationWrite participantId query' = .ok write → ProofSeen write past who →
      m.Carries who none write.payload.toMessageFields →
      Authentic settings past w m (.board (.navigationWrite participantId query'))
  | signed {headers : Headers} {body : Bytes} {object : Json.Object} {write : Http.SignedWrite}
      {who : Identity} :
      Http.readJsonObject body = .ok object → Http.parseSignedMessage object = .ok write →
      ProofSeen write past who → m.ExecutedFor w who (Http.signedExecution write.payload) →
      Authentic settings past w m (.board (.postMessage headers body))
  /-- A human session, or the token of a client. -/
  | plain {headers : Headers} {body : Bytes} {object : Json.Object} {fields : Http.MessageFields}
      {who : Identity} :
      Http.readJsonObject body = .ok object →
      Http.messageFields Http.nameRe Http.kindRe object = .ok fields →
      SessionSeen settings.sessionKey headers past who ∨ TokenSeen headers past who →
      m.Carries who none fields → Authentic settings past w m (.board (.postMessage headers body))
  /-- A tool, for the bearer of a token or with the proof among its arguments. -/
  | tool {c : Runtime.Call} {principal : Option Principal} {arguments : Json.Object}
      {payload : Http.WritePayload} {who : Identity} :
      c.Gives settings past principal arguments → Mcp.parseWrite arguments = .ok payload →
      WriterSeen principal arguments payload past who →
      m.ExecutedFor w who (Mcp.execution principal payload) → Authentic settings past w m c
  | bearer {participantId : String} {headers : Headers} {body : Bytes} {principal : Principal}
      {fields : Http.MessageFields} {intentId named : String} {who : Identity} :
      CallerSeen settings.oidcVerifier headers past (some principal) →
      (Oidc.readJsonObject body).bind Oidc.parseMessage = .ok (fields, intentId) →
      validateParticipantId participantId = some named →
      (Seen past fun s => getWebParticipant s.db named = some who) →
      m.ExecutedFor w who (Oidc.execution principal
        { fields with participantId := named, nonce := intentId }) →
      Authentic settings past w m (.board (.oidc participantId headers body))
  | delivery {headers : Headers} {body : Bytes} {d : GithubWebhook.IssueDelivery}
      {who : Identity} :
      GithubWebhook.parseDelivery settings.github headers body = .ok d →
      (Seen past fun s => getWebParticipant s.db d.participantId = some who) →
      m.ExecutedFor w who (GithubWebhook.execution d) →
      Authentic settings past w m (.board (.github headers body))

variable {settings : Settings} {past : List World} {w : World} {m : Message} {e : Effect}

omit [Base64Standard] in
theorem authentic_of_tool {c : Runtime.Call} {given : Json.Object → Prop}
    {principal : Option Principal} (h : ToolWarrant given principal past e) (hadds : e.Adds w m)
    (hgives : e ≠ .nothing → ∀ a, given a → c.Gives settings past principal a) :
    Authentic settings past w m c := by
  rcases h with rfl | ⟨arguments, payload, writer, hgiven, hparse, hwriter, rfl⟩
  · cases hadds
  · cases hadds with
    | execute hm =>
        have hcall := hgives (fun hno => Effect.noConfusion hno) arguments hgiven
        exact .tool hcall hparse hwriter hm

omit [Base64Standard] in
theorem authentic_of_httpTool {c : Runtime.Call} {headers : Headers} {given : Json.Object → Prop}
    (h : HttpToolWarrant settings.oidcVerifier headers given past e) (hadds : e.Adds w m)
    (hgives : ∀ principal a, CallerSeen settings.oidcVerifier headers past principal → given a →
      c.Gives settings past principal a) : Authentic settings past w m c := by
  obtain ⟨principal, hcaller, htool⟩ := h
  refine authentic_of_tool htool hadds fun hne a ha => ?_
  rcases hcaller with hnothing | hcaller
  · exact absurd hnothing hne
  · exact hgives principal a hcaller ha

omit [Base64Standard] in
/-- **What adds a message under a warrant** adds an authentic one. -/
theorem authentic_of_adds {c : Runtime.Call} (h : Runtime.Call.Warrants settings past c e)
    (hadds : e.Adds w m) : Authentic settings past w m c := by
  cases c with
  | board r =>
      cases r with
      | navigationWrite participantId query' =>
          rcases h with rfl | ⟨write, writer, hparse, hproof, rfl | rfl⟩
          · cases hadds
          · cases hadds
          · cases hadds with
            | navigate hm => exact .navigation hparse hproof hm
      | postMessage headers body =>
          obtain ⟨object, rfl | ⟨hobject, hsigned | hplain⟩⟩ := h
          · cases hadds
          · rcases hsigned with rfl | ⟨write, writer, hparse, hproof, rfl | rfl⟩
            · cases hadds
            · cases hadds
            · cases hadds with
              | execute hm => exact .signed hobject hparse hproof hm
          · rcases hplain with rfl | ⟨who, fields, hseen, hfields, rfl | rfl⟩
            · cases hadds
            · cases hadds
            · cases hadds with
              | insert hm => exact .plain hobject hfields hseen hm
      | mcp headers tool arguments =>
          exact authentic_of_httpTool h hadds fun _ _ hcaller hgiven => ⟨hcaller, hgiven⟩
      | oidc participantId headers body =>
          rcases h with rfl | ⟨principal, fields, intentId, named, writer, hcaller, hparse, hnamed,
            hwho, rfl⟩
          · cases hadds
          · cases hadds with
            | execute hm => exact .bearer hcaller hparse hnamed hwho hm
      | github headers body =>
          rcases h with rfl | ⟨d, writer, hparse, hwho, rfl⟩
          · cases hadds
          · cases hadds with
            | execute hm => exact .delivery hparse hwho hm
      | authTotp body =>
          rcases h with rfl | ⟨participantId, code, now, rfl⟩
          · cases hadds
          · cases hadds
      -- the other requests read, or are what an operator does at the machine
      | _ =>
          rw [show e = _ from h] at hadds
          cases hadds
  | access headers requestTarget route =>
      rcases h with rfl | ⟨who, caller, op, -, -, rfl⟩
      · cases hadds
      · cases hadds
  | admin headers route =>
      rcases h with rfl | ⟨who, op, -, -, -, rfl⟩
      · cases hadds
      · cases hadds
  | whoami headers =>
      rw [show e = _ from h] at hadds
      cases hadds
  | authGuest =>
      rw [show e = _ from h] at hadds
      cases hadds
  | mcp headers body =>
      exact authentic_of_httpTool h hadds fun _ _ hcaller hgiven => ⟨hcaller, hgiven⟩
  | stdio lines =>
      obtain ⟨line, hline, htool⟩ := h
      refine authentic_of_tool htool hadds fun hne a ha => ?_
      rcases hline with hnothing | hline
      · exact absurd hnothing hne
      · exact ⟨rfl, line, hline, ha⟩

end Authors

/-! ## Runs -/

section Runs

variable [Sha256] [Hmac] [Base64Url] [JsonParser] [Base64Standard] [Jwt] [Mcp.UrlParser]

/-- What an event does is warranted by what its call has met. -/
theorem warranted_event {settings : Settings} {w : World}
    {moves : List (Concurrent.Move Runtime.Call)} {e : Runtime.CallEvent}
    (he : e ∈ Runtime.history settings w moves) :
    (∃ place c pre post effect, e.act = .advance place ∧ e.out = some c
      ∧ moves = pre ++ e.act :: post
      ∧ Runtime.Call.Warrants settings (Concurrent.met place (Runtime.history settings w pre)) c
          effect
      ∧ e.after.store = effect.apply e.before.store)
    ∨ e.out = none ∧ e.after.store = e.before.store := by
  rcases Concurrent.justified_history (call_justified settings) he with
    ⟨place, c, pre, post, hact, hout, hmoves, effect, hwarrant, hstore⟩ | hno
  · exact Or.inl ⟨place, c, pre, post, effect, hact, hout, hmoves, hwarrant, hstore⟩
  · exact Or.inr hno

/-- The event at which this message was written, by a call that may write it: after the moves
before, the call had met what it refers to. -/
def WrittenAt (settings : Settings) (w : World) (moves : List (Concurrent.Move Runtime.Call))
    (m : Message) (e : Runtime.CallEvent) : Prop :=
  m ∉ e.before.store.db.messages ∧ m ∈ e.after.store.db.messages
    ∧ ∃ place c pre post, e.act = .advance place ∧ e.out = some c ∧ moves = pre ++ e.act :: post
      ∧ Authentic settings (Concurrent.met place (Runtime.history settings w pre)) e.before.store m c

/-- **Every message on the board was written by a call that had seen who its author is**, whatever
calls arrive and however their transactions interleave. -/
theorem messages_authenticated (settings : Settings) (now : Int)
    (moves : List (Concurrent.Move Runtime.Call)) :
    ∀ m ∈ (Runtime.config settings ⟨Database.initial, now⟩ moves).store.db.messages,
      ∃ e ∈ Runtime.history settings ⟨Database.initial, now⟩ moves,
        WrittenAt settings ⟨Database.initial, now⟩ moves m e := by
  intro m hm
  obtain ⟨e, he, hbefore, hafter⟩ := Transition.exists_event
    (P := fun c : Concurrent.Config Runtime.Call World Runtime.Reply => m ∈ c.store.db.messages)
    (Table.not_mem_empty m) hm
  refine ⟨e, he, hbefore, hafter, ?_⟩
  rcases warranted_event he with
    ⟨place, c, pre, post, effect, hact, hout, hmoves, hwarrant, hstore⟩ | ⟨-, hstore⟩
  · rw [hstore] at hafter
    have hadds : effect.Adds e.before.store m := Effect.adds_of_new hbefore hafter
    exact ⟨place, c, pre, post, hact, hout, hmoves, authentic_of_adds hwarrant hadds⟩
  · rw [hstore] at hafter
    exact absurd hafter hbefore

end Runs

/-! ## A message under a proof -/

section Sample
attribute [local instance] sampleSha256 sampleHmac sampleBase64Url Base64Standard.padded
  sampleJsonParser sampleJwt sampleUrlParser

/-- Alice is given a secret and says hello under its proof. -/
def provedHello : List (Concurrent.Move Runtime.Call) :=
  [.start (.board (.participant (.provision "alice" "chatgpt" none))), .advance 0,
    .start (.board (.credential (.setAuthSecret "alice" sampleSecret))), .advance 1,
    .start (.board (.navigationWrite "alice" (sampleQuery none sampleProof))), .advance 2,
    .advance 2, .advance 2, .advance 2]

private def aliceHello : Message :=
  ⟨1, 0, "general", "chatgpt", "alice", none, "message", "hello", none⟩

theorem messages_authenticated_of_proof :
    ∃ e ∈ Runtime.history sampleSettings ⟨Database.initial, 0⟩ provedHello,
      WrittenAt sampleSettings ⟨Database.initial, 0⟩ provedHello aliceHello e :=
  messages_authenticated sampleSettings 0 provedHello aliceHello
    (Table.mem_rows.mp (by decide +kernel))

end Sample

end Blackboard
