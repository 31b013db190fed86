import Blackboard.Proof.Archive
import Blackboard.Proof.Kernel
import Blackboard.Proof.WriteOnce

/-!
# Which writes the kernel decides

Four routes write through the execution transaction, which asks the kernel and inserts in
one step. `GET /w` and a message of a session ask nobody: they check who it is and insert.
A principal that stands for its own participant has the capability anyway, so this makes no
difference until a durable grant speaks about it. From then on the grant restricts the
principal on the four routes and not on the other two (`mediated_iff`).
-/

namespace Blackboard

open Relational (orderBy mem_orderBy Table)
open Concurrent (Program)

/-! ## What the kernel answers a participant about itself -/

namespace AccessRequest

variable (q : AccessRequest)

/-- Durable grants speak about the capability, and none of them covers the resource. -/
def Restricted (db : Database) : Prop :=
  (∃ g ∈ db.principalGrants, q.HoldsDurable g) ∧ ¬ q.DurableAuthority db

/-- The first delegated grant that covers the request is fresh, or this intent has used it and has
the receipt. -/
def Delegated (now : Int) (db : Database) : Prop :=
  ∃ intentId g, q.intentId = some intentId
    ∧ (orderBy (fun a b => delegatedGrantOrder a ≤ delegatedGrantOrder b)
        (activeDelegatedGrants db q.principal q.participantId q.capability)).find?
        (fun g => (delegatedDenial now q.resource intentId g).isNone) = some g
    ∧ (g.oneShot ≠ 0 → g.consumedAt ≠ none →
        committedReceiptExists db q.participantId intentId = true)

/-- A participant asks to post as itself. -/
structure OwnPost : Prop where
  provider : q.principal.provider = "participant-hmac" ∨ q.principal.provider = "human-web"
  subject : q.principal.subject = q.participantId
  capability : q.capability = postMessage

end AccessRequest

variable {q : AccessRequest} {db : Database}

/-- A participant may post as itself by what it is. -/
theorem AccessRequest.OwnPost.implicit (h : q.OwnPost) (row : ParticipantPolicyRow) :
    (implicitAuthorityReason q.principal q.participantId q.capability q.resource row).isSome
      = true := by
  have hlookup : humanWebAdminCapabilities.lookup postMessage = none := by decide
  have hmanage : postMessage ≠ manageChannels := by decide
  have hown : ownCapabilities.contains postMessage = true := by decide
  unfold implicitAuthorityReason
  dsimp only
  rw [if_pos ⟨h.provider, h.subject⟩, h.capability, hlookup]
  dsimp only
  rw [if_neg hmanage, if_pos hown]
  split
  · rfl
  · rfl

/-- The durable part of the cascade refuses a participant only where a grant restricts it. -/
theorem AccessRequest.OwnPost.not_restricted_iff (h : q.OwnPost) {row : ParticipantPolicyRow}
    (hrow : participantPolicyRow db q.participantId = some row) :
    ¬ q.Restricted db ↔ q.DurableAuthority db ∨ q.ImplicitAuthority db := by
  constructor
  · intro hfree
    by_cases hdurable : q.DurableAuthority db
    · exact Or.inl hdurable
    · refine Or.inr ⟨fun g hg hheld => ?_, row, hrow, h.implicit row⟩
      exact hfree ⟨⟨g, hg, hheld⟩, hdurable⟩
  · rintro hauthority ⟨⟨g, hg, hheld⟩, hdurable⟩
    rcases hauthority with hd | hi
    · exact hdurable hd
    · exact hi.1 g hg hheld

/-- The delegated part of the cascade, whatever the store. -/
theorem delegatedLoop_allowed_iff (q : AccessRequest) (now : Int) (db : Database)
    {intentId : String} (hintent : q.intentId = some intentId) :
    (∃ d, delegatedLoop now db q.participantId q.resource intentId
        (orderBy (fun a b => delegatedGrantOrder a ≤ delegatedGrantOrder b)
          (activeDelegatedGrants db q.principal q.participantId q.capability)) none = some d
        ∧ d.allowed = true) ↔ q.Delegated now db := by
  rw [delegatedLoop_eq]
  unfold AccessRequest.Delegated
  cases hf : (orderBy (fun a b => delegatedGrantOrder a ≤ delegatedGrantOrder b)
      (activeDelegatedGrants db q.principal q.participantId q.capability)).find?
      fun g => (delegatedDenial now q.resource intentId g).isNone with
  | some g =>
      dsimp only
      constructor
      · rintro ⟨d, hd, hallowed⟩
        rw [← Option.some.inj hd] at hallowed
        refine ⟨intentId, g, hintent, hf, fun hone hconsumed => ?_⟩
        rcases delegatedDecision_cases db q.participantId intentId g with
          ⟨-, -, hreceipt, -⟩ | ⟨-, -, -, hdeny⟩ | ⟨hfresh, -⟩
        · exact hreceipt
        · rw [hdeny] at hallowed
          exact absurd hallowed (by simp)
        · exact absurd (hfresh hone) hconsumed
      · rintro ⟨intentId', g', hintent', hf', hreceipt⟩
        obtain rfl := Option.some.inj (hintent.symm.trans hintent')
        obtain rfl := Option.some.inj (hf.symm.trans hf')
        refine ⟨_, rfl, ?_⟩
        rcases delegatedDecision_cases db q.participantId intentId g with
          ⟨-, -, -, hallow⟩ | ⟨hone, hconsumed, hno, -⟩ | ⟨-, hallow⟩
        · rw [hallow]
          rfl
        · rw [hreceipt hone hconsumed] at hno
          exact absurd hno (by simp)
        · rw [hallow]
          rfl
  | none =>
      dsimp only
      constructor
      · rintro ⟨d, hd, hallowed⟩
        simp only [Option.none_or, Option.bind_eq_some_iff, Option.map_eq_some_iff] at hd
        obtain ⟨g, -, reason, -, rfl⟩ := hd
        exact absurd hallowed (by simp)
      · rintro ⟨intentId', g, hintent', hf', -⟩
        obtain rfl := Option.some.inj (hintent.symm.trans hintent')
        rw [hf] at hf'
        exact absurd hf' (by simp)

/-- **What the kernel answers a participant that posts as itself.** -/
theorem AccessRequest.OwnPost.allowed_iff (h : q.OwnPost) (now : Int) (db : Database) :
    (q.decision now db).allowed = true
      ↔ q.ParticipantActive db ∧ (¬ q.Restricted db ∨ q.Delegated now db) := by
  unfold AccessRequest.decision evaluateAuthorizationCurrentSchema
  cases hrow : participantPolicyRow db q.participantId with
  | none =>
      have hmissing : ¬ q.ParticipantActive db := by
        rintro ⟨p, hp, hid, -⟩
        rw [participantPolicyRow_eq_some.mpr ⟨p, hp, hid, rfl⟩] at hrow
        exact absurd hrow (by simp)
      simp [hmissing]
  | some row =>
      obtain ⟨p, hp, hid, hrow'⟩ := participantPolicyRow_eq_some.mp hrow
      have hactive : q.ParticipantActive db ↔ row.status = "active" := by
        constructor
        · rintro ⟨p', hp', hid', hs⟩
          rw [Table.eq_of_key hp hp' (hid.trans hid'.symm)] at hrow'
          rw [hrow']
          exact hs
        · intro hs
          rw [hrow'] at hs
          exact ⟨p, hp, hid, hs⟩
      simp only [ne_eq]
      split
      · rename_i hinactive
        have hno : ¬ q.ParticipantActive db := fun ha => hinactive (hactive.mp ha)
        simp [hno]
      · rename_i hstatus
        have hyes : q.ParticipantActive db := hactive.mpr (not_not.mp hstatus)
        have hfree := h.not_restricted_iff hrow
        rcases durableOrImplicit_cases hrow with ⟨d, hd, hallowed, -, hauth⟩ | ⟨hnone, hauth⟩
        · rw [hd]
          exact ⟨fun _ => ⟨hyes, Or.inl (hfree.mpr hauth)⟩, fun _ => hallowed⟩
        · -- a grant restricts the participant: a delegated one has to help
          have hrestricted : ¬ ¬ q.Restricted db := fun hr => hauth (hfree.mp hr)
          rw [hnone]
          cases hintent : q.intentId with
          | none =>
              have hdelegated : ¬ q.Delegated now db := by
                rintro ⟨intentId, g, hi, -⟩
                rw [hintent] at hi
                exact absurd hi (by simp)
              simp only [Option.bind_none]
              constructor
              · intro hallowed
                split at hallowed
                · exact absurd hallowed (by simp)
                · exact absurd hallowed (by simp)
              · rintro ⟨-, hr | hd⟩
                · exact absurd hr hrestricted
                · exact absurd hd hdelegated
          | some intentId =>
              have hloop := delegatedLoop_allowed_iff q now db hintent
              simp only [Option.bind_some]
              constructor
              · intro hallowed
                refine ⟨hyes, Or.inr (hloop.mp ?_)⟩
                split at hallowed
                · rename_i d hd
                  exact ⟨d, hd, hallowed⟩
                · split at hallowed
                  · exact absurd hallowed (by simp)
                  · exact absurd hallowed (by simp)
              · rintro ⟨-, hr | hd⟩
                · exact absurd hr hrestricted
                · obtain ⟨d, hd, hallowed⟩ := hloop.mpr hd
                  rw [hd]
                  exact hallowed

/-! ## Who writes -/

def humanWeb (participantId : String) : Principal := ⟨"human-web", participantId⟩

/-- Who a write turned out to come from, and the intent id it is made under. -/
structure Author where
  principal : Principal
  intentId : Option String

section Server

variable [Sha256] [Hmac] [Base64Url] [JsonParser]

omit [Sha256] [Hmac] [Base64Url] in
/-- The routes that end in an execution. -/
def Request.Executes : Request → Prop
  | .postMessage _ body => ∃ object, Http.readJsonObject body = .ok object
      ∧ Http.isSigned object = true
  | .mcp .. | .oidc .. | .github .. => True
  | _ => False

omit [Sha256] [Hmac] [Base64Url] in
/-- A message of a registered client: it has a bearer token of its own and is no participant. -/
def Request.ByClient : Request → Prop
  | .postMessage headers body => headers.containsKey WebAuth.webSessionHeader = false
      ∧ ¬ Request.Executes (.postMessage headers body)
  | _ => False

variable [Jwt]

/-- The author a request authenticates. `GET /w` calls its intent id a nonce. -/
def Request.AuthoredBy (settings : Settings) : Request → Author → Prop
  | .navigationWrite participantId query, a =>
      ∃ write, Http.parseNavigationWrite participantId query = .ok write
        ∧ a = ⟨Http.participantHmac write.payload.participantId, some write.payload.nonce⟩
  | .postMessage headers body, a =>
      ∃ object, Http.readJsonObject body = .ok object
        ∧ if Http.isSigned object then
            ∃ write, Http.parseSignedMessage object = .ok write
              ∧ a = ⟨Http.participantHmac write.payload.participantId, some write.payload.nonce⟩
          else
            ∃ now session, sessionAt settings.sessionKey headers now = some session
              ∧ session.sessionType = .humanWeb ∧ a = ⟨humanWeb session.participantId, none⟩
  | .mcp headers .blackboardWrite arguments, a =>
      ∃ principal write, CallPrincipal settings.oidcVerifier headers principal
        ∧ Mcp.parseWrite arguments = .ok write
        ∧ a = ⟨principal.getD (Http.participantHmac write.participantId), some write.nonce⟩
  | .oidc _ headers body, a =>
      ∃ principal fields intentId, BearerVerified settings.oidcVerifier headers principal
        ∧ (Oidc.readJsonObject body).bind Oidc.parseMessage = .ok (fields, intentId)
        ∧ a = ⟨principal, some intentId⟩
  | .github headers body, a =>
      ∃ d, GithubWebhook.parseDelivery settings.github headers body = .ok d
        ∧ a = ⟨GithubWebhook.principal d.sender, some d.nonce⟩
  | _, _ => False

/-- What a request writes it writes for an author it has authenticated. -/
def Request.Writes (settings : Settings) (r : Request) : Effect → Prop
  | .execute _ request => r.Executes ∧ ∃ a, r.AuthoredBy settings a
      ∧ request.authority.principal = a.principal ∧ a.intentId = some request.intent.intentId
  | .navigate writer payload => ¬ r.Executes
      ∧ r.AuthoredBy settings ⟨Http.participantHmac writer.inst, some payload.nonce⟩
  | .insert identity _ =>
      r.ByClient ∨ ¬ r.Executes ∧ r.AuthoredBy settings ⟨humanWeb identity.inst, none⟩
  | _ => True

theorem authors_postMessage (settings : Settings) (headers : Headers) (body : Bytes) :
    (Http.postMessage settings.sessionKey headers body).Steps
      (Does (Request.Writes settings (.postMessage headers body))) := by
  have hnothing : Request.Writes settings (.postMessage headers body) .nothing := trivial
  cases hread : Http.readJsonObject body with
  | error e =>
      unfold Http.postMessage
      refine Program.steps_bind (steps_verifiedWebSession hnothing _ headers) fun session => ?_
      split
      · trivial
      · rw [hread]
        trivial
  | ok object =>
      by_cases hsigned : Http.isSigned object = true
      · refine (steps_postMessage_of_isSigned hread hsigned settings.sessionKey headers).mono
          fun _ _ hd => hd.mono fun e he => ?_
        rcases he with rfl | ⟨write, writer, hparse, hinst, rfl | rfl⟩
        · trivial
        · trivial
        · refine ⟨⟨object, hread, hsigned⟩, ⟨Http.participantHmac write.payload.participantId,
            some write.payload.nonce⟩, ⟨object, hread, ?_⟩, rfl, rfl⟩
          rw [if_pos hsigned]
          exact ⟨write, hparse, rfl⟩
      · have hplain : ¬ Request.Executes (.postMessage headers body) := by
          rintro ⟨object', hread', hsigned'⟩
          rw [hread] at hread'
          exact hsigned (Except.ok.inj hread' ▸ hsigned')
        unfold Http.postMessage
        refine Program.steps_bind (steps_verifiedWebSession hnothing _ headers) fun session => ?_
        split
        · trivial
        · rw [hread]
          dsimp only
          split
          · trivial
          · refine steps_postPlainMessage _ hnothing
              (within_resolveRequestIdentity hnothing settings.sessionKey headers) ?_
            intro identity fields e hfrom _ he
            rcases he with rfl | rfl
            · trivial
            · by_cases hkey : headers.containsKey WebAuth.webSessionHeader = true
              · obtain ⟨now, session, hnow, hkind, hinst⟩ := hfrom hkey
                refine Or.inr ⟨hplain, object, hread, ?_⟩
                rw [if_neg hsigned, hinst]
                exact ⟨now, session, hnow, hkind, rfl⟩
              · rw [Bool.not_eq_true] at hkey
                exact Or.inl ⟨hkey, hplain⟩

/-- **Every write has an author.** -/
theorem serve_authors (settings : Settings) (r : Request) :
    (serve settings r).Steps (Does (r.Writes settings)) := by
  cases r with
  | navigationWrite participantId query =>
      refine (serve_steps settings (.navigationWrite participantId query)).mono fun _ _ hd =>
        hd.mono fun e he => ?_
      rcases he with rfl | ⟨write, writer, hparse, hinst, rfl | rfl⟩
      · trivial
      · trivial
      · refine ⟨fun h => h, write, hparse, ?_⟩
        rw [hinst]
  | postMessage headers body => exact authors_postMessage settings headers body
  | mcp headers tool arguments =>
      refine steps_mcpPost trivial fun principal w writer htool hcall hparse _ => ?_
      subst htool
      refine ⟨trivial, _, ⟨principal, w, hcall, hparse, rfl⟩, ?_⟩
      cases principal with
      | none => exact ⟨rfl, rfl⟩
      | some principal => exact ⟨rfl, rfl⟩
  | oidc participantId headers body =>
      unfold serve
      cases hverifier : settings.oidcVerifier with
      | none => trivial
      | some verifier =>
          refine steps_oidcPost trivial
            fun principal fields intentId named writer hbearer hparse _ _ => ?_
          rw [← hverifier] at hbearer
          exact ⟨trivial, _, ⟨principal, fields, intentId, hbearer, hparse, rfl⟩, rfl, rfl⟩
  | github headers body =>
      refine (serve_steps settings (.github headers body)).mono fun _ _ hd =>
        hd.mono fun e he => ?_
      rcases he with rfl | ⟨d, writer, hparse, -, rfl⟩
      · trivial
      · exact ⟨trivial, _, ⟨d, hparse, rfl⟩, rfl, rfl⟩
  | authTotp body =>
      refine (serve_steps settings (.authTotp body)).mono fun _ _ hd => hd.mono fun e he => ?_
      rcases he with rfl | ⟨participantId, code, now, rfl⟩
      · trivial
      · trivial
  | _ =>
      refine (serve_steps settings _).mono fun _ _ hd => hd.mono fun e he => ?_
      rw [show e = _ from he]
      trivial

/-! ## Runs -/

/-- What an author asks of the kernel to put a message where it stands. -/
def Author.asks (a : Author) (m : Message) : AccessRequest :=
  ⟨a.principal, m.inst, postMessage, some m.channel, a.intentId⟩

/-- The kernel allows the message. -/
def Author.Allowed (a : Author) (m : Message) (w : World) : Prop :=
  (evaluateAuthorization w.now w.db a.principal m.inst postMessage (some m.channel)
    a.intentId).allowed = true

omit [Sha256] [Hmac] [Base64Url] [JsonParser] [Jwt] in
theorem Author.allowed_iff {a : Author} {m : Message} {w : World} (h : (a.asks m).OwnPost) :
    a.Allowed m w ↔ (a.asks m).ParticipantActive w.db
      ∧ (¬ (a.asks m).Restricted w.db ∨ (a.asks m).Delegated w.now w.db) :=
  h.allowed_iff w.now w.db

omit [Sha256] [Hmac] [Base64Url] [JsonParser] [Jwt] in
theorem eq_messageRow_of_mem {t t' : Table Message.id} {now : Int} {identity : Identity}
    {channel : String} {conversationRef : Option String} {kind body : String}
    {replyTo : Option Int} {m : Message}
    (h : t' = t.append (messageRow now identity channel conversationRef kind body replyTo)
      (messageRow_id now identity channel conversationRef kind body replyTo))
    (hm : m ∈ t') (hnew : m ∉ t) : m.inst = identity.inst ∧ m.channel = channel := by
  rw [h] at hm
  rcases mem_append_messageRow.mp hm with hold | rfl
  · exact absurd hold hnew
  · exact ⟨rfl, rfl⟩

/-- **Which writes the kernel would allow.** An execution it has allowed. Of the other writes it
would allow those of an active participant no durable grant restricts, or a delegated grant lets
through. -/
theorem mediated_iff (settings : Settings) (s : World) (moves : List Move) :
    ∀ e ∈ serverHistory settings s moves, ∀ r m, e.out = some r → ¬ r.ByClient →
      m ∈ e.after.store.db.messages → m ∉ e.before.store.db.messages →
      ∃ a, r.AuthoredBy settings a
        ∧ (a.Allowed m e.before.store ↔ r.Executes
          ∨ (a.asks m).ParticipantActive e.before.store.db
            ∧ (¬ (a.asks m).Restricted e.before.store.db
              ∨ (a.asks m).Delegated e.before.store.now e.before.store.db)) := by
  intro e he r m hout hclient hm hnew
  rcases Concurrent.steps_history (fun r => serve_authors settings r) he with
    ⟨r', hout', effect, hwrites, hafter⟩ | ⟨-, hsame⟩
  · obtain rfl := Option.some.inj (hout'.symm.trans hout)
    have hown : ∀ a : Author, ¬ r'.Executes → (a.asks m).OwnPost →
        (a.Allowed m e.before.store ↔ r'.Executes
          ∨ (a.asks m).ParticipantActive e.before.store.db
            ∧ (¬ (a.asks m).Restricted e.before.store.db
              ∨ (a.asks m).Delegated e.before.store.now e.before.store.db)) := by
      intro a hplain hself
      rw [Author.allowed_iff hself]
      constructor
      · exact Or.inr
      · intro h
        exact h.resolve_left hplain
    rw [hafter] at hm
    rcases effect.cases_ledger e.before.store with
      hsame | ⟨identity, fields, rfl⟩ | ⟨writer, payload, m', rfl, hw, -⟩
        | ⟨writer, request, m', rfl, hf⟩ | ⟨writer, request, m', rfl, hr⟩
    · rw [hsame.messages] at hm
      exact absurd hm hnew
    · -- a message of a session
      obtain ⟨hinst, -⟩ := eq_messageRow_of_mem (t := e.before.store.db.messages) rfl hm hnew
      obtain ⟨hplain, hauthor⟩ := hwrites.resolve_left hclient
      exact ⟨_, hauthor, hown _ hplain ⟨Or.inr rfl, hinst.symm, rfl⟩⟩
    · -- `GET /w`
      obtain ⟨hinst, -⟩ := eq_messageRow_of_mem hw.messages hm hnew
      obtain ⟨hplain, hauthor⟩ := hwrites
      exact ⟨_, hauthor, hown _ hplain ⟨Or.inl rfl, hinst.symm, rfl⟩⟩
    · -- an execution has asked the kernel in this very store
      obtain ⟨hinst, hchannel⟩ := eq_messageRow_of_mem hf.effects.messages hm hnew
      obtain ⟨hexecutes, a, hauthor, hprincipal, hintent⟩ := hwrites
      refine ⟨a, hauthor, fun _ => Or.inl hexecutes, fun _ => ?_⟩
      have hallowed := hf.toAccepted.allowed
      obtain ⟨-, -, hparticipant, hcapability, hresource, -⟩ := hf.toAccepted.consistent
      unfold executionDecision at hallowed
      rw [← hparticipant, hcapability, hresource, hprincipal, ← hintent] at hallowed
      unfold Author.Allowed
      rw [hinst, hchannel]
      exact hallowed
    · rw [show (Effect.apply (.execute writer request) e.before.store).db = _ from hr.frame] at hm
      exact absurd hm hnew
  · rw [hsame] at hm
    exact absurd hm hnew

end Server

/-! ## A participant a grant restricts -/

section Sample

attribute [local instance] sampleSha256 sampleHmac sampleBase64Url sampleJsonParser sampleJwt

/-- Alice may post in another channel and nowhere else. -/
private def elsewhereOnly : DurableGrant :=
  ⟨1, "participant-hmac", "alice", "alice", postMessage, some "announcements", "active", 0, 0⟩

private def restrictedStore : Database :=
  { sampleStore with principalGrants := Table.empty.insertOrIgnore elsewhereOnly }

private def hello : Request := .navigationWrite "alice" (sampleQuery none sampleProof)

/-- She says hello in `general`. -/
def sayHello : List Move := [.start hello, .advance 0, .advance 0, .advance 0, .advance 0]

private def beforeHello (db : Database) : Concurrent.Config Request World Response :=
  Transition.run (Concurrent.step (serve sampleSettings)) ⟨⟨db, 0⟩, []⟩ (sayHello.take 4)

private def helloSaid (db : Database) : ServerEvent :=
  ⟨beforeHello db, .advance 0,
    (Concurrent.step (serve sampleSettings) (.advance 0) (beforeHello db)).1,
    (Concurrent.step (serve sampleSettings) (.advance 0) (beforeHello db)).2⟩

private def helloMessage : Message :=
  ⟨1, 0, "general", "chatgpt", "alice", none, "message", "hello", none⟩

private theorem helloSaid_mem (db : Database) :
    helloSaid db ∈ serverHistory sampleSettings ⟨db, 0⟩ sayHello :=
  Transition.last_mem_history _ _ _ _

private def Request.navigation : Request → Option (String × Http.Query)
  | .navigationWrite participantId query => some (participantId, query)
  | _ => none

private theorem out_helloSaid {db : Database}
    (h : (helloSaid db).out.bind Request.navigation
      = some ("alice", sampleQuery none sampleProof)) : (helloSaid db).out = some hello := by
  obtain ⟨r, hr, hnavigation⟩ := Option.bind_eq_some_iff.mp h
  rw [hr]
  cases r with
  | navigationWrite participantId query =>
      obtain ⟨rfl, rfl⟩ := Prod.mk.inj (Option.some.inj hnavigation)
      rfl
  | _ => exact absurd hnavigation (by simp [Request.navigation])

/-- Where no grant restricts her, the kernel would allow what she says. -/
theorem hello_allowed :
    ∃ a, hello.AuthoredBy sampleSettings a
      ∧ a.Allowed helloMessage (helloSaid sampleStore).before.store := by
  have hm : helloMessage ∈ (helloSaid sampleStore).after.store.db.messages.rows := by
    decide +kernel
  have hnew : helloMessage ∉ (helloSaid sampleStore).before.store.db.messages.rows := by
    decide +kernel
  have hout : (helloSaid sampleStore).out = some hello := out_helloSaid (by decide +kernel)
  obtain ⟨a, hauthor, hiff⟩ := mediated_iff sampleSettings _ sayHello _ (helloSaid_mem sampleStore)
    hello helloMessage hout (fun h => h) (Table.mem_rows.mp hm) (fun h => hnew (Table.mem_rows.mpr h))
  refine ⟨a, hauthor, hiff.mpr (Or.inr ⟨?_, Or.inl ?_⟩)⟩
  · have hactive : (helloSaid sampleStore).before.store.db.webParticipants.rows.any (fun p =>
        decide (p.participantId = helloMessage.inst ∧ p.status = "active")) = true := by
      decide +kernel
    obtain ⟨p, hp, hholds⟩ := List.any_eq_true.mp hactive
    exact ⟨p, Table.mem_rows.mp hp, of_decide_eq_true hholds⟩
  · have hgrants : (helloSaid sampleStore).before.store.db.principalGrants.rows = [] := by
      decide +kernel
    rintro ⟨⟨g, hg, -⟩, -⟩
    rw [← Table.mem_rows, hgrants] at hg
    exact absurd hg List.not_mem_nil

/-- The grant restricts her, and `GET /w` does not ask. -/
theorem restricted_participant_says_hello :
    ¬ ∀ e ∈ serverHistory sampleSettings ⟨restrictedStore, 0⟩ sayHello, ∀ r m, e.out = some r →
      ¬ r.ByClient → m ∈ e.after.store.db.messages → m ∉ e.before.store.db.messages →
      ∃ a, r.AuthoredBy sampleSettings a ∧ a.Allowed m e.before.store := by
  intro h
  have hm : helloMessage ∈ (helloSaid restrictedStore).after.store.db.messages.rows := by
    decide +kernel
  have hnew : helloMessage ∉ (helloSaid restrictedStore).before.store.db.messages.rows := by
    decide +kernel
  have hout : (helloSaid restrictedStore).out = some hello := out_helloSaid (by decide +kernel)
  obtain ⟨a, ⟨write, hparse, rfl⟩, hallowed⟩ := h _ (helloSaid_mem restrictedStore) hello
    helloMessage hout (fun h => h) (Table.mem_rows.mp hm) (fun h => hnew (Table.mem_rows.mpr h))
  have hwrite : Http.parseNavigationWrite "alice" (sampleQuery none sampleProof)
      = .ok ⟨samplePayload none, sampleProof⟩ := by decide +kernel
  obtain rfl := Except.ok.inj (hwrite.symm.trans hparse)
  have hdenied : (evaluateAuthorization (helloSaid restrictedStore).before.store.now
      (helloSaid restrictedStore).before.store.db (Http.participantHmac "alice") "alice"
      postMessage (some "general") (some "intent-00000001")).allowed = false := by
    decide +kernel
  exact absurd (hdenied.symm.trans hallowed) (by simp)

end Sample

end Blackboard
