import Blackboard.Proof.Effects

/-!
# A captured proof buys one message

Three routes take a participant's proof: `GET /w`, the signed `POST /api/messages` and the
tool `blackboard_write`. They reach the store by two different transactions, but both
reserve the participant's nonce before they insert, and nothing takes a reservation away.
So of all the requests that carry one participant's nonce, whoever sends them and however
often, at most one inserts a message.
-/

namespace Blackboard

open Relational (Table)
open Concurrent (Program)

section Server

variable [Sha256] [Hmac] [Base64Url] [JsonParser]

/-! ## The write a request carries -/

omit [Sha256] [Hmac] [Base64Url] in
/-- The write a request asks for under a proof, over one of the three routes. -/
def Request.carries : Request → Option Http.WritePayload
  | .navigationWrite participantId query =>
      (Http.parseNavigationWrite participantId query).toOption.map Http.SignedWrite.payload
  | .postMessage _ body =>
      match Http.readJsonObject body with
      | .error _ => none
      | .ok object =>
          if Http.isSigned object then
            (Http.parseSignedMessage object).toOption.map Http.SignedWrite.payload
          else none
  | .mcp _ .blackboardWrite arguments => (Mcp.parseWrite arguments).toOption
  | _ => none

/-- The pair a write reserves. -/
def Http.WritePayload.pair (w : Http.WritePayload) : Pair := (w.participantId, w.nonce)

/-- An execution of a write. -/
structure ExecutesWrite (w : Http.WritePayload) (writer : Identity)
    (request : MessageExecutionRequest) : Prop where
  writer : writer.inst = w.participantId
  intentId : request.intent.intentId = w.nonce
  conversationRef : request.intent.conversationRef = none
  channel : request.channel = w.channel
  kind : request.kind = w.kind
  body : request.body = w.body
  replyTo : request.replyTo = w.replyTo

/-- The effects of a request that carries a write. -/
def WriteEffect (w : Http.WritePayload) (e : Effect) : Prop :=
  e = .nothing
    ∨ (∃ createdBy, e = .ensureChannel w.channel createdBy)
    ∨ (∃ writer, writer.inst = w.participantId ∧ e = .navigate writer w)
    ∨ ∃ writer request, ExecutesWrite w writer request ∧ e = .execute writer request

omit [Hmac] [Base64Url] [JsonParser] in
theorem executesWrite_signed {w : Http.WritePayload} {writer : Identity}
    (h : writer.inst = w.participantId) : ExecutesWrite w writer (Http.signedExecution w) :=
  ⟨h, rfl, rfl, rfl, rfl, rfl, rfl⟩

omit [Hmac] [Base64Url] [JsonParser] in
theorem executesWrite_mcp {w : Http.WritePayload} {writer : Identity}
    (h : writer.inst = w.participantId) (principal : Option Principal) :
    ExecutesWrite w writer (Mcp.execution principal w) := by
  cases principal with
  | none => exact ⟨h, rfl, rfl, rfl, rfl, rfl, rfl⟩
  | some principal => exact ⟨h, rfl, rfl, rfl, rfl, rfl, rfl⟩

/-- A request with the members of a signed one takes the signed route. -/
theorem steps_postMessage_of_isSigned {body : Bytes} {object : Json.Object}
    (hread : Http.readJsonObject body = .ok object) (hsigned : Http.isSigned object = true)
    (key : Bytes) (headers : Headers) :
    (Http.postMessage key headers body).Steps (Does (SignedEffect object)) := by
  have hnothing : SignedEffect object .nothing := Or.inl rfl
  unfold Http.postMessage
  refine Program.steps_bind (steps_verifiedWebSession hnothing key headers) fun session => ?_
  split
  · trivial
  · rw [hread]
    dsimp only
    split
    · trivial
    · exact steps_postSignedMessage object

variable [Jwt]

/-- **What a request that carries a write may do.** -/
theorem serve_writes (settings : Settings) {r : Request} {w : Http.WritePayload}
    (h : r.carries = some w) : (serve settings r).Steps (Does (WriteEffect w)) := by
  cases r with
  | navigationWrite participantId query =>
      obtain ⟨write, hparse, hw⟩ := Option.map_eq_some_iff.mp h
      refine (serve_steps settings (.navigationWrite participantId query)).mono fun _ _ hd =>
        hd.mono fun e he => ?_
      rcases he with he | ⟨write', writer, hparse', hinst, he⟩
      · exact Or.inl he
      · have hwrite : write' = write := by
          rw [hparse'] at hparse
          exact Option.some.inj hparse
        rw [hwrite, hw] at hinst he
        rcases he with he | he
        · exact Or.inr (Or.inl ⟨_, he⟩)
        · exact Or.inr (Or.inr (Or.inl ⟨writer, hinst, he⟩))
  | postMessage headers body =>
      simp only [Request.carries] at h
      split at h
      · exact absurd h (by simp)
      · rename_i object hread
        by_cases hsigned : Http.isSigned object = true
        · rw [if_pos hsigned] at h
          obtain ⟨write, hparse, hw⟩ := Option.map_eq_some_iff.mp h
          refine (steps_postMessage_of_isSigned hread hsigned settings.sessionKey headers).mono
            fun _ _ hd => hd.mono fun e he => ?_
          rcases he with he | ⟨write', writer, hparse', hinst, he⟩
          · exact Or.inl he
          · have hwrite : write' = write := by
              rw [hparse'] at hparse
              exact Option.some.inj hparse
            rw [hwrite, hw] at hinst he
            rcases he with he | he
            · exact Or.inr (Or.inl ⟨_, he⟩)
            · exact Or.inr (Or.inr (Or.inr ⟨writer, _, executesWrite_signed hinst, he⟩))
        · rw [if_neg hsigned] at h
          exact absurd h (by simp)
  | mcp headers tool arguments =>
      cases tool with
      | blackboardRead => exact absurd h (by simp [Request.carries])
      | blackboardWrite =>
          refine (serve_steps settings (.mcp headers .blackboardWrite arguments)).mono
            fun _ _ hd => hd.mono fun e he => ?_
          rcases he with he | ⟨w', writer, principal, hparse', hinst, he⟩
          · exact Or.inl he
          · have hw : w' = w := by
              simp only [Request.carries, hparse'] at h
              exact Option.some.inj h
            rw [hw] at hinst he
            exact Or.inr (Or.inr (Or.inr ⟨writer, _, executesWrite_mcp hinst principal, he⟩))
  | _ => exact absurd h (by simp [Request.carries])

/-! ## One write -/

/-- A message is inserted for a write: the pair was free, and now it is not. -/
structure Inserts (w : Http.WritePayload) (s s' : World) : Prop where
  free : s.db.navigationWrites.find w.pair = none
  reserved : s'.db.navigationWrites.find w.pair ≠ none
  message : ∃ m, s'.db.messages.rows = s.db.messages.rows ++ [m] ∧ m.inst = w.participantId
    ∧ m.channel = w.channel ∧ m.kind = w.kind ∧ m.body = w.body ∧ m.replyTo = w.replyTo

omit [Hmac] [Base64Url] [JsonParser] [Jwt] in
theorem FirstExecuted.inserts {w : Http.WritePayload} {writer : Identity}
    {request : MessageExecutionRequest} {now now' : Int} {db db' : Database} {m : Message}
    (h : FirstExecuted now writer request db m db') (he : ExecutesWrite w writer request) :
    Inserts w ⟨db, now'⟩ ⟨db', now'⟩ := by
  have hpair : executionPair writer request = w.pair :=
    Prod.ext he.writer he.intentId
  have hfree := h.free
  have hnavigation := h.navigation w.pair
  rw [hpair] at hfree hnavigation
  rw [if_pos rfl] at hnavigation
  refine ⟨hfree, ?_, m, ?_, ?_, ?_, ?_, ?_, ?_⟩
  · show db'.navigationWrites.find w.pair ≠ none
    rw [hnavigation]
    simp
  · show db'.messages.rows = db.messages.rows ++ [m]
    rw [h.effects.messages, Table.rows_append, ← h.effects.message]
  · rw [h.effects.message]
    exact he.writer
  · rw [h.effects.message]
    exact he.channel
  · rw [h.effects.message]
    exact he.kind
  · rw [h.effects.message]
    exact he.body
  · rw [h.effects.message]
    exact he.replyTo

omit [Sha256] [Hmac] [Base64Url] [JsonParser] [Jwt] in
theorem NavigationWritten.inserts {w : Http.WritePayload} {writer : Identity} {now now' : Int}
    {input : NavigationMessageInput} {db db' : Database} {m : Message}
    (h : NavigationWritten now writer input db m db') (hinst : writer.inst = w.participantId)
    (hnonce : input.nonce = w.nonce) (hchannel : input.channel = w.channel)
    (hkind : input.kind = w.kind) (hbody : input.body = w.body)
    (hreply : input.replyTo = w.replyTo) : Inserts w ⟨db, now'⟩ ⟨db', now'⟩ := by
  have hpair : (writer.inst, input.nonce) = w.pair := Prod.ext hinst hnonce
  have hfree := h.free
  have hnavigation := h.navigation w.pair
  rw [hpair] at hfree hnavigation
  rw [if_pos rfl] at hnavigation
  refine ⟨hfree, ?_, m, ?_, ?_, ?_, ?_, ?_, ?_⟩
  · show db'.navigationWrites.find w.pair ≠ none
    rw [hnavigation]
    simp
  · show db'.messages.rows = db.messages.rows ++ [m]
    rw [h.messages, Table.rows_append, ← h.message]
  · rw [h.message]
    exact hinst
  · rw [h.message]
    exact hchannel
  · rw [h.message]
    exact hkind
  · rw [h.message]
    exact hbody
  · rw [h.message]
    exact hreply

omit [JsonParser] [Jwt] in
/-- **A transaction of a write inserts its message, or none.** -/
theorem inserts_of_writeEffect {w : Http.WritePayload} {e : Effect} (he : WriteEffect w e)
    (s : World) : (e.apply s).db.messages.rows = s.db.messages.rows ∨ Inserts w s (e.apply s) := by
  rcases e.cases_ledger s with
    hsame | ⟨identity, fields, rfl⟩ | ⟨writer, payload, m, rfl, hw, -⟩
      | ⟨writer, request, m, rfl, hf⟩ | ⟨writer, request, m, rfl, hr⟩
  · exact Or.inl (by rw [hsame.messages])
  · rcases he with he | ⟨_, he⟩ | ⟨_, -, he⟩ | ⟨_, _, -, he⟩
    all_goals exact Effect.noConfusion he
  · rcases he with he | ⟨_, he⟩ | ⟨writer', hinst, he⟩ | ⟨_, _, -, he⟩
    · exact Effect.noConfusion he
    · exact Effect.noConfusion he
    · obtain ⟨rfl, rfl⟩ := Effect.navigate.inj he
      exact Or.inr (hw.inserts hinst rfl rfl rfl rfl rfl)
    · exact Effect.noConfusion he
  · rcases he with he | ⟨_, he⟩ | ⟨_, -, he⟩ | ⟨writer', request', hexec, he⟩
    · exact Effect.noConfusion he
    · exact Effect.noConfusion he
    · exact Effect.noConfusion he
    · obtain ⟨rfl, rfl⟩ := Effect.execute.inj he
      exact Or.inr (hf.inserts hexec)
  · refine Or.inl ?_
    rw [hr.frame]

/-! ## Runs -/

/-- A request that carries the write has inserted a message. -/
def insertedFor (w : Http.WritePayload) (e : ServerEvent) : Bool :=
  decide (e.out.bind Request.carries = some w)
    && decide (e.after.store.db.messages.rows ≠ e.before.store.db.messages.rows)

theorem inserts_of_event (settings : Settings) {s : World} {moves : List Move} {e : ServerEvent}
    (he : e ∈ serverHistory settings s moves) {w : Http.WritePayload}
    (h : insertedFor w e = true) : Inserts w e.before.store e.after.store := by
  rw [insertedFor, Bool.and_eq_true, decide_eq_true_eq, decide_eq_true_eq] at h
  obtain ⟨hcarries, hrows⟩ := h
  obtain ⟨r, hout, hr⟩ := Option.bind_eq_some_iff.mp hcarries
  have hsteps : ∀ r : Request, (serve settings r).Steps
      (fun s s' => ∀ w, r.carries = some w → Does (WriteEffect w) s s') := by
    intro r
    cases hc : r.carries with
    | none =>
        refine (serve_steps settings r).mono fun s s' _ w hw => ?_
        exact absurd hw (by simp)
    | some w' =>
        refine (serve_writes settings hc).mono fun s s' hd w hw => ?_
        rw [← Option.some.inj hw]
        exact hd
  rcases Concurrent.steps_history hsteps he with ⟨r', hout', hdoes⟩ | ⟨hout', -⟩
  · have hrr : r' = r := by
      rw [hout'] at hout
      exact Option.some.inj hout
    obtain ⟨effect, heffect, hafter⟩ := hdoes w (hrr ▸ hr)
    rcases inserts_of_writeEffect heffect e.before.store with hsame | hinserts
    · rw [← hafter] at hsame
      exact absurd hsame hrows
    · rw [hafter]
      exact hinserts
  · rw [hout'] at hout
    exact absurd hout (by simp)

/-- What holds of the signed writes of a run. -/
structure WrittenOnce (events : List ServerEvent) : Prop where
  /-- A write is inserted once, over whatever routes it comes and however often. -/
  once : ∀ w, (events.filter (insertedFor w)).length ≤ 1
  /-- Of two writes under one nonce of a participant, one is inserted. -/
  exclusive : events.Pairwise fun e e' => ∀ w w', insertedFor w e = true →
    insertedFor w' e' = true → w.pair ≠ w'.pair
  /-- What is inserted is the one message the write asks for. -/
  message : ∀ e ∈ events, ∀ w, insertedFor w e = true → ∃ m,
    e.after.store.db.messages.rows = e.before.store.db.messages.rows ++ [m]
      ∧ m.inst = w.participantId ∧ m.channel = w.channel ∧ m.kind = w.kind ∧ m.body = w.body
      ∧ m.replyTo = w.replyTo

/-- **A captured proof buys one message**, in every interleaving of all requests and from every
store. -/
theorem writtenOnce (settings : Settings) (s : World) (moves : List Move) :
    WrittenOnce (serverHistory settings s moves) := by
  have hkept := Concurrent.order_history RecordsKept.refl @RecordsKept.trans
    (fun r => (serve_steps settings r).mono recordsKept_of_does) s moves
  have hexclusive : (serverHistory settings s moves).Pairwise fun e e' => ∀ w w',
      insertedFor w e = true → insertedFor w' e' = true → w.pair ≠ w'.pair := by
    refine List.Pairwise.imp_of_mem ?_ hkept
    intro e e' he he' hrecords w w' h h' hpair
    -- the reservation the first has left is met by the second
    have hleft := (inserts_of_event settings he h).reserved
    have hmet := hrecords.reservations w.pair hleft
    rw [hpair] at hmet
    exact hmet (inserts_of_event settings he' h').free
  refine ⟨fun w => ?_, hexclusive, fun e he w h => (inserts_of_event settings he h).message⟩
  apply Transition.length_filter_le_one
  refine hexclusive.imp ?_
  intro e e' hne h
  rw [Bool.eq_false_iff]
  intro h'
  exact hne w w h h' rfl

end Server

end Blackboard
