import Blackboard.Proof.Effects

/-!
# The message ledger

Messages are only ever added, at the end, under larger and larger ids, and a reply comes
after the message it replies to. A navigation write and an execution look for that message
in the transaction that inserts. The plain route looks for it in a statement of its own:
the answer keeps, since no message is ever taken away, whatever comes in between.
-/

namespace Blackboard

open Relational (Table)
open Concurrent (Program)

/-- Ids grow with the rows, and a reply is to an earlier message. -/
structure RepliesInv (db : Database) : Prop where
  ascending : db.messages.Ascending
  replies : ∀ m ∈ db.messages, ∀ target, m.replyTo = some target →
    target < m.id ∧ ∃ m' ∈ db.messages, m'.id = target

/-- The messages of the one store, unaltered and in their order, and then new ones. -/
def Appends (w w' : World) : Prop :=
  ∃ new, w'.db.messages.rows = w.db.messages.rows ++ new

theorem Appends.refl (w : World) : Appends w w := ⟨[], (List.append_nil _).symm⟩

theorem Appends.trans {w₁ w₂ w₃ : World} (h : Appends w₁ w₂) (h' : Appends w₂ w₃) :
    Appends w₁ w₃ := by
  obtain ⟨new, hnew⟩ := h
  obtain ⟨new', hnew'⟩ := h'
  exact ⟨new ++ new', by rw [hnew', hnew, List.append_assoc]⟩

theorem Appends.mem {w w' : World} (h : Appends w w') {m : Message} (hm : m ∈ w.db.messages) :
    m ∈ w'.db.messages := by
  obtain ⟨new, hnew⟩ := h
  rw [← Table.mem_rows, hnew]
  exact List.mem_append_left _ hm

/-- The message to reply to is there, if one is asked for. -/
def HasTarget (replyTo : Option Int) (w : World) : Prop := replyTargetMissing w.db replyTo = false

theorem hasTarget_iff {replyTo : Option Int} {w : World} :
    HasTarget replyTo w ↔ ∀ target, replyTo = some target → ∃ m ∈ w.db.messages, m.id = target := by
  unfold HasTarget replyTargetMissing
  cases replyTo with
  | none => exact iff_of_true rfl fun target h => absurd h (by simp)
  | some target =>
      simp only [Option.any_some, Bool.not_eq_false', messageExists, Option.isSome_iff_exists]
      constructor
      · rintro ⟨m, hm⟩ target' htarget
        rw [← Option.some.inj htarget]
        exact ⟨m, Table.mem_of_find hm, Table.key_of_find hm⟩
      · intro h
        obtain ⟨m, hm, hid⟩ := h target rfl
        rw [← hid]
        exact ⟨m, Table.find_of_mem hm⟩

/-- No message is taken away, so a target found stays found. -/
theorem HasTarget.later {replyTo : Option Int} (w w' : World) (h : Appends w w')
    (ht : HasTarget replyTo w) : HasTarget replyTo w' := by
  rw [hasTarget_iff] at ht ⊢
  intro target htarget
  obtain ⟨m, hm, hid⟩ := ht target htarget
  exact ⟨m, h.mem hm, hid⟩

/-- One message more. -/
theorem RepliesInv.append {w w' : World} {now : Int} {identity : Identity}
    {channel kind body : String} {conversationRef : Option String} {replyTo : Option Int} (h : RepliesInv w.db)
    (ht : HasTarget replyTo w)
    (hm : w'.db.messages = w.db.messages.append
      (messageRow now identity channel conversationRef kind body replyTo)
      (messageRow_id now identity channel conversationRef kind body replyTo)) :
    RepliesInv w'.db := by
  refine ⟨?_, fun m hmem target htarget => ?_⟩
  · rw [hm]
    exact h.ascending.append
  · rw [hm] at hmem ⊢
    rcases mem_append_messageRow.mp hmem with hold | rfl
    · obtain ⟨hlt, m', hm', hid⟩ := h.replies m hold target htarget
      exact ⟨hlt, m', mem_append_messageRow.mpr (Or.inl hm'), hid⟩
    · obtain ⟨m', hm', hid⟩ := hasTarget_iff.mp ht target htarget
      refine ⟨?_, m', mem_append_messageRow.mpr (Or.inl hm'), hid⟩
      rw [← hid]
      exact Table.lt_nextId hm'

section Server

variable [Sha256] [Hmac] [Base64Url]

/-- The invariant of a store. -/
def OrderedReplies (w : World) : Prop := RepliesInv w.db

/-- **Every effect keeps the ledger**; a plain insertion does if the message it replies to is
there. -/
theorem Effect.keeping (e : Effect) (w : World)
    (hinsert : ∀ identity fields, e = .insert identity fields → HasTarget fields.replyTo w) :
    Program.Keeping Appends OrderedReplies w (e.apply w) := by
  intro h
  rcases e.cases_messages w with hsame | ⟨identity, channel, ref, kind, body, replyTo, hm, hreply⟩
  · refine ⟨⟨[], ?_⟩, ?_, ?_⟩
    · rw [hsame, List.append_nil]
    · rw [hsame]
      exact h.ascending
    · rw [hsame]
      exact h.replies
  · have ht : HasTarget replyTo w := by
      rcases hreply with ⟨fields, he, rfl⟩ | hfound
      · exact hinsert identity fields he
      · exact hfound
    refine ⟨⟨[messageRow w.now identity channel ref kind body replyTo w.db.messages.nextId], ?_⟩,
      RepliesInv.append h ht hm⟩
    rw [hm]
    exact Table.rows_append

theorem keeping_of_does {may : Effect → Prop}
    (h : ∀ identity fields, ¬ may (.insert identity fields)) (w w' : World)
    (hdoes : Does may w w') : Program.Keeping Appends OrderedReplies w w' := by
  obtain ⟨e, he, rfl⟩ := hdoes
  refine e.keeping w fun identity fields heq => ?_
  rw [heq] at he
  exact absurd he (h identity fields)

/-! ## The routes -/

variable [JsonParser]

omit [Hmac] [Base64Url] [JsonParser] in
theorem not_insert_of_signed {object : Json.Object} {identity : Identity}
    {fields : Http.MessageFields} : ¬ SignedEffect object (.insert identity fields) := by
  intro h
  rcases h with h | ⟨write, writer, -, -, h | h⟩
  · exact Effect.noConfusion h
  · exact Effect.noConfusion h
  · exact Effect.noConfusion h

omit [Base64Url] in
/-- Only a message posted without a proof is inserted as it is. -/
theorem Request.not_insert {settings : Settings} {r : Request}
    (hpost : ∀ headers body, r ≠ .postMessage headers body) (identity : Identity)
    (fields : Http.MessageFields) : ¬ r.May settings (.insert identity fields) := by
  intro h
  obtain ⟨headers, body, hr⟩ := h.origin
  exact hpost headers body hr

omit [JsonParser] in
/-- What a reading may do. -/
theorem keeping_of_nothing (w w' : World) (h : Does (fun e => e = .nothing) w w') :
    Program.Keeping Appends OrderedReplies w w' := by
  obtain ⟨e, he, hw⟩ := h
  rw [hw, he]
  exact fun hi => ⟨Appends.refl w, hi⟩

omit [JsonParser] in
/-- Creating a channel keeps the ledger. -/
theorem keeping_ensureChannel (channel : String) (createdBy : Option String) (w : World) :
    Program.Keeping Appends OrderedReplies w ((Effect.ensureChannel channel createdBy).apply w) :=
  Effect.keeping _ w fun _ _ he => Effect.noConfusion he

omit [JsonParser] in
/-- Once its target is known to be there, an append keeps the ledger. -/
theorem keeps_appendMessage (identity : Identity) (fields : Http.MessageFields) {w : World}
    (h : HasTarget fields.replyTo w) :
    (appendMessage identity fields.channel fields.kind fields.body fields.replyTo).Keeps Appends
      OrderedReplies w := by
  have hlater := @HasTarget.later fields.replyTo
  have hinsert : ∀ w : World, HasTarget fields.replyTo w →
      Program.Keeping Appends OrderedReplies w ((Effect.insert identity fields).apply w) := by
    intro w ht
    refine Effect.keeping _ w fun identity' fields' he => ?_
    obtain ⟨-, rfl⟩ := Effect.insert.inj he
    exact ht
  unfold appendMessage
  -- the channel once more, the message, and the message read back
  refine Program.keeps_step hlater
    (fun w _ => keeping_ensureChannel fields.channel (some identity.inst) w) (fun w ht => ?_) h
  refine Program.keeps_step hlater hinsert (fun w _ => ?_) ht
  exact fun met _ hi => ⟨Appends.refl met, hi, trivial⟩

omit [JsonParser] in
/-- The same with the check of the channel before. -/
theorem keeps_appendChecked (identity : Identity) (fields : Http.MessageFields) {w : World}
    (h : HasTarget fields.replyTo w) :
    (Http.appendChecked identity fields).Keeps Appends OrderedReplies w := by
  have hensure : (ensureChannelForWrite fields.channel (some identity.inst)).Steps
      (Program.Keeping Appends OrderedReplies) :=
    ⟨keeping_ensureChannel fields.channel (some identity.inst),
      fun w => ⟨fun w hi => ⟨Appends.refl w, hi⟩, fun _ => trivial⟩⟩
  unfold Http.appendChecked
  refine Program.keeps_bind (@HasTarget.later fields.replyTo) hensure (fun active w ht => ?_) h
  split
  · refine (keeps_appendMessage identity fields ht).bind fun appended w => ?_
    cases appended with
    | ok message => trivial
    | error e => trivial
  · trivial

theorem keeps_postPlainMessage (key : Bytes) (headers : Headers) (object : Json.Object)
    (w : World) : (Http.postPlainMessage key headers object).Keeps Appends OrderedReplies w := by
  have hany : ∀ w w' : World, Appends w w' → True → True := fun _ _ _ h => h
  have hresolve : (RequestAuth.resolveRequestIdentity key headers).Steps
      (Does fun e => e = .nothing) :=
    @steps_resolveRequestIdentity _ _ _ _ (fun e => e = .nothing) rfl key headers
  unfold Http.postPlainMessage
  refine Program.keeps_bind hany (hresolve.mono keeping_of_nothing) (fun who w _ => ?_) trivial
  cases who with
  | none => trivial
  | some identity =>
      dsimp only
      cases Http.messageFields Http.nameRe Http.kindRe object with
      | error e => trivial
      | ok fields =>
          dsimp only
          cases hreply : fields.replyTo with
          | none =>
              refine keeps_appendChecked identity fields ?_
              rw [hreply]
              exact rfl
          | some target =>
              intro met _ hi
              refine ⟨Appends.refl met, hi, ?_⟩
              -- the target is looked for in a statement of its own
              by_cases hfound : messageExists met.db target = true
              · simp only [hfound]
                refine keeps_appendChecked identity fields ?_
                rw [hreply]
                simp [HasTarget, replyTargetMissing, hfound]
              · simp only [hfound]
                trivial

theorem keeps_postMessage (key : Bytes) (headers : Headers) (body : Bytes) (w : World) :
    (Http.postMessage key headers body).Keeps Appends OrderedReplies w := by
  have hany : ∀ w w' : World, Appends w w' → True → True := fun _ _ _ h => h
  have hsession : (RequestAuth.verifiedWebSession key headers).Steps
      (Does fun e => e = .nothing) :=
    @steps_verifiedWebSession _ _ _ _ (fun e => e = .nothing) rfl key headers
  unfold Http.postMessage
  refine Program.keeps_bind hany (hsession.mono keeping_of_nothing) (fun session w _ => ?_) trivial
  split
  · trivial
  · cases Http.readJsonObject body with
    | error e => trivial
    | ok object =>
        dsimp only
        split
        · trivial
        · split
          · exact Program.keeps_of_steps ((steps_postSignedMessage object).mono
              (keeping_of_does fun identity fields => not_insert_of_signed)) w
          · exact keeps_postPlainMessage key headers object w

variable [Jwt]

/-- **Every request keeps the ledger, whatever other requests do in between.** -/
theorem serve_keeps (settings : Settings) (r : Request) (w : World) :
    (serve settings r).Keeps Appends OrderedReplies w := by
  by_cases hpost : ∃ headers body, r = .postMessage headers body
  · obtain ⟨headers, body, rfl⟩ := hpost
    exact keeps_postMessage settings.sessionKey headers body w
  · have hnot : ∀ headers body, r ≠ .postMessage headers body := by
      intro headers body h
      exact hpost ⟨headers, body, h⟩
    exact Program.keeps_of_steps ((serve_steps settings r).mono
      (keeping_of_does (Request.not_insert hnot))) w

/-! ## The ledger -/

/-- The messages a run of the server leaves: nothing but new ones at each event, in the order of
their ids, and every reply after its target. -/
structure MessageLedger (events : List ServerEvent) : Prop where
  /-- No message is altered or taken away, and new ones come last. -/
  appends : ∀ e ∈ events, ∃ new,
    e.after.store.db.messages.rows = e.before.store.db.messages.rows ++ new
  /-- Ids increase in the order the messages were committed. -/
  ascending : ∀ e ∈ events,
    e.after.store.db.messages.rows.Pairwise fun earlier later => earlier.id < later.id
  /-- A reply is to a message that is there, under a smaller id. -/
  replies : ∀ e ∈ events, ∀ m ∈ e.after.store.db.messages, ∀ target, m.replyTo = some target →
    target < m.id ∧ ∃ m' ∈ e.after.store.db.messages, m'.id = target

/-- **The message ledger, over every interleaving.** -/
theorem message_ledger (settings : Settings) (now : Int) (moves : List Move) :
    MessageLedger (serverHistory settings ⟨Database.initial, now⟩ moves) := by
  have hstart : OrderedReplies ⟨Database.initial, now⟩ :=
    ⟨Table.ascending_empty, fun m hm => absurd hm (Table.not_mem_empty m)⟩
  have hall := Concurrent.keeps_history Appends.refl @Appends.trans (serve_keeps settings) hstart
    moves
  refine ⟨fun e he => ?_, fun e he => ?_, fun e he => ?_⟩
  · exact (hall e he).2.2
  · exact (hall e he).2.1.ascending
  · exact (hall e he).2.1.replies

end Server

end Blackboard
