import Blackboard.Lib.Stretch
import Blackboard.Model.Browser
import Blackboard.Proof.Effects
import Blackboard.Proof.Paging

/-!
# What the page is answered

Whatever others do between the queries of a request, a good answer holds messages of the
channel the request named, and all of them between the first and the last one. The store
only grows at its end, so this stays true while the answer is under way.
-/

namespace Blackboard

open Relational (selected Stretch)
open Concurrent (Program)
open History (MessageOrder listMessageWindow readWindow)

/-! ## Everybody appends -/

theorem othersAppend_refl (w : World) : OthersAppend w w := .refl _

theorem OthersAppend.trans {w₁ w₂ w₃ : World} (h : OthersAppend w₁ w₂) (h' : OthersAppend w₂ w₃) :
    OthersAppend w₁ w₃ :=
  Relational.Table.Extends.trans h h'

/-- The messages of a channel. -/
abbrev messagesOf (channel : String) (db : Database) : Set Message :=
  selected db.messages.rows (inChannel channel)

/-- The messages of the list have nothing of the channel left out between them. -/
abbrev Gapless (channel : String) (db : Database) (messages : List Message) : Prop :=
  Stretch Message.id (messagesOf channel db) {m | m ∈ messages}

theorem Gapless.later {channel : String} {w w' : World} {messages : List Message}
    (h : Gapless channel w.db messages) (hlater : OthersAppend w w') :
    Gapless channel w'.db messages := by
  refine Stretch.grow h (fun r hr => ⟨hlater.kept r hr.1, hr.2⟩) fun r hr => ?_
  rcases hlater.larger r hr.1 with hold | hnew
  · exact Or.inl ⟨hold, hr.2⟩
  · exact Or.inr fun a ha => hnew a ha.1

theorem setOf_mem_nil : {m : Message | m ∈ ([] : List Message)} = ∅ := by
  ext m
  simp

theorem gapless_nil (channel : String) (db : Database) : Gapless channel db [] := by
  rw [Gapless, setOf_mem_nil]
  exact Relational.stretch_empty _

/-- A window is gapless, in whichever direction it was taken. -/
theorem gapless_window (db : Database) (channel : String) (order : MessageOrder)
    (before after : Option Int) (limit : Nat) :
    Gapless channel db (listMessageWindow db channel order before after limit) := by
  cases order with
  | desc =>
      rw [listMessageWindow_desc]
      refine (Relational.stretch_page (depth_nodup db)).reverse fun a b => ?_
      unfold depth
      omega
  | asc =>
      rw [listMessageWindow_asc]
      exact Relational.stretch_page db.messages.nodup

theorem gapless_after (db : Database) (channel : String) (after : Int) (limit : Nat) :
    Gapless channel db (listMessagesAfter db after (some channel) limit) := by
  rw [listMessagesAfter_eq]
  exact Relational.stretch_page db.messages.nodup

section Answers

variable [Sha256] [Hmac] [Base64Url] [JsonParser] [Jwt]

/-- Messages come in at the end, and under positive ids. -/
structure Grown (w w' : World) : Prop where
  appends : OthersAppend w w'
  positive : (∀ m ∈ w.db.messages, 0 < m.id) → ∀ m ∈ w'.db.messages, 0 < m.id

omit [JsonParser] [Jwt] in
theorem Effect.grown (e : Effect) (w : World) : Grown w (e.apply w) := by
  rcases e.cases_messages w with
    hsame | ⟨identity, channel, conversationRef, kind, body, replyTo, happ, -⟩
  · refine ⟨.of_eq hsame, fun hpos => ?_⟩
    rw [hsame]
    exact hpos
  · constructor
    · unfold OthersAppend
      rw [happ]
      exact Relational.Table.extends_append _ _ _
    · intro hpos m hm
      rw [happ] at hm
      exact Relational.Table.pos_of_mem_append hpos hm

/-- **Every transaction of every request** appends messages or leaves them alone. -/
theorem serve_grows (settings : Settings) (r : Request) : (serve settings r).Steps Grown := by
  refine (serve_steps settings r).mono fun w w' h => ?_
  obtain ⟨e, -, rfl⟩ := h
  exact e.grown w

omit [Hmac] [Base64Url] [JsonParser] [Jwt] in
theorem positive_stateAfter (actions : List Action) :
    ∀ m ∈ (stateAfter actions).messages, 0 < m.id := by
  refine Transition.inv_run_of_forall (I := fun db : Database => ∀ m ∈ db.messages, 0 < m.id)
    (P := fun _ : Action => True) (fun db a hpos _ m hm => ?_)
    (fun m hm => absurd hm (Relational.Table.not_mem_empty m)) fun _ _ => trivial
  rcases a.cases_messages db with hsame | ⟨mk, hmk, happ⟩
  · rw [hsame] at hm
    exact hpos m hm
  · rw [happ] at hm
    exact Relational.Table.pos_of_mem_append hpos hm

namespace Browser

/-! ## Good answers -/

/-- A good answer is gapless. -/
def Truthful (f : Fetch) (w : World) (r : Response) : Prop :=
  ok r = true → Gapless f.channel w.db r.messages

omit [Sha256] [Hmac] [Base64Url] [JsonParser] [Jwt] in
theorem Truthful.later {f : Fetch} {w w' : World} {r : Response} (h : Truthful f w r)
    (hlater : OthersAppend w w') : Truthful f w' r := fun hok => (h hok).later hlater

omit [Sha256] [Hmac] [Base64Url] [JsonParser] [Jwt] in
theorem truthful_error (f : Fetch) (w : World) {e : ApiError} : Truthful f w e.response := by
  intro _
  exact gapless_nil f.channel w.db

omit [Sha256] [Hmac] [Base64Url] [JsonParser] [Jwt] in
theorem truthful_window {f : Fetch} {order answered : MessageOrder} {before after : Option Int}
    {limit : Nat} {w w' : World} {r : Response}
    (h : (readWindow f.channel order before after limit >>= fun page =>
      .done (History.windowResponse answered page)).Answers OthersAppend w r w') :
    Truthful f w' r := by
  obtain ⟨⟨rows, more⟩, met, hread, hdone⟩ := Program.answers_bind.mp h
  obtain ⟨rfl, rfl⟩ := Program.answers_done.mp hdone
  obtain ⟨snapshot, -, hrows, hfinish⟩ := readWindow_answers hread
  have hlater : OthersAppend snapshot w' := by
    rcases hfinish with ⟨-, -, rfl⟩ | ⟨last, -, hmore, -⟩
    · exact othersAppend_refl _
    · exact hmore
  intro _
  have hgapless : Gapless f.channel snapshot.db rows := by
    rw [hrows]
    exact gapless_window snapshot.db f.channel order before after limit
  exact hgapless.later hlater

omit [Jwt] in
theorem truthful_messageWindow {f : Fetch} {key : Bytes} {headers : Headers}
    {requestTarget : String} {q : History.MessageWindowQuery} (hchannel : q.channel = f.channel)
    {w w' : World} {r : Response}
    (h : (History.messageWindow key headers requestTarget q).Answers OthersAppend w r w') :
    Truthful f w' r := by
  unfold History.messageWindow at h
  cases hparse : History.parseWindow q with
  | error e =>
      rw [hparse] at h
      obtain ⟨rfl, -⟩ := Program.answers_done.mp h
      exact truthful_error f w'
  | ok window =>
      obtain ⟨order, limit⟩ := window
      rw [hparse, hchannel] at h
      obtain ⟨session, met, -, h⟩ := Program.answers_bind.mp h
      split at h
      · obtain ⟨shown, met', -, h⟩ := Program.answers_bind.mp h
        split at h
        · exact truthful_window h
        · obtain ⟨rfl, -⟩ := Program.answers_done.mp h
          exact truthful_error f w'
      · obtain ⟨who, met', -, h⟩ := Program.answers_bind.mp h
        cases who with
        | none =>
            obtain ⟨rfl, -⟩ := Program.answers_done.mp h
            exact truthful_error f w'
        | some identity => exact truthful_window h

omit [Sha256] [Hmac] [Base64Url] [JsonParser] [Jwt] in
theorem truthful_listMessages {f : Fetch} {q : Http.MessagesQuery}
    (hchannel : q.channel = some f.channel) {w w' : World} {r : Response}
    (h : (Http.listMessages q).Answers OthersAppend w r w') : Truthful f w' r := by
  obtain ⟨snapshot, -, hdone⟩ := Program.answers_read_bind.mp h
  obtain ⟨rfl, rfl⟩ := Program.answers_done.mp hdone
  intro _
  have hgapless := gapless_after w'.db f.channel q.after q.limit
  rw [← hchannel] at hgapless
  exact hgapless

omit [Sha256] [Hmac] [Base64Url] [JsonParser] [Jwt] in
/-- The channel of the query is the one the parameter names. -/
theorem channel_of_parseMessages {query' : Http.Query} {q : Http.MessagesQuery}
    (h : Http.parseMessages query' = .ok q) :
    q.channel = Http.firstQueryValue query' "channel" := by
  unfold Http.parseMessages at h
  dsimp only [bind, Except.bind] at h
  split at h
  · exact absurd h (by simp)
  · split at h
    · exact absurd h (by simp)
    · split at h
      · exact absurd h (by simp)
      · obtain rfl := Except.ok.inj h
        rfl

omit [Jwt] in
theorem truthful_messages {f : Fetch} {key : Bytes} {headers : Headers} {requestTarget : String}
    {query' : Http.Query} (hchannel : Http.firstQueryValue query' "channel" = some f.channel)
    {w w' : World} {r : Response}
    (h : (Http.messages key headers requestTarget query').Answers OthersAppend w r w') :
    Truthful f w' r := by
  unfold Http.messages at h
  obtain ⟨access, met, -, h⟩ := Program.answers_bind.mp h
  cases access with
  | error e =>
      obtain ⟨rfl, -⟩ := Program.answers_done.mp h
      exact truthful_error f w'
  | ok access =>
      dsimp only at h
      cases hparse : Http.parseMessages query' with
      | error e =>
          rw [hparse] at h
          obtain ⟨rfl, -⟩ := Program.answers_done.mp h
          exact truthful_error f w'
      | ok q =>
          have hq : q.channel = some f.channel := by
            rw [← hchannel]
            exact channel_of_parseMessages hparse
          rw [hparse] at h
          dsimp only at h
          split at h
          · exact truthful_listMessages hq h
          · obtain ⟨rfl, -⟩ := Program.answers_done.mp h
            exact truthful_error f w'
          · obtain ⟨shown, met', -, h⟩ := Program.answers_bind.mp h
            split at h
            · exact truthful_listMessages hq h
            · obtain ⟨rfl, -⟩ := Program.answers_done.mp h
              exact truthful_error f w'

/-! ## What a request of the page owes -/

/-- Whatever it meets, what is left of the request answers truthfully. -/
def Owes (f : Fetch) (w : World) (rest : Program World Response) : Prop :=
  ∀ r w', rest.Answers OthersAppend w r w' → Truthful f w' r

theorem owes_request (settings : Settings) (sessionToken : String) {f : Fetch}
    (hpoll : f.waiting = .poll → f.channel ≠ "") (w : World) :
    Owes f w (serve settings (f.request sessionToken)) := by
  intro r w' h
  cases hwaiting : f.waiting with
  | loadLatestHistory =>
      simp only [Fetch.request, hwaiting, serve] at h
      exact truthful_messageWindow rfl h
  | loadOlderHistory =>
      simp only [Fetch.request, hwaiting, serve] at h
      exact truthful_messageWindow rfl h
  | jumpToMessage id =>
      simp only [Fetch.request, hwaiting, serve] at h
      exact truthful_messageWindow rfl h
  | poll =>
      simp only [Fetch.request, hwaiting, serve] at h
      refine truthful_messages ?_ h
      simp [Http.firstQueryValue, hpoll hwaiting]

omit [Sha256] [Hmac] [Base64Url] [JsonParser] [Jwt] in
theorem Owes.advance {f : Fetch} {w : World} {tx : World → World}
    {next : World → Program World Response} (h : Owes f w (.step tx next)) :
    Owes f (tx w) (next w) := by
  intro r w' hanswers
  exact h r w' (.step (othersAppend_refl w) hanswers)

omit [Sha256] [Hmac] [Base64Url] [JsonParser] [Jwt] in
theorem Owes.answered {f : Fetch} {w : World} {r : Response} (h : Owes f w (.done r)) :
    Truthful f w r := h r w (.done w r)

omit [Sha256] [Hmac] [Base64Url] [JsonParser] [Jwt] in
/-- What others append takes nothing away from it. -/
theorem Owes.later {f : Fetch} {w w' : World} {rest : Program World Response} (h : Owes f w rest)
    (hlater : OthersAppend w w') : Owes f w' rest := by
  intro r w'' hanswers
  rcases hanswers.earlier @OthersAppend.trans hlater with hold | ⟨b, rfl, rfl, rfl⟩
  · exact h r w'' hold
  · exact h.answered.later hlater

/-! ## Among all the others -/

/-- Every request in flight appends, and those the page waits for owe it their answers. -/
structure Served (pending : List Pending) (c : Concurrent.Config Request World Response) : Prop where
  positive : ∀ m ∈ c.store.db.messages, 0 < m.id
  grows : ∀ thread ∈ c.pool, thread.rest.Steps Grown
  owed : ∀ p ∈ pending, ∃ thread, c.pool[p.place]? = some thread ∧ Owes p.fetch c.store thread.rest

omit [Sha256] [Hmac] [Base64Url] [JsonParser] [Jwt] in
theorem Served.truthful {pending : List Pending} {c : Concurrent.Config Request World Response}
    (h : Served pending c) {p : Pending} (hp : p ∈ pending) {r : Response}
    (hr : answered c p = some r) : Truthful p.fetch c.store r := by
  obtain ⟨thread, hthread, howes⟩ := h.owed p hp
  unfold answered at hr
  rw [hthread] at hr
  obtain ⟨request, rest⟩ := thread
  cases rest with
  | done r' =>
      obtain rfl := Option.some.inj hr
      exact howes.answered
  | step tx next => exact absurd hr (by simp)

omit [Sha256] [Hmac] [Base64Url] [JsonParser] [Jwt] in
/-- The page may stop waiting. -/
theorem Served.drop {pending pending' : List Pending}
    {c : Concurrent.Config Request World Response} (h : Served pending c)
    (hsub : ∀ p ∈ pending', p ∈ pending) : Served pending' c :=
  ⟨h.positive, h.grows, fun p hp => h.owed p (hsub p hp)⟩

/-- A request arrives. -/
theorem Served.start {pending : List Pending} {c : Concurrent.Config Request World Response}
    (h : Served pending c) (settings : Settings) (r : Request) :
    Served pending (Concurrent.step (serve settings) (.start r) c).2 := by
  refine ⟨h.positive, fun thread hthread => ?_, fun p hp => ?_⟩
  · rcases List.mem_append.mp hthread with hold | hnew
    · exact h.grows thread hold
    · rw [List.mem_singleton.mp hnew]
      exact serve_grows settings r
  · obtain ⟨thread, hplace, howes⟩ := h.owed p hp
    have hlt := (List.getElem?_eq_some_iff.mp hplace).1
    exact ⟨thread, (List.getElem?_append_left hlt).trans hplace, howes⟩

/-- **Whatever happens at the server**, the messages grow and what is owed stays owed. -/
theorem Served.step {pending : List Pending} {c : Concurrent.Config Request World Response}
    (h : Served pending c) (settings : Settings) (move : Move) :
    Served pending (Concurrent.step (serve settings) move c).2
      ∧ OthersAppend c.store (Concurrent.step (serve settings) move c).2.store := by
  rcases Concurrent.step_cases (serve settings) move c with
    ⟨r, rfl, hs⟩ | ⟨i, r, tx, next, rfl, hi, hs⟩ | hs
  · refine ⟨h.start settings r, ?_⟩
    rw [hs]
    exact othersAppend_refl _
  · have hsteps := h.grows _ (List.mem_of_getElem? hi)
    have hgrown : Grown c.store (tx c.store) := hsteps.1 c.store
    rw [hs]
    refine ⟨⟨hgrown.positive h.positive, fun thread hthread => ?_, fun p hp => ?_⟩,
      hgrown.appends⟩
    · rcases List.mem_or_eq_of_mem_set hthread with hold | rfl
      · exact h.grows thread hold
      · exact hsteps.2 c.store
    · obtain ⟨thread, hplace, howes⟩ := h.owed p hp
      by_cases hown : i = p.place
      · -- a transaction of the page's own request
        subst hown
        obtain rfl := Option.some.inj (hi.symm.trans hplace)
        have hlt := (List.getElem?_eq_some_iff.mp hi).1
        exact ⟨_, List.getElem?_set_self hlt, howes.advance⟩
      · exact ⟨thread, (List.getElem?_set_ne hown).trans hplace, howes.later hgrown.appends⟩
  · rw [hs]
    exact ⟨h, othersAppend_refl _⟩

/-- The page starts a request. -/
theorem Served.send {pending : List Pending} {c : Concurrent.Config Request World Response}
    (h : Served pending c) (settings : Settings) (sessionToken : String) {f : Fetch}
    (hpoll : f.waiting = .poll → f.channel ≠ "") :
    Served (pending ++ [⟨f, c.pool.length⟩])
      (Concurrent.step (serve settings) (.start (f.request sessionToken)) c).2 := by
  have hstart := h.start settings (f.request sessionToken)
  refine ⟨hstart.positive, hstart.grows, fun p hp => ?_⟩
  rcases List.mem_append.mp hp with hold | hnew
  · exact hstart.owed p hold
  · rw [List.mem_singleton.mp hnew]
    have hplace : (c.pool ++ [⟨f.request sessionToken, serve settings (f.request sessionToken)⟩] :
        List (Concurrent.Thread Request World Response))[c.pool.length]?
          = some ⟨f.request sessionToken, serve settings (f.request sessionToken)⟩ := by
      rw [List.getElem?_append_right (Nat.le_refl _), Nat.sub_self]
      rfl
    exact ⟨_, hplace, owes_request settings sessionToken hpoll c.store⟩

end Browser

end Answers

end Blackboard
