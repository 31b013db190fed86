import Blackboard.Proof.StoreInv

/-!
# An intent is executed at most once

The reservation of an intent points at one message and is never rewritten, so whoever
comes back with the intent is answered with that message, if at all. Whether they are
answered is decided by the hash of the request, or by the content of the message where the
hashes differ. If no two requests of the run have the same hash, both say the same: the
request asks for the message there is (`content_of_accepted`).

Navigation writes reserve under a hash of their own and are not part of these runs.
-/

namespace Blackboard

open Relational (Table)

section Runs

variable [Sha256]

/-- The requests of a run. -/
def requestTexts (actions : List Action) : Set String :=
  { text | ∃ a ∈ actions, ∃ participantId request, a.op = .execute participantId request
    ∧ text = request.text }

/-- An execution created the message of this pair. -/
def createdFor (p : Pair) (e : Happening) : Bool :=
  match e.act.op with
  | .execute participantId request =>
      decide ((participantId, request.intent.intentId) = p) && e.out.created.isSome
  | _ => false

/-- The execution was for this pair. -/
def IsExecutionOf (e : Happening) (p : Pair) (request : MessageExecutionRequest) : Prop :=
  IsExecution e p.1 request ∧ request.intent.intentId = p.2

/-- What holds of the intents of a run. -/
structure AtMostOnce (actions : List Action) : Prop where
  /-- One call creates the message of a pair. -/
  created : ∀ p, ((happenings actions).filter (createdFor p)).length ≤ 1
  /-- An execution appends the message it has created, or nothing. -/
  appended : ∀ e ∈ happenings actions, ∀ p request, IsExecutionOf e p request →
    e.after.messages.rows = e.before.messages.rows ++ e.out.created.toList
  /-- Whoever comes back to a pair is answered with its message. -/
  same : (happenings actions).Pairwise fun e e' => ∀ p request request' m m',
    IsExecutionOf e p request → e.out.accepted = some m →
      IsExecutionOf e' p request' → e'.out.accepted = some m' → m' = m
  /-- The message has the content of the request it answers. -/
  content : ∀ e ∈ happenings actions, ∀ p request m, IsExecutionOf e p request →
    e.out.accepted = some m → sameContent m request
  /-- A request with other content than the one that was accepted neither appends nor finds. -/
  differing : (happenings actions).Pairwise fun e e' => ∀ p request request' m,
    IsExecutionOf e p request → e.out.accepted = some m → IsExecutionOf e' p request' →
      ¬ sameContent m request' →
        e'.out.accepted = none ∧ e'.after.messages = e'.before.messages

/-! ## Texts -/

/-- The text of the request a message answers. -/
def Message.text (m : Message) : String :=
  messageRequestText m.channel m.kind m.body m.conversationRef m.replyTo

theorem Message.requestHash_eq (m : Message) : m.requestHash = hashToken m.text := rfl

omit [Sha256] in
/-- The text of a request says what it asks for. -/
theorem messageRequestText_inj {channel kind body channel' kind' body' : String}
    {conversationRef conversationRef' : Option String} {replyTo replyTo' : Option Int}
    (h : messageRequestText channel kind body conversationRef replyTo
      = messageRequestText channel' kind' body' conversationRef' replyTo') :
    channel = channel' ∧ kind = kind' ∧ body = body' ∧ conversationRef = conversationRef'
      ∧ replyTo = replyTo' := by
  have hmembers := Json.renderObject_inj h
  simp only [List.cons.injEq, Prod.mk.injEq, Json.Scalar.string.injEq, true_and, and_true]
    at hmembers
  obtain ⟨hbody, hchannel, href, hkind, hreply⟩ := hmembers
  exact ⟨hchannel, hkind, hbody, Json.Scalar.ofOptionString_inj href,
    Json.Scalar.ofOptionInt_inj hreply⟩

omit [Sha256] in
theorem sameContent_of_text {m : Message} {request : MessageExecutionRequest}
    (h : m.text = request.text) : sameContent m request := by
  obtain ⟨hc, hk, hb, hr, ht⟩ := messageRequestText_inj h
  exact ⟨hc, hk, hb, ht, hr⟩

/-! ## Reservations and their texts -/

/-- A reservation carries the hash of its message's text, and that text was asked for. -/
def HashedInv (texts : Set String) (db : Database) : Prop :=
  ∀ n ∈ db.navigationWrites, ∃ m ∈ db.messages, m.id = n.messageId
    ∧ n.requestHash = hashToken m.text ∧ m.text ∈ texts

theorem hashedInv_initial (texts : Set String) : HashedInv texts Database.initial :=
  fun _ h => absurd h (Table.not_mem_empty _)

theorem hashedInv_step {texts : Set String} (db : Database) (a : Action)
    (h : HashedInv texts db) (ha : a.op.isNavigation = false)
    (hop : ∀ participantId request, a.op = .execute participantId request → request.text ∈ texts) :
    HashedInv texts (a.step db).2 := by
  have hg := a.grows db
  have hold : ∀ n ∈ db.navigationWrites, ∃ m ∈ (a.step db).2.messages, m.id = n.messageId
      ∧ n.requestHash = hashToken m.text ∧ m.text ∈ texts := by
    intro n hn
    obtain ⟨m, hm, hmid⟩ := h n hn
    exact ⟨m, hg.messages m hm, hmid⟩
  intro n hn
  rcases a.step_cases db with hq | ⟨_, _, _, _, _, _, _, _, hnav, -, -⟩
    | ⟨_, request, _, m, he, -, hf⟩ | ⟨_, _, _, _, -, -, hr⟩
  · rw [hq.navigation] at hn
    exact hold n hn
  · rw [hnav] at ha
    exact absurd ha (by simp [Op.isNavigation])
  · rcases (hf.mem_navigation n).mp hn with hmem | rfl
    · exact hold n hmem
    · have htext : m.text = request.text := by
        rw [hf.effects.message]
        rfl
      refine ⟨m, (hf.mem_messages m).mpr (Or.inr rfl), rfl, ?_, ?_⟩
      · rw [htext]
        exact hf.toAccepted.requestHash
      · rw [htext]
        exact hop _ _ he.op
  · rw [hr.frame] at hn
    exact hold n hn

/-! ## Accepted executions -/

section Accepted

variable {db : Database} {a : Action} {participantId : String} {request : MessageExecutionRequest}
  {m : Message}

/-- The reservation of an accepted execution, and the message it points at. -/
theorem navigation_of_accepted (hop : a.op = .execute participantId request)
    (hout : (a.step db).1.accepted = some m) :
    m ∈ (a.step db).2.messages ∧ ∃ n ∈ (a.step db).2.navigationWrites,
      n.pair = (participantId, request.intent.intentId) ∧ n.messageId = m.id := by
  obtain ⟨identity, hp, ⟨-, hf⟩ | ⟨-, hr⟩⟩ := Action.accepted_cases hop hout
  · obtain ⟨p, -, hid, rfl⟩ := identity_of_getWebParticipant hp
    exact ⟨(hf.mem_messages m).mpr (Or.inr rfl), _, (hf.mem_navigation _).mpr (Or.inr rfl),
      Prod.ext hid rfl, rfl⟩
  · obtain ⟨p, -, hid, rfl⟩ := identity_of_getWebParticipant hp
    obtain ⟨n, hn, hm, -⟩ := hr.stored
    rw [hr.frame]
    refine ⟨Table.mem_of_find hm, n, Table.mem_of_find hn, ?_, (Table.key_of_find hm).symm⟩
    exact Eq.trans (Table.key_of_find hn) (Prod.ext hid rfl)

/-- A reserved intent is answered with the message it was reserved for, and never created. -/
theorem answer_of_reserved (hop : a.op = .execute participantId request) {n : NavigationWrite}
    (hn : n ∈ db.navigationWrites) (hnp : n.pair = (participantId, request.intent.intentId))
    {m₀ : Message} (hm₀ : m₀ ∈ db.messages) (hnm : n.messageId = m₀.id) :
    (a.step db).1.created = none ∧ ∀ m, (a.step db).1.accepted = some m → m = m₀ := by
  have hfind := Table.find_of_mem hn
  rw [hnp] at hfind
  constructor
  · cases hc : (a.step db).1.created with
    | none => rfl
    | some m =>
        obtain ⟨identity, hp, hf⟩ := Action.created_cases hop hc
        obtain ⟨p, -, hid, rfl⟩ := identity_of_getWebParticipant hp
        have hfree := hf.free
        rw [show executionPair p.identity request = (participantId, request.intent.intentId) from
          Prod.ext hid rfl, hfind] at hfree
        exact absurd hfree (by simp)
  · intro m hout
    obtain ⟨identity, hp, ⟨-, hf⟩ | ⟨-, hr⟩⟩ := Action.accepted_cases hop hout
    · obtain ⟨p, -, hid, rfl⟩ := identity_of_getWebParticipant hp
      have hfree := hf.free
      rw [show executionPair p.identity request = (participantId, request.intent.intentId) from
        Prod.ext hid rfl, hfind] at hfree
      exact absurd hfree (by simp)
    · obtain ⟨p, -, hid, rfl⟩ := identity_of_getWebParticipant hp
      obtain ⟨n', hn', hm, -⟩ := hr.stored
      rw [show executionPair p.identity request = (participantId, request.intent.intentId) from
        Prod.ext hid rfl, hfind, Option.some.injEq] at hn'
      rw [← hn', hnm, Table.find_of_mem hm₀, Option.some.injEq] at hm
      exact hm.symm

/-- **The message of an accepted execution is the one it asks for**, where hashes tell texts
apart. -/
theorem content_of_accepted {texts : Set String} (hcf : Set.InjOn hashToken texts)
    (h : HashedInv texts db) (hop : a.op = .execute participantId request)
    (htext : request.text ∈ texts) (hout : (a.step db).1.accepted = some m) :
    sameContent m request := by
  obtain ⟨identity, hp, ⟨-, hf⟩ | ⟨-, hr⟩⟩ := Action.accepted_cases hop hout
  · rw [hf.effects.message]
    exact ⟨rfl, rfl, rfl, rfl, rfl⟩
  · obtain ⟨n, hn, hm, hhash | hsame⟩ := hr.stored
    · obtain ⟨m', hm', hid, hnhash, hmtext⟩ := h n (Table.mem_of_find hn)
      have hmm : m' = m :=
        Table.eq_of_key hm' (Table.mem_of_find hm) (hid.trans (Table.key_of_find hm).symm)
      subst hmm
      refine sameContent_of_text (hcf hmtext htext ?_)
      rw [← hnhash, hhash]
      exact hr.toAccepted.requestHash
    · exact hsame

/-- What an execution adds to the messages. -/
theorem messages_of_execution (hop : a.op = .execute participantId request) :
    (a.step db).2.messages.rows = db.messages.rows ++ (a.step db).1.created.toList := by
  obtain ⟨now, op⟩ := a
  obtain rfl : op = .execute participantId request := hop
  simp only [Action.step]
  cases hp : getWebParticipant db participantId with
  | none => simp [Outcome.created]
  | some identity =>
      simp only
      rcases executeMessageIntent_cases now identity request db with
        ⟨m, ho, hf⟩ | ⟨m, ho, hr⟩ | ⟨hs, hno⟩
      · rw [ho, hf.effects.messages, Table.rows_append, hf.effects.message]
        rfl
      · rw [ho, hr.frame]
        simp [Outcome.created]
      · have hnone : (Outcome.executed (executeMessageIntent now identity request db).1).created
            = none := by
          unfold Outcome.created
          split
          · rename_i m heq
            exact absurd (Outcome.executed.inj heq) (hno m).1
          · rfl
        rw [hnone, hs]
        simp

end Accepted

/-! ## Runs -/

/-- What an accepted execution leaves behind: its message, and the reservation that points at it. -/
def Leaves (e : Happening) (db : Database) : Prop :=
  ∀ p request m, IsExecutionOf e p request → e.out.accepted = some m →
    m ∈ db.messages ∧ ∃ n ∈ db.navigationWrites, n.pair = p ∧ n.messageId = m.id

/-- After an accepted execution its pair is never created again, and answered with its message. -/
def Answers (e e' : Happening) : Prop :=
  ∀ p request request' m, IsExecutionOf e p request → e.out.accepted = some m →
    IsExecutionOf e' p request' →
      e'.out.created = none ∧ ∀ m', e'.out.accepted = some m' → m' = m

theorem leaves_step (db : Database) (a : Action) :
    Leaves ⟨db, a, (a.step db).1, (a.step db).2⟩ (a.step db).2 := by
  rintro p request m ⟨hop, hint⟩ hout
  obtain ⟨hm, n, hn, hpair, hid⟩ := navigation_of_accepted hop hout
  exact ⟨hm, n, hn, hpair.trans (Prod.ext rfl hint), hid⟩

theorem leaves_keep (e : Happening) (db : Database) (a : Action) (h : Leaves e db) :
    Leaves e (a.step db).2 := by
  intro p request m he hout
  obtain ⟨hm, n, hn, hn'⟩ := h p request m he hout
  exact ⟨(a.grows db).messages m hm, n, (a.grows db).navigation n hn, hn'⟩

theorem answers_of_leaves (e : Happening) (db : Database) (a : Action) (h : Leaves e db) :
    Answers e ⟨db, a, (a.step db).1, (a.step db).2⟩ := by
  rintro p request request' m he hout ⟨hop, hint⟩
  obtain ⟨hm, n, hn, hpair, hid⟩ := h p request m he hout
  exact answer_of_reserved hop hn (hpair.trans (Prod.ext rfl hint.symm)) hm hid

/-- **In every run**, whatever the steps. -/
theorem answers_run (actions : List Action) : (happenings actions).Pairwise Answers :=
  Transition.pairwise_history (I := fun _ => True) (G := fun _ _ => True) (Q := Leaves)
    (fun _ _ _ _ => trivial) (fun db a _ _ => leaves_step db a)
    (fun e db a _ _ h => leaves_keep e db a h) (fun e db a _ _ h => answers_of_leaves e db a h)
    trivial fun _ _ => trivial

theorem content_run {actions : List Action} (hnav : ∀ a ∈ actions, a.op.isNavigation = false)
    (hcf : Set.InjOn hashToken (requestTexts actions)) :
    ∀ e ∈ happenings actions, ∀ p request m, IsExecutionOf e p request →
      e.out.accepted = some m → sameContent m request := by
  have hops : ∀ a ∈ actions, ∀ participantId request, a.op = .execute participantId request →
      request.text ∈ requestTexts actions := fun a ha participantId request hop =>
    ⟨a, ha, participantId, request, hop, rfl⟩
  have hinv := Transition.inv_history_of_forall (I := HashedInv (requestTexts actions))
    (P := fun a => a ∈ actions) (fun db a h ha => hashedInv_step db a h (hnav a ha) (hops a ha))
    (hashedInv_initial _) fun a ha => ha
  intro e he p request m hof hout
  have hstep := Transition.step_of_mem he
  rw [show e.out = (e.act.step e.before).1 by rw [hstep]] at hout
  exact content_of_accepted hcf (hinv e he).1 hof.1
    (hops _ (Transition.act_mem he) _ _ hof.1) hout

theorem appended_run {actions : List Action} {e : Happening} (he : e ∈ happenings actions)
    {p : Pair} {request : MessageExecutionRequest} (hof : IsExecutionOf e p request) :
    e.after.messages.rows = e.before.messages.rows ++ e.out.created.toList := by
  have hstep := Transition.step_of_mem he
  rw [show e.out = (e.act.step e.before).1 by rw [hstep],
    show e.after = (e.act.step e.before).2 by rw [hstep]]
  exact messages_of_execution hof.1

omit [Sha256] in
theorem createdFor_eq_true {p : Pair} {e : Happening} (h : createdFor p e = true) :
    ∃ request m, IsExecutionOf e p request ∧ e.out.created = some m
      ∧ e.out.accepted = some m := by
  unfold createdFor at h
  split at h
  · rename_i participantId request hop
    rw [Bool.and_eq_true, decide_eq_true_eq] at h
    obtain ⟨rfl, hc⟩ := h
    obtain ⟨m, hm⟩ := Option.isSome_iff_exists.mp hc
    refine ⟨request, m, ⟨hop, rfl⟩, hm, ?_⟩
    unfold Outcome.created at hm
    split at hm
    · rename_i m' heq
      rw [heq]
      exact hm
    · exact absurd hm (by simp)
  · exact absurd h (by simp)

/-- **An intent is executed at most once**, in every run of executions, plain appends and
administration in which no two requests have the same hash. -/
theorem atMostOnce (actions : List Action) (hnav : ∀ a ∈ actions, a.op.isNavigation = false)
    (hcf : Set.InjOn hashToken (requestTexts actions)) : AtMostOnce actions where
  created := by
    intro p
    refine Transition.length_filter_le_one ((answers_run actions).imp fun h hc => ?_)
    obtain ⟨request, m, hof, -, hout⟩ := createdFor_eq_true hc
    rw [Bool.eq_false_iff]
    intro hc'
    obtain ⟨request', m', hof', hcreated, -⟩ := createdFor_eq_true hc'
    rw [(h p request request' m hof hout hof').1] at hcreated
    exact absurd hcreated (by simp)
  appended := fun e he p request hof => appended_run he hof
  same := (answers_run actions).imp fun h p request request' m m' hof hout hof' hout' =>
    (h p request request' m hof hout hof').2 m' hout'
  content := content_run hnav hcf
  differing := by
    refine (answers_run actions).imp_of_mem fun he he' h p request request' m hof hout hof' hne => ?_
    obtain ⟨hcreated, hsame⟩ := h p request request' m hof hout hof'
    constructor
    · rw [Option.eq_none_iff_forall_ne_some]
      intro m' hout'
      obtain rfl := hsame m' hout'
      exact hne (content_run hnav hcf _ he' p request' m' hof' hout')
    · have happ := appended_run he' hof'
      rw [hcreated, Option.toList_none, List.append_nil] at happ
      exact Table.ext happ

end Runs

section Sample

attribute [local instance] sampleSha256

/-- Alice says hello, and goodbye under the same intent: the texts have different hashes. -/
theorem atMostOnce_of_hello_and_goodbye :
    AtMostOnce [sampleProvision, sampleExecution 1 "hello" "delivery-1",
      sampleExecution 2 "goodbye" "delivery-2"] := by
  have hne : hashToken (sampleRequest "hello" "delivery-1").text
      ≠ hashToken (sampleRequest "goodbye" "delivery-2").text := by decide +kernel
  have htexts : ∀ text ∈ requestTexts [sampleProvision, sampleExecution 1 "hello" "delivery-1",
      sampleExecution 2 "goodbye" "delivery-2"],
      text = (sampleRequest "hello" "delivery-1").text
        ∨ text = (sampleRequest "goodbye" "delivery-2").text := by
    rintro text ⟨a, ha, participantId, request, hop, rfl⟩
    simp only [List.mem_cons, List.not_mem_nil, or_false] at ha
    rcases ha with rfl | rfl | rfl
    · exact absurd hop (by simp [sampleProvision])
    · exact Or.inl (congrArg _ (Op.execute.inj hop).2.symm)
    · exact Or.inr (congrArg _ (Op.execute.inj hop).2.symm)
  refine atMostOnce _ (by decide) fun text htext text' htext' heq => ?_
  rcases htexts text htext with rfl | rfl <;> rcases htexts text' htext' with rfl | rfl
  · rfl
  · exact absurd heq hne
  · exact absurd heq.symm hne
  · rfl

end Sample

end Blackboard
