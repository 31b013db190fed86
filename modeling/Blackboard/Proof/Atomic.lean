import Blackboard.Proof.AtMostOnce
import Blackboard.Proof.Channels

/-!
# Executions are atomic

An execution that is not accepted leaves every table as it was: whatever it did before it
gave up, the channel it created included, is undone with the transaction. One that finds
its message records the delivery, and a receipt where there was none, and nothing else.

The second half is where the store matters. A replay commits the channel it made sure of,
so its channel has to be there already. It is: the message that was found is in the
channel the request names, by its content or by the hash it was reserved under.
-/

namespace Blackboard

open Relational (Table)

section Atomic

variable [Sha256]

/-! ## Texts of reservations -/

/-- The text a navigation write of a message's content hashes. -/
def Message.navigationText (m : Message) : String :=
  navigationRequestText m.channel m.kind m.body m.replyTo

/-- The texts the writes of a run hash. -/
def hashedTexts (actions : List Action) : Set String :=
  requestTexts actions ∪ { text | ∃ a ∈ actions,
    ∃ participantId channel kind body replyTo nonce,
      a.op = .navigate participantId channel kind body replyTo nonce
      ∧ text = navigationRequestText channel kind body replyTo }

/-- A reservation carries the hash of one of the texts of its message, and that text was hashed. -/
def TextInv (texts : Set String) (db : Database) : Prop :=
  ∀ n ∈ db.navigationWrites, ∃ m ∈ db.messages, m.id = n.messageId
    ∧ ∃ text ∈ texts, (text = m.text ∨ text = m.navigationText) ∧ n.requestHash = hashToken text

omit [Sha256] in
/-- No execution has the text of a navigation write: the one names a conversation, the other
does not. -/
theorem messageRequestText_ne_navigationRequestText {channel kind body channel' kind' body' : String}
    {conversationRef : Option String} {replyTo replyTo' : Option Int} :
    messageRequestText channel kind body conversationRef replyTo
      ≠ navigationRequestText channel' kind' body' replyTo' := by
  intro h
  have hmembers := congrArg List.length (Json.renderObject_inj h)
  exact absurd hmembers (by simp)

theorem textInv_step {texts : Set String} (db : Database) (a : Action) (h : TextInv texts db)
    (hexec : ∀ participantId request, a.op = .execute participantId request →
      request.text ∈ texts)
    (hnav : ∀ participantId channel kind body replyTo nonce,
      a.op = .navigate participantId channel kind body replyTo nonce →
        navigationRequestText channel kind body replyTo ∈ texts) :
    TextInv texts (a.step db).2 := by
  have hold : ∀ n ∈ db.navigationWrites, ∃ m ∈ (a.step db).2.messages, m.id = n.messageId
      ∧ ∃ text ∈ texts, (text = m.text ∨ text = m.navigationText)
        ∧ n.requestHash = hashToken text := by
    intro n hn
    obtain ⟨m, hm, hmid⟩ := h n hn
    exact ⟨m, (a.grows db).messages m hm, hmid⟩
  intro n hn
  rcases a.step_cases db with hq | ⟨_, channel, kind, body, replyTo, _, _, m, hop, -, hw⟩
    | ⟨_, request, _, m, he, -, hf⟩ | ⟨_, _, _, _, -, -, hr⟩
  · rw [hq.navigation] at hn
    exact hold n hn
  · rcases (hw.mem_navigation n).mp hn with hmem | rfl
    · exact hold n hmem
    · refine ⟨m, (hw.mem_messages m).mpr (Or.inr rfl), rfl, _, hnav _ _ _ _ _ _ hop,
        Or.inr ?_, rfl⟩
      rw [hw.message]
      rfl
  · rcases (hf.mem_navigation n).mp hn with hmem | rfl
    · exact hold n hmem
    · refine ⟨m, (hf.mem_messages m).mpr (Or.inr rfl), rfl, _, hexec _ _ he.op, Or.inl ?_,
        hf.toAccepted.requestHash⟩
      rw [hf.effects.message]
      rfl
  · rw [hr.frame] at hn
    exact hold n hn

theorem textInv_stateAfter (actions : List Action) :
    TextInv (hashedTexts actions) (stateAfter actions) := by
  refine Transition.inv_run_of_forall (P := fun a => a ∈ actions)
    (fun db a h ha => textInv_step db a h ?_ ?_) (fun _ h => absurd h (Table.not_mem_empty _))
    fun a ha => ha
  · exact fun participantId request hop => Or.inl ⟨a, ha, participantId, request, hop, rfl⟩
  · exact fun _ _ _ _ _ _ hop => Or.inr ⟨a, ha, _, _, _, _, _, _, hop, rfl⟩

/-! ## Atomicity -/

/-- A step that does no more than record a delivery of the pair, and a receipt if it had none. -/
structure OnlyRecords (p : Pair) (db db' : Database) : Prop where
  frame : db' = { db with ingress := db'.ingress, receipts := db'.receipts }
  ingressKept : ∀ i ∈ db.ingress, i ∈ db'.ingress
  ingressNew : ∃ row, ∀ i ∈ db'.ingress, i ∈ db.ingress ∨ i = row
  receiptsKept : ∀ r ∈ db.receipts, r ∈ db'.receipts
  receiptNew : ∃ row : ExecutionReceipt, row.pair = p
    ∧ ∀ r ∈ db'.receipts, r ∈ db.receipts ∨ r = row ∧ db.receipts.find p = none

/-- What an execution may leave behind. -/
structure ExecutionAtomic (now : Int) (identity : Identity) (request : MessageExecutionRequest)
    (db : Database) : Prop where
  /-- Nothing, unless it created a message or found one. -/
  rejected : (∀ m, (executeMessageIntent now identity request db).1 ≠ .ok (.created m)
      ∧ (executeMessageIntent now identity request db).1 ≠ .ok (.existing m)) →
    (executeMessageIntent now identity request db).2 = db
  /-- Where it found one, a record of the delivery. -/
  existing : ∀ m, (executeMessageIntent now identity request db).1 = .ok (.existing m) →
    OnlyRecords (executionPair identity request) db (executeMessageIntent now identity request db).2

/-- The message a replay finds is in the channel the request names. -/
theorem Replayed.channel_eq {now : Int} {identity : Identity} {request : MessageExecutionRequest}
    {db db' : Database} {m : Message} {texts : Set String}
    (hcf : Set.InjOn hashToken (insert request.text texts)) (h : TextInv texts db)
    (hr : Replayed now identity request db m db') : m.channel = request.channel := by
  obtain ⟨n, hn, hm, hhash | hsame⟩ := hr.stored
  · obtain ⟨m', hm', hid, text, htext, hof, hnhash⟩ := h n (Table.mem_of_find hn)
    have hmm : m' = m :=
      Table.eq_of_key hm' (Table.mem_of_find hm) (hid.trans (Table.key_of_find hm).symm)
    subst hmm
    have heq : text = request.text := by
      refine hcf (Set.mem_insert_of_mem _ htext) (Set.mem_insert _ _) ?_
      rw [← hnhash, hhash]
      exact hr.toAccepted.requestHash
    rcases hof with rfl | rfl
    · exact (messageRequestText_inj heq).1
    · exact absurd heq.symm messageRequestText_ne_navigationRequestText
  · exact hsame.1

theorem Replayed.onlyRecords {now : Int} {identity : Identity} {request : MessageExecutionRequest}
    {db db' : Database} {m : Message} (hr : Replayed now identity request db m db')
    (hchannel : (db.channels.find request.channel).isSome) :
    OnlyRecords (executionPair identity request) db db' := by
  obtain ⟨row, hrow⟩ := Option.isSome_iff_exists.mp hchannel
  have hchannels : db'.channels = db.channels := by
    rw [hr.toAccepted.channels, ensureChannel_of_some hrow]
  have hframe := hr.frame
  rw [hchannels] at hframe
  refine ⟨hframe, hr.ingress.kept, ⟨_, hr.ingress.new⟩, hr.receipts.kept,
    executionReceipt request m.id, hr.toAccepted.pair m.id, ?_⟩
  rw [← hr.toAccepted.pair m.id]
  exact hr.receipts.new

/-- **Executions are atomic** in every reachable store, where the hashes of the requests made so
far and of this one tell their texts apart. -/
theorem execution_atomic (actions : List Action) (now : Int) (identity : Identity)
    (request : MessageExecutionRequest)
    (hcf : Set.InjOn hashToken (insert request.text (hashedTexts actions))) :
    ExecutionAtomic now identity request (stateAfter actions) where
  rejected := by
    intro hno
    rcases executeMessageIntent_cases now identity request (stateAfter actions) with
      ⟨m, hout, -⟩ | ⟨m, hout, -⟩ | ⟨hdb, -⟩
    · exact absurd hout (hno m).1
    · exact absurd hout (hno m).2
    · exact hdb
  existing := by
    intro m hout
    rcases executeMessageIntent_cases now identity request (stateAfter actions) with
      ⟨m', hout', -⟩ | ⟨m', hout', hr⟩ | ⟨-, hno⟩
    · rw [hout] at hout'
      exact absurd hout' (by simp)
    · obtain ⟨n, -, hm, -⟩ := hr.stored
      have hchannel := hr.channel_eq hcf (textInv_stateAfter actions)
      refine hr.onlyRecords ?_
      rw [← hchannel]
      exact channeledInv_stateAfter actions m' (Table.mem_of_find hm)
    · exact absurd hout (hno m).2

end Atomic

section Sample

attribute [local instance] sampleSha256

/-- Alice has said hello; her hello arrives once more, by another delivery. -/
theorem execution_atomic_of_second_delivery :
    ExecutionAtomic 2 ⟨"chatgpt", "alice", none⟩ (sampleRequest "hello" "delivery-2")
      (stateAfter [sampleProvision, sampleExecution 1 "hello" "delivery-1"]) := by
  refine execution_atomic _ 2 _ _ ?_
  -- there is one text
  have htext : ∀ text ∈ insert (sampleRequest "hello" "delivery-2").text
      (hashedTexts [sampleProvision, sampleExecution 1 "hello" "delivery-1"]),
      text = (sampleRequest "hello" "delivery-2").text := by
    intro text h
    rcases h with h | ⟨a, ha, participantId, request, hop, rfl⟩
      | ⟨a, ha, _, _, _, _, _, _, hop, -⟩
    · exact h
    · simp only [List.mem_cons, List.not_mem_nil, or_false] at ha
      rcases ha with rfl | rfl
      · exact absurd hop (by simp [sampleProvision])
      · obtain ⟨-, rfl⟩ := Op.execute.inj hop
        rfl
    · simp only [List.mem_cons, List.not_mem_nil, or_false] at ha
      rcases ha with rfl | rfl
      · exact absurd hop (by simp [sampleProvision])
      · exact absurd hop (by simp [sampleExecution])
  intro text h text' h' _
  rw [htext text h, htext text' h']

end Sample

end Blackboard
