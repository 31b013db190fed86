import Blackboard.Proof.Channels
import Blackboard.Proof.Effects

/-!
# A retry finds what it retries

An execution that commits, or that finds an earlier commit, leaves four rows behind: the
message, the reservation, the delivery and the receipt (`Recorded`). No effect of any
request takes one of them away or alters it, so the same request delivered again finds all
four as it needs them and is answered with the message.

It gets that far only past two checks that come first: the kernel has to allow it, and the
channel has to be active. The channel is there, since none is ever taken away, but it may
have been archived, and then the retry is refused without looking for the message.
-/

namespace Blackboard

open Relational (Table transaction)

/-! ## Runs of effects -/

section Runs

variable [Sha256] [Hmac] [Base64Url]

/-- What an execution answers. The other effects have no answer of this kind. -/
def Effect.answer : Effect → World → Option (Except SqlError MessageExecutionResult)
  | .execute writer request, w => some (executeMessageIntent w.now writer request w.db).1
  | _, _ => none

def Effect.step (e : Effect) (w : World) : Option (Except SqlError MessageExecutionResult) × World :=
  (e.answer w, e.apply w)

/-- A store after whatever requests have done to it, one effect after another. -/
def worldAfter (start : World) (effects : List Effect) : World :=
  Transition.run Effect.step start effects

abbrev Deed := Transition.Event World Effect (Option (Except SqlError MessageExecutionResult))

def deeds (start : World) (effects : List Effect) : List Deed :=
  Transition.history Effect.step start effects

omit [Sha256] [Hmac] [Base64Url] in
/-- A new database at some time. -/
def World.new (now : Int) : World := ⟨Database.initial, now⟩

/-- The execution was answered with this message: it appended it, or it found it. -/
def Commits (e : Deed) (writer : Identity) (request : MessageExecutionRequest) (m : Message) :
    Prop :=
  e.act = .execute writer request
    ∧ (e.out = some (.ok (.created m)) ∨ e.out = some (.ok (.existing m)))

end Runs

/-! ## What an execution leaves behind -/

section Recorded

variable [Sha256]

/-- The rows of an execution that was answered with a message. -/
structure Recorded (writer : Identity) (request : MessageExecutionRequest) (m : Message)
    (db : Database) : Prop where
  consistent : requestConsistent writer request
  channel : (db.channels.find request.channel).isSome
  message : m ∈ db.messages
  reservation : ∃ n ∈ db.navigationWrites, n.pair = executionPair writer request
    ∧ n.messageId = m.id
    ∧ (n.requestHash = request.intent.requestHash ∨ sameContent m request)
  ingress : ∃ i ∈ db.ingress, i.deliveryId = request.ingress.deliveryId
    ∧ ∀ now, sameDelivery i (ingressRow now request.ingress (executionReceipt request m.id))
  receipt : ∃ r ∈ db.receipts, r.pair = (executionReceipt request m.id).pair
    ∧ r.capability = request.intent.capability ∧ r.messageId = m.id ∧ r.status = "committed"

variable {now : Int} {writer : Identity} {request : MessageExecutionRequest} {m : Message}
  {db db' : Database}

theorem Accepted.channel (h : Accepted now writer request db db') :
    (db'.channels.find request.channel).isSome := by
  rw [h.channels]
  exact find_ensureChannel_isSome now request.channel (some writer.inst) db

theorem FirstExecuted.recorded (h : FirstExecuted now writer request db m db') :
    Recorded writer request m db' := by
  obtain ⟨i, hi, hid, hsame⟩ := h.effects.ingress.present
  obtain ⟨r, hr, hpair, hcap, hmid, hstatus⟩ := h.effects.receipts.present
  refine ⟨h.consistent, h.toAccepted.channel, (h.mem_messages m).mpr (Or.inr rfl), ?_,
    ⟨i, hi, hid, fun _ => hsame⟩, r, hr, hpair, hcap, hmid, hstatus⟩
  exact ⟨_, (h.mem_navigation _).mpr (Or.inr rfl), rfl, rfl, Or.inl rfl⟩

theorem Replayed.recorded (h : Replayed now writer request db m db') :
    Recorded writer request m db' := by
  obtain ⟨n, hn, hm, hagree⟩ := h.stored
  obtain ⟨i, hi, hid, hsame⟩ := h.ingress.present
  obtain ⟨r, hr, hpair, hcap, hmid, hstatus⟩ := h.receipts.present
  have hmessages : db'.messages = db.messages := by rw [h.frame]
  have hnavigation : db'.navigationWrites = db.navigationWrites := by rw [h.frame]
  refine ⟨h.consistent, h.toAccepted.channel, ?_, ?_, ⟨i, hi, hid, fun _ => hsame⟩, r, hr, hpair,
    hcap, hmid, hstatus⟩
  · rw [hmessages]
    exact Table.mem_of_find hm
  · rw [hnavigation]
    exact ⟨n, Table.mem_of_find hn, Table.key_of_find hn, (Table.key_of_find hm).symm, hagree⟩

/-- **The rows are all the retry needs**, whoever the writer is recorded as by now. -/
theorem Recorded.retry {writer' : Identity} (h : Recorded writer request m db)
    (hinst : writer'.inst = writer.inst)
    (hallowed : (executionDecision now db request).allowed = true)
    (hactive : channelIsActive db request.channel = true) :
    executeMessageIntent now writer' request db = (.ok (.existing m), db) := by
  obtain ⟨n, hn, hpair, hmid, hagree⟩ := h.reservation
  have hfind : db.navigationWrites.find (writer'.inst, request.intent.intentId) = some n := by
    have hself := Table.find_of_mem hn
    rw [hpair] at hself
    rw [hinst]
    exact hself
  have hm : db.messages.find n.messageId = some m := by
    rw [hmid]
    exact Table.find_of_mem h.message
  obtain ⟨i, hi, hid, hsame⟩ := h.ingress
  have hingress : recordIngress now request.ingress (executionReceipt request m.id) db = .ok db := by
    have hfound : db.ingress.find request.ingress.deliveryId = some i := hid ▸ Table.find_of_mem hi
    unfold recordIngress
    rw [hfound]
    exact if_pos (hsame now)
  obtain ⟨r, hr, hrpair, hcap, hrmid, hstatus⟩ := h.receipt
  have hreceipt : recordReceipt (executionReceipt request m.id) db = .ok db := by
    have hfound : db.receipts.find (executionReceipt request m.id).pair = some r :=
      hrpair ▸ Table.find_of_mem hr
    unfold recordReceipt
    rw [hfound]
    refine if_neg ?_
    rw [not_or, not_or, not_not, not_not, not_not]
    exact ⟨hcap, hrmid, hstatus⟩
  have hrecord : recordExecutionInTx now request.ingress (executionReceipt request m.id) db
      = .ok db := by
    unfold recordExecutionInTx
    rw [hingress]
    exact hreceipt
  -- the channel is there, so nothing is done about it
  obtain ⟨row, hrow⟩ := Option.isSome_iff_exists.mp h.channel
  have hens : ensureChannel now request.channel (some writer'.inst) db = { db with
      channels := db.channels } := ensureChannel_of_some hrow
  have hbody := executeMessageIntentInTx_of_allowed hallowed hens
  rw [if_neg (by simp [hactive]), reserveNavigation_of_some hfind, if_pos rfl] at hbody
  have hreplay : replayExecution now writer' request db = .ok (.commit (.existing m) db) := by
    unfold replayExecution
    rw [hfind]
    simp only [messageById, hm]
    rw [if_neg, hrecord]
    rw [not_and_or, not_not, not_not]
    exact hagree
  have hcons : requestConsistent writer' request := by
    obtain ⟨hprincipal, hintent, hwriter, hrest⟩ := h.consistent
    exact ⟨hprincipal, hintent, hinst.trans hwriter, hrest⟩
  unfold executeMessageIntent
  rw [if_pos hcons]
  exact Relational.transaction_of_commit (hbody.trans hreplay)

/-- In an archived channel the retry is refused before it looks for its message. -/
theorem Recorded.retry_of_archived {writer' : Identity} (h : Recorded writer request m db)
    (hinst : writer'.inst = writer.inst)
    (hallowed : (executionDecision now db request).allowed = true)
    (hactive : channelIsActive db request.channel = false) :
    executeMessageIntent now writer' request db = (.ok .channelArchived, db) := by
  obtain ⟨row, hrow⟩ := Option.isSome_iff_exists.mp h.channel
  have hens : ensureChannel now request.channel (some writer'.inst) db = { db with
      channels := db.channels } := ensureChannel_of_some hrow
  have hbody := executeMessageIntentInTx_of_allowed hallowed hens
  rw [if_pos hactive] at hbody
  have hcons : requestConsistent writer' request := by
    obtain ⟨hprincipal, hintent, hwriter, hrest⟩ := h.consistent
    exact ⟨hprincipal, hintent, hinst.trans hwriter, hrest⟩
  unfold executeMessageIntent
  rw [if_pos hcons]
  exact Relational.transaction_of_rollback hbody

end Recorded

/-! ## Rows stay -/

section Kept

/-- The rows a retry looks for stay as they are. -/
structure RowsKept (db db' : Database) : Prop where
  channels : ChannelsKept db db'
  messages : ∀ m ∈ db.messages, m ∈ db'.messages
  navigation : ∀ n ∈ db.navigationWrites, n ∈ db'.navigationWrites
  ingress : ∀ i ∈ db.ingress, i ∈ db'.ingress
  receipts : ∀ r ∈ db.receipts, r ∈ db'.receipts

theorem RowsKept.refl (db : Database) : RowsKept db db :=
  ⟨fun _ h => h, fun _ h => h, fun _ h => h, fun _ h => h, fun _ h => h⟩

theorem RowsKept.trans {db₁ db₂ db₃ : Database} (h : RowsKept db₁ db₂) (h' : RowsKept db₂ db₃) :
    RowsKept db₁ db₃ :=
  ⟨fun c hc => h'.channels c (h.channels c hc), fun m hm => h'.messages m (h.messages m hm),
    fun n hn => h'.navigation n (h.navigation n hn), fun i hi => h'.ingress i (h.ingress i hi),
    fun r hr => h'.receipts r (h.receipts r hr)⟩

theorem SameLedger.rowsKept {db db' : Database} (h : SameLedger db db')
    (hc : ChannelsKept db db') : RowsKept db db' := by
  refine ⟨hc, ?_, ?_, ?_, ?_⟩
  · rw [h.messages]
    exact fun _ hm => hm
  · rw [h.navigation]
    exact fun _ hn => hn
  · rw [h.ingress]
    exact fun _ hi => hi
  · rw [h.receipts]
    exact fun _ hr => hr

variable [Sha256]

theorem Recorded.kept {writer : Identity} {request : MessageExecutionRequest} {m : Message}
    {db db' : Database} (h : Recorded writer request m db) (hk : RowsKept db db') :
    Recorded writer request m db' := by
  obtain ⟨n, hn, hrest⟩ := h.reservation
  obtain ⟨i, hi, hirest⟩ := h.ingress
  obtain ⟨r, hr, hrrest⟩ := h.receipt
  exact ⟨h.consistent, hk.channels _ h.channel, hk.messages m h.message,
    ⟨n, hk.navigation n hn, hrest⟩, ⟨i, hk.ingress i hi, hirest⟩, r, hk.receipts r hr, hrrest⟩

omit [Sha256] in
theorem channelsKept_of_ensured {now : Int} {channel : String} {createdBy : Option String}
    {db db' : Database} (h : db'.channels = (ensureChannel now channel createdBy db).channels) :
    ChannelsKept db db' := by
  intro name hname
  rw [h]
  exact channelsKept_ensureChannel now channel createdBy db name hname

variable [Hmac] [Base64Url]

/-- **No effect takes a channel away.** -/
theorem Effect.channelsKept (e : Effect) (w : World) : ChannelsKept w.db (e.apply w).db := by
  rcases e.cases_channels w with hsame | ⟨now, name, createdBy, -, hens⟩ | ⟨op, rfl⟩
  · exact ChannelsKept.of_eq hsame
  · exact channelsKept_of_ensured hens
  · exact op.channelsKept w.now w.db

/-- **No effect takes a row away that a retry looks for.** -/
theorem Effect.rowsKept (e : Effect) (w : World) : RowsKept w.db (e.apply w).db := by
  have hc := e.channelsKept w
  rcases e.cases_ledger w with
    hsame | ⟨identity, fields, rfl⟩ | ⟨writer, payload, m, -, hw, -⟩
      | ⟨writer, request, m, -, hf⟩ | ⟨writer, request, m, -, hr⟩
  · exact hsame.rowsKept hc
  · exact ⟨hc, fun _ hm => mem_append_messageRow.mpr (Or.inl hm), fun _ h => h, fun _ h => h,
      fun _ h => h⟩
  · have hg := hw.grows
    exact ⟨hc, hg.messages, hg.navigation, hg.ingress, hg.receipts⟩
  · have hg := hf.grows
    exact ⟨hc, hg.messages, hg.navigation, hg.ingress, hg.receipts⟩
  · have hg := hr.grows
    exact ⟨hc, hg.messages, hg.navigation, hg.ingress, hg.receipts⟩

/-! ## Every run -/

/-- What an execution left is there at the end of the run. -/
theorem recorded_run {start : World} {effects : List Effect} {e : Deed}
    (he : e ∈ deeds start effects) {writer : Identity} {request : MessageExecutionRequest}
    {m : Message} (hc : Commits e writer request m) :
    Recorded writer request m (worldAfter start effects).db := by
  obtain ⟨hact, hout⟩ := hc
  have hstep := Transition.step_of_mem he
  rw [hact] at hstep
  have hanswer : e.out = some (executeMessageIntent e.before.now writer request e.before.db).1 :=
    (congrArg Prod.fst hstep).symm
  have hafter : e.after.db = (executeMessageIntent e.before.now writer request e.before.db).2 :=
    congrArg (fun s => s.2.db) hstep.symm
  have hleft : Recorded writer request m e.after.db := by
    rw [hafter]
    rw [hanswer, Option.some.injEq, Option.some.injEq] at hout
    rcases executeMessageIntent_cases e.before.now writer request e.before.db with
      ⟨m', ho, hf⟩ | ⟨m', ho, hr⟩ | ⟨-, hno⟩
    · rcases hout with hout | hout
      · rw [ho, Except.ok.injEq, MessageExecutionResult.created.injEq] at hout
        rw [← hout]
        exact hf.recorded
      · rw [ho] at hout
        exact absurd hout (by simp)
    · rcases hout with hout | hout
      · rw [ho] at hout
        exact absurd hout (by simp)
      · rw [ho, Except.ok.injEq, MessageExecutionResult.existing.injEq] at hout
        rw [← hout]
        exact hr.recorded
    · rcases hout with hout | hout
      · exact absurd hout (hno m).1
      · exact absurd hout (hno m).2
  exact hleft.kept (Transition.rel_of_mem (R := fun w w' => RowsKept w.db w'.db)
    (fun w => .refl w.db)
    (fun {w₁ w₂ w₃} (h : RowsKept w₁.db w₂.db) (h' : RowsKept w₂.db w₃.db) => h.trans h')
    (fun w e => e.rowsKept w) he)

omit [Hmac] [Base64Url] in
/-- A receipt that an execution adds is its own. -/
theorem commits_of_new_receipt {now : Int} {writer : Identity} {request : MessageExecutionRequest}
    {db : Database} {r : ExecutionReceipt} (hold : r ∉ db.receipts)
    (hr : r ∈ (executeMessageIntent now writer request db).2.receipts) :
    ∃ m : Message, ((executeMessageIntent now writer request db).1 = .ok (.created m)
        ∨ (executeMessageIntent now writer request db).1 = .ok (.existing m))
      ∧ executionPair writer request = r.pair ∧ m.id = r.messageId := by
  have hown : ∀ m : Message, requestConsistent writer request → r = executionReceipt request m.id →
      executionPair writer request = r.pair ∧ m.id = r.messageId := by
    intro m hcons hnew
    rw [hnew]
    exact ⟨Prod.ext hcons.2.2.1 rfl, rfl⟩
  rcases executeMessageIntent_cases now writer request db with
    ⟨m, ho, hf⟩ | ⟨m, ho, hp⟩ | ⟨hdb, -⟩
  · rcases hf.effects.receipts.new r hr with hmem | ⟨hnew, -⟩
    · exact absurd hmem hold
    · exact ⟨m, Or.inl ho, hown m hf.consistent hnew⟩
  · rcases hp.receipts.new r hr with hmem | ⟨hnew, -⟩
    · exact absurd hmem hold
    · exact ⟨m, Or.inr ho, hown m hp.consistent hnew⟩
  · rw [hdb] at hr
    exact absurd hr hold

/-- A receipt at the end of a run was left by an execution of the run. -/
theorem commits_of_receipt {now : Int} {effects : List Effect} {r : ExecutionReceipt}
    (hr : r ∈ (worldAfter (.new now) effects).db.receipts) :
    ∃ e ∈ deeds (.new now) effects, ∃ writer request m, Commits e writer request m
      ∧ executionPair writer request = r.pair ∧ m.id = r.messageId := by
  obtain ⟨e, he, hbefore, hafter⟩ := @Transition.exists_event _ _ _ Effect.step
    (fun w => r ∈ w.db.receipts) _ _ (Table.not_mem_empty r) hr
  have hstep := Transition.step_of_mem he
  have hout : e.out = e.act.answer e.before := (congrArg Prod.fst hstep).symm
  rw [show e.after = e.act.apply e.before from (congrArg Prod.snd hstep).symm] at hafter
  -- only an execution adds a receipt
  have hexecute : ∃ writer request, e.act = .execute writer request := by
    rcases e.act.cases_ledger e.before with
      hsame | ⟨identity, fields, hact⟩ | ⟨writer, payload, m, -, hw, -⟩
        | ⟨writer, request, m, hact, -⟩ | ⟨writer, request, m, hact, -⟩
    · rw [hsame.receipts] at hafter
      exact absurd hafter hbefore
    · rw [hact] at hafter
      exact absurd hafter hbefore
    · rw [hw.frame] at hafter
      exact absurd hafter hbefore
    · exact ⟨writer, request, hact⟩
    · exact ⟨writer, request, hact⟩
  obtain ⟨writer, request, hact⟩ := hexecute
  rw [hact] at hafter hout
  obtain ⟨m, ho, hpair, hid⟩ := commits_of_new_receipt hbefore hafter
  refine ⟨e, he, writer, request, m, ⟨hact, ?_⟩, hpair, hid⟩
  rw [hout]
  exact ho.imp (congrArg some) (congrArg some)

/-! ## Retries -/

/-- What a retry is told at the end of a run. -/
structure Retried (writer : Identity) (request : MessageExecutionRequest) (m : Message)
    (w : World) : Prop where
  /-- The kernel still allows it and the channel takes messages: it finds its message. -/
  existing : (executionDecision w.now w.db request).allowed = true →
    channelIsActive w.db request.channel = true →
      executeMessageIntent w.now writer request w.db = (.ok (.existing m), w.db)
  /-- The kernel still allows it, but the channel is archived. -/
  archived : (executionDecision w.now w.db request).allowed = true →
    channelIsActive w.db request.channel = false →
      executeMessageIntent w.now writer request w.db = (.ok .channelArchived, w.db)

/-- Every committed intent of a run, and every retry of it at the end. -/
structure RetryStable (start : World) (effects : List Effect) : Prop where
  /-- A receipt is what an execution of the run has left. -/
  committed : ∀ r ∈ (worldAfter start effects).db.receipts, ∃ e ∈ deeds start effects,
    ∃ writer request m, Commits e writer request m ∧ executionPair writer request = r.pair
      ∧ m.id = r.messageId
  /-- Whatever came in between, the request of a committed execution is answered with the message
  of that execution, as long as its channel takes messages. -/
  retried : ∀ e ∈ deeds start effects, ∀ writer request m, Commits e writer request m →
    ∀ writer' : Identity, writer'.inst = writer.inst →
      Retried writer' request m (worldAfter start effects)

/-- **A retry finds what it retries**, after any effects of any requests, if the kernel allows it
and its channel is active; in an archived channel it is refused. -/
theorem retry_stable (now : Int) (effects : List Effect) : RetryStable (.new now) effects where
  committed := fun _ hr => commits_of_receipt hr
  retried := by
    intro e he writer request m hc writer' hinst
    have hrecorded := recorded_run he hc
    exact ⟨fun hallowed hactive => hrecorded.retry hinst hallowed hactive,
      fun hallowed hactive => hrecorded.retry_of_archived hinst hallowed hactive⟩

end Kept

/-! ## A channel archived in between -/

section Sample

attribute [local instance] sampleSha256 sampleHmac sampleBase64Url

private def helloWriter : Identity := ⟨"chatgpt", "alice", none⟩

/-- Alice says hello, and the channel is archived. -/
private def archivedAfterHello : List Effect :=
  [.participant (.provision "alice" "chatgpt" none),
    .execute helloWriter (sampleRequest "hello" "delivery-1"),
    .channel (.update "general" none (some "archived"))]

/-- The kernel still allows her, and nothing is wrong with the request. -/
theorem archived_channel_refuses_retry :
    ∃ e ∈ deeds (.new 0) archivedAfterHello, ∃ m,
      Commits e helloWriter (sampleRequest "hello" "delivery-1") m
      ∧ (executionDecision 0 (worldAfter (.new 0) archivedAfterHello).db
          (sampleRequest "hello" "delivery-1")).allowed = true
      ∧ (executeMessageIntent 0 helloWriter (sampleRequest "hello" "delivery-1")
          (worldAfter (.new 0) archivedAfterHello).db).1 = .ok .channelArchived := by
  refine ⟨_, List.mem_cons_of_mem _ List.mem_cons_self,
    ⟨1, 0, "general", "chatgpt", "alice", none, "message", "hello", none⟩, ⟨rfl, Or.inl ?_⟩, ?_, ?_⟩
  · decide +kernel
  · decide +kernel
  · decide +kernel

end Sample

end Blackboard
