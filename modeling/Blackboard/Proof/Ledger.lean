import Blackboard.Proof.Administration

/-!
# The ledger only grows

No operation takes a message, a reservation, a receipt, a delivery or a recorded authority
away, and a grant that was consumed stays consumed by the intent that consumed it
(`Grows`). So an invariant of the form "every row of this table has its row in that one"
only has to be checked for the rows a step adds, and `Action.step_cases` says which rows
those are.

Four invariants hold in every run. Texts that name somebody are not blank (`TextsInv`);
every reservation has its message (`ReservedInv`); every receipt, delivery and recorded
authority belongs to a reserved intent and agrees with its message (`LedgerInv`); a grant
is consumed exactly by the intents whose recorded authority cites it (`ConsumedInv`).
-/

namespace Blackboard

open Relational (Table)

/-! ## Growing -/

/-- A grant that is still there: what it grants is the same, and its consumption is final. -/
structure GrantKept (g g' : DelegatedGrant) : Prop where
  id : g'.id = g.id
  participantId : g'.participantId = g.participantId
  capability : g'.capability = g.capability
  oneShot : g'.oneShot = g.oneShot
  consumed : g.consumedAt ≠ none →
    g'.consumedAt = g.consumedAt ∧ g'.consumedIntentId = g.consumedIntentId

theorem GrantKept.refl (g : DelegatedGrant) : GrantKept g g :=
  ⟨rfl, rfl, rfl, rfl, fun _ => ⟨rfl, rfl⟩⟩

theorem GrantKept.trans {g₁ g₂ g₃ : DelegatedGrant} (h₁ : GrantKept g₁ g₂) (h₂ : GrantKept g₂ g₃) :
    GrantKept g₁ g₃ := by
  refine ⟨h₂.id.trans h₁.id, h₂.participantId.trans h₁.participantId,
    h₂.capability.trans h₁.capability, h₂.oneShot.trans h₁.oneShot, fun hc => ?_⟩
  obtain ⟨hat, hby⟩ := h₁.consumed hc
  obtain ⟨hat', hby'⟩ := h₂.consumed (by rw [hat]; exact hc)
  exact ⟨hat'.trans hat, hby'.trans hby⟩

theorem SameGrant.kept {g g' : DelegatedGrant} (h : SameGrant g g') : GrantKept g g' := by
  rw [h]
  exact ⟨rfl, rfl, rfl, rfl, fun _ => ⟨rfl, rfl⟩⟩

/-- Nothing the ledger holds is lost. -/
structure Grows (db db' : Database) : Prop where
  messages : ∀ m ∈ db.messages, m ∈ db'.messages
  navigation : ∀ n ∈ db.navigationWrites, n ∈ db'.navigationWrites
  receipts : ∀ r ∈ db.receipts, r ∈ db'.receipts
  ingress : ∀ i ∈ db.ingress, i ∈ db'.ingress
  provenance : ∀ a ∈ db.provenance, a ∈ db'.provenance
  grants : ∀ g ∈ db.delegatedGrants, ∃ g' ∈ db'.delegatedGrants, GrantKept g g'

theorem Grows.refl (db : Database) : Grows db db :=
  ⟨fun _ h => h, fun _ h => h, fun _ h => h, fun _ h => h, fun _ h => h,
    fun g hg => ⟨g, hg, .refl g⟩⟩

theorem Grows.trans {db₁ db₂ db₃ : Database} (h₁ : Grows db₁ db₂) (h₂ : Grows db₂ db₃) :
    Grows db₁ db₃ := by
  refine ⟨fun m hm => h₂.messages m (h₁.messages m hm),
    fun n hn => h₂.navigation n (h₁.navigation n hn), fun r hr => h₂.receipts r (h₁.receipts r hr),
    fun i hi => h₂.ingress i (h₁.ingress i hi),
    fun a ha => h₂.provenance a (h₁.provenance a ha), fun g hg => ?_⟩
  obtain ⟨g', hg', hk⟩ := h₁.grants g hg
  obtain ⟨g'', hg'', hk'⟩ := h₂.grants g' hg'
  exact ⟨g'', hg'', hk.trans hk'⟩

/-! ## Steps that record nothing -/

/-- Texts that name a participant or a principal. -/
structure TextsInv (db : Database) : Prop where
  participants : ∀ p ∈ db.webParticipants, Text.isBlank p.participantId = false
  owners : ∀ p ∈ db.webParticipants, ∀ subject, p.ownerSubject = some subject →
    Text.isBlank subject = false
  durable : ∀ g ∈ db.principalGrants, Named g.principalProvider g.principalSubject
  delegated : ∀ g ∈ db.delegatedGrants, Named g.principalProvider g.principalSubject

/-- A step that leaves the audit trail alone. It may add messages and edit the rest. -/
structure Quiet (db db' : Database) : Prop where
  messages : ∀ m ∈ db.messages, m ∈ db'.messages
  navigation : db'.navigationWrites = db.navigationWrites
  receipts : db'.receipts = db.receipts
  ingress : db'.ingress = db.ingress
  provenance : db'.provenance = db.provenance
  kept : ∀ g ∈ db.delegatedGrants, ∃ g' ∈ db'.delegatedGrants, SameGrant g g'
  delegated : ∀ g' ∈ db'.delegatedGrants, FreshGrant g' ∨ ∃ g ∈ db.delegatedGrants, SameGrant g g'
  texts : TextsInv db → TextsInv db'

theorem Quiet.refl (db : Database) : Quiet db db :=
  ⟨fun _ h => h, rfl, rfl, rfl, rfl, fun g hg => ⟨g, hg, rfl⟩, fun g hg => Or.inr ⟨g, hg, rfl⟩, id⟩

theorem Quiet.grows {db db' : Database} (h : Quiet db db') : Grows db db' := by
  refine ⟨h.messages, ?_, ?_, ?_, ?_, fun g hg => ?_⟩
  · rw [h.navigation]; exact fun _ hn => hn
  · rw [h.receipts]; exact fun _ hr => hr
  · rw [h.ingress]; exact fun _ hi => hi
  · rw [h.provenance]; exact fun _ ha => ha
  · obtain ⟨g', hg', hs⟩ := h.kept g hg
    exact ⟨g', hg', hs.kept⟩

theorem GrantsEdited.quiet {db db' : Database} (h : GrantsEdited db db') : Quiet db db' := by
  have hm : db'.messages = db.messages := by rw [h.frame]
  refine ⟨by rw [hm]; exact fun _ h => h, by rw [h.frame], by rw [h.frame], by rw [h.frame],
    by rw [h.frame], h.kept, h.delegated, fun ht => ?_⟩
  have hp : db'.webParticipants = db.webParticipants := by rw [h.frame]
  refine ⟨by rw [hp]; exact ht.participants, by rw [hp]; exact ht.owners, fun g' hg' => ?_,
    fun g' hg' => ?_⟩
  · rcases h.durable g' hg' with hnamed | ⟨g, hg, hprovider, hsubject⟩
    · exact hnamed
    · rw [hprovider, hsubject]
      exact ht.durable g hg
  · rcases h.delegated g' hg' with hfresh | ⟨g, hg, hs⟩
    · exact hfresh.named
    · rw [hs]
      exact ht.delegated g hg

theorem ParticipantsEdited.quiet {db db' : Database} (h : ParticipantsEdited db db') :
    Quiet db db' := by
  have hm : db'.messages = db.messages := by rw [h.frame]
  have hg : db'.delegatedGrants = db.delegatedGrants := by rw [h.frame]
  have hd : db'.principalGrants = db.principalGrants := by rw [h.frame]
  refine ⟨by rw [hm]; exact fun _ h => h, by rw [h.frame], by rw [h.frame], by rw [h.frame],
    by rw [h.frame], by rw [hg]; exact fun g hg => ⟨g, hg, rfl⟩,
    by rw [hg]; exact fun g hg => Or.inr ⟨g, hg, rfl⟩, fun ht => ?_⟩
  refine ⟨fun p' hp' => ?_, fun p' hp' subject hs => ?_, by rw [hd]; exact ht.durable,
    by rw [hg]; exact ht.delegated⟩
  · rcases h.ids p' hp' with hid | ⟨p, hp, hid⟩
    · exact hid
    · rw [hid]
      exact ht.participants p hp
  · rcases h.owners p' hp' subject hs with hok | ⟨p, hp, hs'⟩
    · exact hok
    · exact ht.owners p hp subject hs'

theorem quiet_of_channels {db : Database} (channels : Table Channel.name) :
    Quiet db { db with channels } :=
  ⟨fun _ h => h, rfl, rfl, rfl, rfl, fun g hg => ⟨g, hg, rfl⟩, fun g hg => Or.inr ⟨g, hg, rfl⟩,
    fun ht => ⟨ht.participants, ht.owners, ht.durable, ht.delegated⟩⟩

theorem appendMessage_quiet (now : Int) (identity : Identity) (channel kind body : String)
    (replyTo : Option Int) (db : Database) :
    Quiet db ((appendMessage identity channel kind body replyTo).run ⟨db, now⟩).2.db := by
  obtain ⟨channels, hrun⟩ := appendMessage_run now identity channel kind body replyTo db
  rw [hrun]
  exact ⟨fun _ h => mem_append_messageRow.mpr (Or.inl h), rfl, rfl, rfl, rfl,
    fun g hg => ⟨g, hg, rfl⟩, fun g hg => Or.inr ⟨g, hg, rfl⟩,
    fun ht => ⟨ht.participants, ht.owners, ht.durable, ht.delegated⟩⟩

/-! ## What a step can do -/

variable [Sha256]

/-- An execution that went through: who asked for what, and what it did. -/
structure Executes (a : Action) (db : Database) (participantId : String)
    (request : MessageExecutionRequest) (identity : Identity) : Prop where
  op : a.op = .execute participantId request
  participant : getWebParticipant db participantId = some identity

/-- **Every step** is quiet, or writes a reserved message, or executes an intent, or replays one. -/
theorem Action.step_cases (a : Action) (db : Database) :
    Quiet db (a.step db).2
    ∨ (∃ participantId channel kind body replyTo nonce identity m,
        a.op = .navigate participantId channel kind body replyTo nonce
        ∧ getWebParticipant db participantId = some identity
        ∧ NavigationWritten a.now identity (navigationInput channel kind body replyTo nonce) db m
          (a.step db).2)
    ∨ (∃ participantId request identity m, Executes a db participantId request identity
        ∧ (a.step db).1 = .executed (.ok (.created m))
        ∧ FirstExecuted a.now identity request db m (a.step db).2)
    ∨ (∃ participantId request identity m, Executes a db participantId request identity
        ∧ (a.step db).1 = .executed (.ok (.existing m))
        ∧ Replayed a.now identity request db m (a.step db).2) := by
  obtain ⟨now, op⟩ := a
  cases op with
  | grant op => exact Or.inl (op.edited now db).quiet
  | participant op => exact Or.inl (op.edited db).quiet
  | channel op =>
      refine Or.inl ?_
      obtain ⟨channels, hch⟩ := op.edited now db
      have hstep : (Action.step ⟨now, .channel op⟩ db).2 = { db with channels } := hch
      rw [hstep]
      exact quiet_of_channels channels
  | append identity channel kind body replyTo =>
      exact Or.inl (appendMessage_quiet now identity channel kind body replyTo db)
  | navigate participantId channel kind body replyTo nonce =>
      simp only [Action.step]
      cases hp : getWebParticipant db participantId with
      | none => exact Or.inl (Quiet.refl db)
      | some identity =>
          simp only
          rcases appendNavigationMessage_cases now identity
              (navigationInput channel kind body replyTo nonce) db with
            ⟨m, -, hw⟩ | ⟨m, -, -, hs⟩ | ⟨hs, -⟩
          · exact Or.inr (Or.inl ⟨_, _, _, _, _, _, identity, m, rfl, hp, hw⟩)
          · rw [hs]
            exact Or.inl (Quiet.refl db)
          · rw [hs]
            exact Or.inl (Quiet.refl db)
  | execute participantId request =>
      simp only [Action.step]
      cases hp : getWebParticipant db participantId with
      | none => exact Or.inl (Quiet.refl db)
      | some identity =>
          simp only
          rcases executeMessageIntent_cases now identity request db with
            ⟨m, ho, hf⟩ | ⟨m, ho, hr⟩ | ⟨hs, -⟩
          · exact Or.inr (Or.inr (Or.inl ⟨_, _, identity, m, ⟨rfl, hp⟩, by rw [ho], hf⟩))
          · exact Or.inr (Or.inr (Or.inr ⟨_, _, identity, m, ⟨rfl, hp⟩, by rw [ho], hr⟩))
          · rw [hs]
            exact Or.inl (Quiet.refl db)

/-- An accepted execution is a first one or a replay. -/
theorem Action.accepted_cases {a : Action} {db : Database} {participantId : String}
    {request : MessageExecutionRequest} {m : Message} (hop : a.op = .execute participantId request)
    (hout : (a.step db).1.accepted = some m) :
    ∃ identity, getWebParticipant db participantId = some identity
      ∧ ((a.step db).1 = .executed (.ok (.created m))
          ∧ FirstExecuted a.now identity request db m (a.step db).2
        ∨ (a.step db).1 = .executed (.ok (.existing m))
          ∧ Replayed a.now identity request db m (a.step db).2) := by
  obtain ⟨now, op⟩ := a
  obtain rfl : op = .execute participantId request := hop
  simp only [Action.step] at hout ⊢
  cases hp : getWebParticipant db participantId with
  | none => rw [hp] at hout; exact absurd hout (by simp [Outcome.accepted])
  | some identity =>
      rw [hp] at hout
      simp only at hout ⊢
      refine ⟨identity, rfl, ?_⟩
      rcases executeMessageIntent_cases now identity request db with
        ⟨m', ho, hf⟩ | ⟨m', ho, hr⟩ | ⟨-, hno⟩
      · rw [ho, Outcome.accepted, Option.some.injEq] at hout
        subst hout
        exact Or.inl ⟨by rw [ho], hf⟩
      · rw [ho, Outcome.accepted, Option.some.injEq] at hout
        subst hout
        exact Or.inr ⟨by rw [ho], hr⟩
      · unfold Outcome.accepted at hout
        split at hout
        · rename_i m' heq
          exact absurd (Outcome.executed.inj heq) (hno m').1
        · rename_i m' heq
          exact absurd (Outcome.executed.inj heq) (hno m').2
        · exact absurd hout (by simp)

theorem Action.created_cases {a : Action} {db : Database} {participantId : String}
    {request : MessageExecutionRequest} {m : Message} (hop : a.op = .execute participantId request)
    (hout : (a.step db).1.created = some m) :
    ∃ identity, getWebParticipant db participantId = some identity
      ∧ FirstExecuted a.now identity request db m (a.step db).2 := by
  have hacc : (a.step db).1.accepted = some m := by
    unfold Outcome.created at hout
    split at hout
    · rename_i m' heq
      rw [heq]
      exact hout
    · exact absurd hout (by simp)
  obtain ⟨identity, hp, ⟨-, hf⟩ | ⟨ho, -⟩⟩ := Action.accepted_cases hop hacc
  · exact ⟨identity, hp, hf⟩
  · rw [ho] at hout
    exact absurd hout (by simp [Outcome.created])

/-! ## Growing, step by step -/

section Steps

variable {now : Int} {identity : Identity} {db db' : Database} {m : Message}

omit [Sha256] in
theorem NavigationWritten.mem_navigation {input : NavigationMessageInput}
    (h : NavigationWritten now identity input db m db') (n : NavigationWrite) :
    n ∈ db'.navigationWrites ↔ n ∈ db.navigationWrites
      ∨ n = ⟨identity.inst, input.nonce, input.requestHash, m.id, now⟩ :=
  Table.mem_iff_of_find (r := ⟨identity.inst, input.nonce, input.requestHash, m.id, now⟩)
    h.free h.navigation n

omit [Sha256] in
theorem NavigationWritten.mem_messages {input : NavigationMessageInput}
    (h : NavigationWritten now identity input db m db') (m' : Message) :
    m' ∈ db'.messages ↔ m' ∈ db.messages ∨ m' = m := by
  rw [h.messages, h.message]
  exact mem_append_messageRow

omit [Sha256] in
theorem NavigationWritten.grows {input : NavigationMessageInput}
    (h : NavigationWritten now identity input db m db') : Grows db db' := by
  refine ⟨fun m' hm => (h.mem_messages m').mpr (Or.inl hm),
    fun n hn => (h.mem_navigation n).mpr (Or.inl hn), ?_, ?_, ?_, ?_⟩
  all_goals rw [h.frame]
  · exact fun _ hr => hr
  · exact fun _ hi => hi
  · exact fun _ ha => ha
  · exact fun g hg => ⟨g, hg, .refl g⟩

variable {request : MessageExecutionRequest}

theorem FirstExecuted.mem_navigation (h : FirstExecuted now identity request db m db')
    (n : NavigationWrite) :
    n ∈ db'.navigationWrites ↔ n ∈ db.navigationWrites
      ∨ n = ⟨identity.inst, request.intent.intentId, request.intent.requestHash, m.id, now⟩ :=
  Table.mem_iff_of_find
    (r := ⟨identity.inst, request.intent.intentId, request.intent.requestHash, m.id, now⟩)
    h.free h.navigation n

theorem FirstExecuted.mem_messages (h : FirstExecuted now identity request db m db')
    (m' : Message) : m' ∈ db'.messages ↔ m' ∈ db.messages ∨ m' = m := by
  rw [h.effects.messages, h.effects.message]
  exact mem_append_messageRow

theorem FirstExecuted.mem_provenance (h : FirstExecuted now identity request db m db')
    (a : Provenance) :
    a ∈ db'.provenance ↔ a ∈ db.provenance
      ∨ a = provenanceRow (executionReceipt request m.id) request.authority.principal
        request.intent.resource (executionDecision now db request) :=
  Table.mem_iff_of_find h.effects.noProvenance h.effects.provenance a

omit [Sha256] in
/-- A grant survives a commit, whether it is the one that is consumed or not. -/
theorem GrantConsumed.kept {consumed : Option Int} {intentId : String}
    {t t' : Table DelegatedGrant.id} (h : GrantConsumed now consumed intentId t t') :
    ∀ g ∈ t, ∃ g' ∈ t', GrantKept g g' := by
  intro g hg
  refine ⟨_, (h.mem _).mpr ⟨g, hg, rfl⟩, ?_⟩
  split
  · rename_i hid
    obtain ⟨g₀, hg₀, heq, -, -, hfree⟩ := h.free g.id hid
    rw [Table.eq_of_key hg₀ hg heq] at hfree
    exact ⟨rfl, rfl, rfl, rfl, fun hc => absurd hfree hc⟩
  · exact .refl g

theorem FirstExecuted.grows (h : FirstExecuted now identity request db m db') : Grows db db' :=
  ⟨fun m' hm => (h.mem_messages m').mpr (Or.inl hm),
    fun n hn => (h.mem_navigation n).mpr (Or.inl hn), h.effects.receipts.kept,
    h.effects.ingress.kept, fun a ha => (h.mem_provenance a).mpr (Or.inl ha),
    h.effects.grants.kept⟩

theorem Replayed.grows (h : Replayed now identity request db m db') : Grows db db' := by
  refine ⟨?_, ?_, h.receipts.kept, h.ingress.kept, ?_, ?_⟩
  all_goals rw [h.frame]
  · exact fun _ hm => hm
  · exact fun _ hn => hn
  · exact fun _ ha => ha
  · exact fun g hg => ⟨g, hg, .refl g⟩

end Steps

/-- **The ledger only grows.** -/
theorem Action.grows (a : Action) (db : Database) : Grows db (a.step db).2 := by
  rcases a.step_cases db with hq | ⟨_, _, _, _, _, _, _, _, -, -, hw⟩ | ⟨_, _, _, _, -, -, hf⟩
    | ⟨_, _, _, _, -, -, hr⟩
  · exact hq.grows
  · exact hw.grows
  · exact hf.grows
  · exact hr.grows

end Blackboard
