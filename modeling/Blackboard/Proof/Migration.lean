import Blackboard.Model.Migration
import Blackboard.Proof.Verifier

/-!
# The migration is safe to run at every start

Each back-fill rewrites the rows in which a column is null and leaves a value there, so a
second run finds nothing to do (`migrateExecutionSchema_idempotent`). What it leaves is
settled by the receipts: the capability is the receipt's, and a delivery goes to the
participant that alone has a receipt for its intent (`distinctParticipants_eq_one_iff`).

A valid execution has no null in any place the migration looks at: its authority has a
capability, and no delivery of an intent of that name is without a participant. So all its
evidence is still there afterwards (`ExecutionEvidence.migrated`).
-/

namespace Blackboard

open Relational (Table orderBy mem_orderBy)

/-! ## The participant of an intent -/

/-- One participant has a receipt for the intent, and nobody else has. -/
def SoleParticipant (db : Database) (intentId participantId : String) : Prop :=
  (∃ r ∈ db.receipts, r.pair = (participantId, intentId))
    ∧ ∀ r ∈ db.receipts, r.intentId = intentId → r.participantId = participantId

section Participants

variable {db : Database} {intentId participantId : String}

theorem mem_receiptParticipants :
    participantId ∈ receiptParticipants db intentId
      ↔ ∃ r ∈ db.receipts, r.pair = (participantId, intentId) := by
  rw [receiptParticipants, List.mem_map]
  constructor
  · intro h
    obtain ⟨r, hr, rfl⟩ := h
    obtain ⟨hmem, hint⟩ := List.mem_filter.mp hr
    exact ⟨r, hmem, Prod.ext rfl (of_decide_eq_true hint)⟩
  · intro h
    obtain ⟨r, hr, hpair⟩ := h
    obtain ⟨hp, hi⟩ := Prod.mk.inj hpair
    exact ⟨r, List.mem_filter.mpr ⟨hr, decide_eq_true hi⟩, hp⟩

theorem soleParticipant_iff_participants :
    SoleParticipant db intentId participantId
      ↔ ∀ q, q ∈ receiptParticipants db intentId ↔ q = participantId := by
  constructor
  · intro h q
    rw [mem_receiptParticipants]
    constructor
    · intro hq
      obtain ⟨r, hr, hpair⟩ := hq
      obtain ⟨hp, hi⟩ := Prod.mk.inj hpair
      rw [← hp]
      exact h.2 r hr hi
    · intro hq
      rw [hq]
      exact h.1
  · intro h
    refine ⟨mem_receiptParticipants.mp ((h participantId).mpr rfl), ?_⟩
    intro r hr hint
    exact (h r.participantId).mp (mem_receiptParticipants.mpr ⟨r, hr, Prod.ext rfl hint⟩)

/-- `COUNT(DISTINCT ..)` is one when there is a sole participant. -/
theorem distinctParticipants_eq_one_iff :
    distinctParticipants db intentId = 1 ↔ ∃ p, SoleParticipant db intentId p := by
  unfold distinctParticipants
  rw [List.length_eq_one_iff]
  constructor
  · intro h
    obtain ⟨p, hp⟩ := h
    refine ⟨p, soleParticipant_iff_participants.mpr fun q => ?_⟩
    rw [← List.mem_dedup, hp, List.mem_singleton]
  · intro h
    obtain ⟨p, hp⟩ := h
    rw [soleParticipant_iff_participants] at hp
    refine ⟨p, List.perm_singleton.mp ?_⟩
    rw [List.perm_ext_iff_of_nodup (List.nodup_dedup _) (List.nodup_singleton p)]
    intro q
    rw [List.mem_dedup, hp, List.mem_singleton]

/-- `MIN` of the participants is the sole one. -/
theorem minParticipant_of_sole (h : SoleParticipant db intentId participantId) :
    minParticipant db intentId = some participantId := by
  rw [soleParticipant_iff_participants] at h
  unfold minParticipant
  cases hhead : (orderBy (fun a b : String => a ≤ b) (receiptParticipants db intentId)).head? with
  | none =>
      rw [List.head?_eq_none_iff, Relational.orderBy_eq_nil] at hhead
      have hmem := (h participantId).mpr rfl
      rw [hhead] at hmem
      exact absurd hmem List.not_mem_nil
  | some q =>
      have hmem := mem_orderBy.mp (List.mem_of_mem_head? (Option.mem_def.mpr hhead))
      rw [(h q).mp hmem]

theorem SoleParticipant.unique {p q : String} (hp : SoleParticipant db intentId p)
    (hq : SoleParticipant db intentId q) : p = q := by
  obtain ⟨r, hr, hpair⟩ := hp.1
  obtain ⟨hrp, hri⟩ := Prod.mk.inj hpair
  rw [← hrp]
  exact hq.2 r hr hri

end Participants

/-! ## What happens to a row -/

/-- A provenance row and what the migration makes of it. -/
structure ProvenanceMigrated (db : Database) (a a' : Provenance) : Prop where
  /-- Only the capability may change, -/
  rest : a' = { a with capability := a'.capability }
  /-- and only when it was null: -/
  kept : a.capability ≠ none → a' = a
  /-- then it is the one of the receipt, if there is a receipt. -/
  filled : a.capability = none →
    ∀ c, a'.capability = some c ↔ ∃ r ∈ db.receipts, r.pair = a.pair ∧ r.capability = c

/-- A delivery and what the migration makes of it. -/
structure IngressMigrated (db : Database) (i i' : Ingress) : Prop where
  /-- Only the participant may change, -/
  rest : i' = { i with participantId := i'.participantId }
  /-- and only when it was null: -/
  kept : i.participantId ≠ none → i' = i
  /-- then it is the sole one with a receipt for the intent, if there is a sole one. -/
  bound : i.participantId = none →
    ∀ p, i'.participantId = some p ↔ SoleParticipant db i.intentId p

section Rows

variable {db : Database}

def migratedProvenance (db : Database) (a : Provenance) : Provenance :=
  if a.capability.isNone && (db.receipts.find a.pair).isSome then
    { a with capability := receiptCapability db a }
  else a

def migratedIngress (db : Database) (i : Ingress) : Ingress :=
  if i.participantId.isNone && decide (1 = distinctParticipants db i.intentId) then
    { i with participantId := minParticipant db i.intentId }
  else i

theorem migratedProvenance_spec (a : Provenance) :
    ProvenanceMigrated db a (migratedProvenance db a) := by
  unfold migratedProvenance
  cases hc : a.capability with
  | some c =>
      simp only [Option.isNone_some, Bool.false_and, Bool.false_eq_true, if_false]
      exact ⟨rfl, fun _ => rfl, fun h => absurd (hc.symm.trans h) (by simp)⟩
  | none =>
      cases hfind : db.receipts.find a.pair with
      | none =>
          simp only [Option.isNone_none, Option.isSome_none, Bool.and_false, Bool.false_eq_true,
            if_false]
          refine ⟨rfl, fun _ => rfl, fun _ c => ?_⟩
          rw [hc]
          refine ⟨fun h => absurd h (by simp), ?_⟩
          intro h
          obtain ⟨r, hr, hpair, -⟩ := h
          exact absurd hpair (Table.find_eq_none_iff.mp hfind r hr)
      | some r =>
          obtain ⟨hmem, hpair⟩ := Table.find_eq_some_iff.mp hfind
          simp only [Option.isNone_none, Option.isSome_some, Bool.and_self, if_true,
            receiptCapability, hfind, Option.map_some]
          refine ⟨rfl, fun h => absurd hc h, fun _ c => ?_⟩
          rw [Option.some.injEq]
          constructor
          · intro h
            exact ⟨r, hmem, hpair, h⟩
          · intro h
            obtain ⟨r', hr', hpair', hcap⟩ := h
            rw [← hcap, Table.eq_of_key hmem hr' (hpair.trans hpair'.symm)]

theorem migratedIngress_spec (i : Ingress) : IngressMigrated db i (migratedIngress db i) := by
  unfold migratedIngress
  cases hp : i.participantId with
  | some p =>
      simp only [Option.isNone_some, Bool.false_and, Bool.false_eq_true, if_false]
      exact ⟨rfl, fun _ => rfl, fun h => absurd (hp.symm.trans h) (by simp)⟩
  | none =>
      by_cases hone : distinctParticipants db i.intentId = 1
      · obtain ⟨p, hsole⟩ := distinctParticipants_eq_one_iff.mp hone
        simp only [Option.isNone_none, hone, decide_true, Bool.and_self, if_true,
          minParticipant_of_sole hsole]
        refine ⟨rfl, fun h => absurd hp h, fun _ q => ?_⟩
        rw [Option.some.injEq]
        constructor
        · intro h
          rw [← h]
          exact hsole
        · intro h
          exact hsole.unique h
      · have hne : ¬ 1 = distinctParticipants db i.intentId := fun h => hone h.symm
        simp only [Option.isNone_none, hne, decide_false, Bool.and_false, Bool.false_eq_true,
          if_false]
        refine ⟨rfl, fun _ => rfl, fun _ q => ?_⟩
        rw [hp]
        refine ⟨fun h => absurd h (by simp), fun h => ?_⟩
        exact absurd (distinctParticipants_eq_one_iff.mpr ⟨q, h⟩) hone

end Rows

/-! ## What happens to the content -/

section Content

variable (s : StoredDatabase)

theorem content_migrate :
    (migrateExecutionSchema s).content = backfillParticipantId (backfillCapability s.content) := by
  simp [migrateExecutionSchema, StoredDatabase.backfill, StoredDatabase.addColumns,
    StoredDatabase.createTables]

theorem hasTable_migrate (t : ExecutionTable) : (migrateExecutionSchema s).hasTable t = true := by
  simp [migrateExecutionSchema, StoredDatabase.backfill, StoredDatabase.addColumns,
    StoredDatabase.createTables]

theorem hasColumn_migrate (c : AddedColumn) : (migrateExecutionSchema s).hasColumn c = true :=
  s.createTables.hasColumn_addColumns c

theorem schemaCurrent_migrate : executionSchemaCurrent (migrateExecutionSchema s) = true := by
  simp [executionSchemaCurrent, hasTable_migrate, hasColumn_migrate]

theorem provenance_rows_migrate :
    (migrateExecutionSchema s).content.provenance.rows
      = s.content.provenance.rows.map (migratedProvenance s.content) := by
  rw [content_migrate]
  rfl

/-- The deliveries are bound after the capabilities are filled in, which does not matter. -/
theorem ingress_rows_migrate :
    (migrateExecutionSchema s).content.ingress.rows
      = s.content.ingress.rows.map (migratedIngress s.content) := by
  rw [content_migrate]
  rfl

theorem receipts_migrate :
    (migrateExecutionSchema s).content.receipts = s.content.receipts := by
  rw [content_migrate]
  rfl

/-- No other table is touched. -/
theorem content_migrate_rest :
    (migrateExecutionSchema s).content
      = { s.content with
          provenance := (migrateExecutionSchema s).content.provenance
          ingress := (migrateExecutionSchema s).content.ingress } := by
  rw [content_migrate]
  rfl

theorem backfillCapability_eq_self {db : Database} (h : ∀ a ∈ db.provenance,
    (a.capability.isNone && (db.receipts.find a.pair).isSome) = false) :
    backfillCapability db = db :=
  congrArg (fun provenance => { db with provenance }) (Table.update_eq_self h)

theorem backfillParticipantId_eq_self {db : Database} (h : ∀ i ∈ db.ingress,
    (i.participantId.isNone && decide (1 = distinctParticipants db i.intentId)) = false) :
    backfillParticipantId db = db :=
  congrArg (fun ingress => { db with ingress }) (Table.update_eq_self h)

/-- **The second run does nothing.** -/
theorem migrateExecutionSchema_idempotent :
    migrateExecutionSchema (migrateExecutionSchema s) = migrateExecutionSchema s := by
  generalize ht : migrateExecutionSchema s = t
  have hreceipts : t.content.receipts = s.content.receipts := by rw [← ht, receipts_migrate]
  have hprovenance : t.content.provenance.rows
      = s.content.provenance.rows.map (migratedProvenance s.content) := by
    rw [← ht, provenance_rows_migrate]
  have hingress : t.content.ingress.rows
      = s.content.ingress.rows.map (migratedIngress s.content) := by
    rw [← ht, ingress_rows_migrate]
  -- what is null after the first run has no receipt, or no sole participant
  have hfilled : ∀ a ∈ t.content.provenance,
      (a.capability.isNone && (t.content.receipts.find a.pair).isSome) = false := by
    intro a ha
    obtain ⟨a₀, ha₀, rfl⟩ := List.mem_map.mp (hprovenance ▸ Table.mem_rows.mpr ha)
    have hspec : ProvenanceMigrated s.content a₀ _ := migratedProvenance_spec a₀
    have hpair : (migratedProvenance s.content a₀).pair = a₀.pair := by rw [hspec.rest]; rfl
    rw [hpair, hreceipts]
    cases hfind : s.content.receipts.find a₀.pair with
    | none => simp
    | some r =>
        obtain ⟨hr, hrpair⟩ := Table.find_eq_some_iff.mp hfind
        cases hc : a₀.capability with
        | none =>
            rw [(hspec.filled hc r.capability).mpr ⟨r, hr, hrpair, rfl⟩]
            simp
        | some c =>
            rw [hspec.kept (by simp [hc]), hc]
            simp
  have hbound : ∀ i ∈ t.content.ingress,
      (i.participantId.isNone && decide (1 = distinctParticipants t.content i.intentId))
        = false := by
    intro i hi
    obtain ⟨i₀, hi₀, rfl⟩ := List.mem_map.mp (hingress ▸ Table.mem_rows.mpr hi)
    have hspec : IngressMigrated s.content i₀ _ := migratedIngress_spec i₀
    have hintent : (migratedIngress s.content i₀).intentId = i₀.intentId := by rw [hspec.rest]
    have hcount : distinctParticipants t.content i₀.intentId
        = distinctParticipants s.content i₀.intentId := by
      simp only [distinctParticipants, receiptParticipants, hreceipts]
    rw [hintent, hcount]
    by_cases hone : distinctParticipants s.content i₀.intentId = 1
    · obtain ⟨p, hsole⟩ := distinctParticipants_eq_one_iff.mp hone
      cases hp : i₀.participantId with
      | none =>
          rw [(hspec.bound hp p).mpr hsole]
          simp
      | some q =>
          rw [hspec.kept (by simp [hp]), hp]
          simp
    · have hne : ¬ 1 = distinctParticipants s.content i₀.intentId := fun h => hone h.symm
      simp [hne]
  have hcontent : (migrateExecutionSchema t).content = t.content := by
    rw [content_migrate, backfillCapability_eq_self hfilled, backfillParticipantId_eq_self hbound]
  refine StoredDatabase.ext ?_ ?_ hcontent
  · funext table
    rw [hasTable_migrate, ← ht, hasTable_migrate]
  · funext column
    rw [hasColumn_migrate, ← ht, hasColumn_migrate]

end Content

/-! ## Valid executions stay valid -/

section Valid

variable [Sha256] {s : StoredDatabase} {participantId intentId : String}

omit [Sha256] in
theorem mem_provenance_migrate {a : Provenance} (ha : a ∈ s.content.provenance)
    (hc : a.capability ≠ none) : a ∈ (migrateExecutionSchema s).content.provenance := by
  rw [← Table.mem_rows, provenance_rows_migrate]
  exact List.mem_map.mpr ⟨a, ha, (migratedProvenance_spec a).kept hc⟩

omit [Sha256] in
theorem mem_ingress_migrate {i : Ingress} (hi : i ∈ s.content.ingress)
    (hp : i.participantId ≠ none) : i ∈ (migrateExecutionSchema s).content.ingress := by
  rw [← Table.mem_rows, ingress_rows_migrate]
  exact List.mem_map.mpr ⟨i, hi, (migratedIngress_spec i).kept hp⟩

omit [Sha256] in
/-- Where no delivery of an intent is without a participant, there are no other ones afterwards. -/
theorem of_mem_ingress_migrate {i : Ingress} (hi : i ∈ (migrateExecutionSchema s).content.ingress)
    (hint : i.intentId = intentId)
    (hbound : ∀ j ∈ s.content.ingress, j.intentId = intentId → j.participantId ≠ none) :
    i ∈ s.content.ingress := by
  rw [← Table.mem_rows, ingress_rows_migrate] at hi
  obtain ⟨j, hj, rfl⟩ := List.mem_map.mp hi
  have hspec : IngressMigrated s.content j _ := migratedIngress_spec j
  have hintent : j.intentId = intentId := by
    rw [← hint, hspec.rest]
  rw [hspec.kept (hbound j hj hintent)]
  exact hj

/-- The evidence of an execution survives the migration. -/
theorem ExecutionEvidence.migrated {r : ExecutionReceipt} {m : Message} {a : Provenance}
    (hev : ExecutionEvidence s.content participantId intentId r m a) :
    ExecutionEvidence (migrateExecutionSchema s).content participantId intentId r m a := by
  have hrest := content_migrate_rest s
  have hold : ∀ i ∈ (migrateExecutionSchema s).content.ingress, i.intentId = intentId →
      i ∈ s.content.ingress := fun i hi hint =>
    of_mem_ingress_migrate hi hint fun j hj hjint => (hev.bound j hj hjint).1
  refine ⟨?_, ?_, ?_, ⟨?_, hev.authority.2⟩, hev.principal, hev.scope, ?_, ?_, ?_, ?_⟩
  · rw [receipts_migrate]
    exact hev.receipt
  · rw [hrest]
    exact hev.message
  · rw [hrest]
    exact hev.navigation
  · exact mem_provenance_migrate hev.authority.1 (by simp [hev.scope.1])
  · rw [hrest]
    exact hev.delegated
  · obtain ⟨i, hi, hp, hint⟩ := hev.delivered
    exact ⟨i, mem_ingress_migrate hi (by simp [hp]), hp, hint⟩
  · intro i hi hp hint
    exact hev.described i (hold i hi hint) hp hint
  · intro i hi hint
    exact hev.bound i (hold i hi hint) hint

/-- On a file that is up to date the verifier does what it does. -/
theorem verify_of_current (h : executionSchemaCurrent s = true) :
    s.verify participantId intentId
      = some (verifyExecutionAuditIntegrity s.content participantId intentId) := by
  have hreceipts : s.hasTable .executionReceipts = true := by
    simp only [executionSchemaCurrent, Bool.and_eq_true] at h
    exact h.1.1.1
  rw [StoredDatabase.verify, if_pos hreceipts]
  split
  · rfl
  · rw [if_pos h]

/-- Whatever the age of the file, an answer is the verifier's on its content. -/
theorem content_of_verify {report : ExecutionAuditIntegrityReport}
    (h : s.verify participantId intentId = some report) :
    report = verifyExecutionAuditIntegrity s.content participantId intentId := by
  unfold StoredDatabase.verify at h
  split at h
  · split at h
    · exact (Option.some.inj h).symm
    · split at h
      · exact (Option.some.inj h).symm
      · exact absurd h (by simp)
  · exact absurd h (by simp)

/-- What the migration of a stored database does and does not do. -/
structure MigrationSafe (s : StoredDatabase) : Prop where
  /-- Afterwards every table and column is there. -/
  current : executionSchemaCurrent (migrateExecutionSchema s) = true
  /-- Running it twice is running it once. -/
  idempotent : migrateExecutionSchema (migrateExecutionSchema s) = migrateExecutionSchema s
  /-- Two tables are touched, -/
  rest : (migrateExecutionSchema s).content
    = { s.content with
        provenance := (migrateExecutionSchema s).content.provenance
        ingress := (migrateExecutionSchema s).content.ingress }
  /-- row by row, where a column is null. -/
  provenance : List.Forall₂ (ProvenanceMigrated s.content) s.content.provenance.rows
    (migrateExecutionSchema s).content.provenance.rows
  ingress : List.Forall₂ (IngressMigrated s.content) s.content.ingress.rows
    (migrateExecutionSchema s).content.ingress.rows
  /-- A valid execution stays valid. -/
  valid : ∀ participantId intentId report, s.verify participantId intentId = some report →
    report.valid = true → ∃ report',
      (migrateExecutionSchema s).verify participantId intentId = some report'
        ∧ report'.valid = true

/-- **The migration is safe**, whatever the age and the content of the file. -/
theorem migrateExecutionSchema_safe (s : StoredDatabase) : MigrationSafe s where
  current := schemaCurrent_migrate s
  idempotent := migrateExecutionSchema_idempotent s
  rest := content_migrate_rest s
  provenance := by
    rw [provenance_rows_migrate, List.forall₂_map_right_iff, List.forall₂_same]
    exact fun a _ => migratedProvenance_spec a
  ingress := by
    rw [ingress_rows_migrate, List.forall₂_map_right_iff, List.forall₂_same]
    exact fun i _ => migratedIngress_spec i
  valid := by
    intro participantId intentId report hreport hvalid
    refine ⟨_, verify_of_current (schemaCurrent_migrate s), ?_⟩
    rw [content_of_verify hreport, valid_iff_evidence] at hvalid
    obtain ⟨r, m, a, hev⟩ := hvalid
    exact valid_iff_evidence.mpr ⟨r, m, a, hev.migrated⟩

end Valid

end Blackboard
