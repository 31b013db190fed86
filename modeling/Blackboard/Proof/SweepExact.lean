import Blackboard.Proof.Verifier
import Mathlib.Data.Prod.Lex
import Mathlib.Data.String.Basic
import Mathlib.Order.WithBot

/-!
# The sweep reports what is wrong, each thing once

The sweep puts three lists of rows that no receipt accounts for one after the other and
sorts them. `mem_orphans` says which lines are in there, `orphans_nodup` that no line is in
there twice; a line names the key of its row, so it stands for one row
(`Offence.row_unique`).

The order of the report is that of its lines: `evidenceLe` compares everything a line
says, so the way the tables are stored has no say in it.
-/

namespace Blackboard

open Relational (Table orderBy mem_orderBy orderBy_eq_nil orderBy_perm nodup_orderBy)

/-! ## The order of the report -/

/-- A pair as a member of the lexicographic order. -/
def pairKey (p : Pair) : String ×ₗ String := toLex p

theorem pairLe_iff (a b : Pair) : pairLe a b ↔ pairKey a ≤ pairKey b := by
  rw [pairKey, pairKey, Prod.Lex.le_iff]
  exact Iff.rfl

/-- `Option::cmp` is the order with `none` at the bottom. -/
def optionKey (a : Option String) : WithBot String := a

theorem optionLt_iff (a b : Option String) : optionLt a b ↔ optionKey a < optionKey b := by
  cases a with
  | none =>
      cases b with
      | none => exact iff_of_false id (lt_irrefl (⊥ : WithBot String))
      | some b => exact iff_of_true trivial (WithBot.bot_lt_coe b)
  | some a =>
      cases b with
      | none => exact iff_of_false id not_lt_bot
      | some b => exact WithBot.coe_lt_coe.symm

/-- Everything a line of evidence says, in the order in which it is compared. -/
def evidenceKey (e : ExecutionAuditOrphanEvidence) :
    String ×ₗ WithBot String ×ₗ String ×ₗ WithBot String :=
  toLex (e.kind, toLex (optionKey e.participantId, toLex (e.intentId, optionKey e.reference)))

theorem evidenceLe_iff (a b : ExecutionAuditOrphanEvidence) :
    evidenceLe a b ↔ evidenceKey a ≤ evidenceKey b := by
  rw [evidenceKey, evidenceKey, Prod.Lex.le_iff]
  simp only [ofLex_toLex, Prod.Lex.le_iff, evidenceLe, optionLt_iff, not_lt]
  exact Iff.rfl

theorem evidenceKey_injective : Function.Injective evidenceKey := by
  intro a b h
  obtain ⟨hkind, h⟩ := Prod.mk.inj (congrArg ofLex h)
  obtain ⟨hparticipant, h⟩ := Prod.mk.inj (congrArg ofLex h)
  obtain ⟨hintent, hreference⟩ := Prod.mk.inj (congrArg ofLex h)
  obtain ⟨kind, participantId, intentId, reference⟩ := a
  simp only [optionKey] at *
  subst hkind hparticipant hintent hreference
  rfl

/-! ## Receipts -/

section Receipts

variable {db db' : Database}

theorem receiptExists_eq_false_iff {p : Pair} :
    receiptExists db p = false ↔ ∀ r ∈ db.receipts, r.pair ≠ p := by
  rw [receiptExists, Option.isSome_eq_false_iff, Option.isNone_iff_eq_none]
  exact Table.find_eq_none_iff

theorem receiptExists_congr (h : SameEvidence db db') (p : Pair) :
    receiptExists db p = receiptExists db' p := by
  rw [receiptExists, receiptExists, Relational.find_congr h.receipts]

/-! ## The lines of evidence -/

/-- The lines before they are sorted. -/
def orphans (db : Database) : List ExecutionAuditOrphanEvidence :=
  orphanProvenance db ++ orphanIngress db ++ orphanNavigation db

theorem mem_orphanProvenance {e : ExecutionAuditOrphanEvidence} :
    e ∈ orphanProvenance db ↔ ∃ a, Offence db (.provenance a) e := by
  rw [orphanProvenance, List.mem_map]
  constructor
  · intro h
    obtain ⟨a, ha, rfl⟩ := h
    obtain ⟨hmem, hnone⟩ := List.mem_filter.mp (mem_orderBy.mp ha)
    exact ⟨a, .provenance hmem (receiptExists_eq_false_iff.mp (by simpa using hnone))⟩
  · intro h
    obtain ⟨a, hoffence⟩ := h
    cases hoffence with
    | provenance hmem horphan =>
        have hnone := receiptExists_eq_false_iff.mpr horphan
        exact ⟨a, mem_orderBy.mpr (List.mem_filter.mpr ⟨hmem, by simp [hnone]⟩), rfl⟩

/-- What is reported of a delivery. -/
theorem orphanIngressRow_eq_some_iff {i : Ingress} (hmem : i ∈ db.ingress)
    {e : ExecutionAuditOrphanEvidence} :
    orphanIngressRow db i = some e ↔ Offence db (.ingress i) e := by
  unfold orphanIngressRow
  constructor
  · intro h
    split at h
    · rename_i hnone
      rw [← Option.some.inj h]
      exact .unbound hmem (by intro p hp; rw [hnone] at hp; exact absurd hp (by simp))
    · rename_i p hp
      split at h
      · rename_i hblank
        rw [← Option.some.inj h]
        refine .unbound hmem ?_
        intro q hq
        rw [hp, Option.some.injEq] at hq
        rw [← hq]
        exact hblank
      · rename_i hblank
        split at h
        · rename_i hnone
          rw [← Option.some.inj h]
          exact .ingress hmem hp (by simpa using hblank) (receiptExists_eq_false_iff.mp hnone)
        · exact absurd h (by simp)
  · intro h
    cases h with
    | unbound _ hunbound =>
        split
        · rfl
        · rename_i p hp
          rw [if_pos (hunbound p hp)]
    | ingress _ hbound hblank horphan =>
        simp only [hbound, hblank, Bool.false_eq_true, if_false,
          receiptExists_eq_false_iff.mpr horphan, if_true]

theorem mem_orphanIngress {e : ExecutionAuditOrphanEvidence} :
    e ∈ orphanIngress db ↔ ∃ i, Offence db (.ingress i) e := by
  rw [orphanIngress, List.mem_filterMap]
  constructor
  · intro h
    obtain ⟨i, hi, he⟩ := h
    exact ⟨i, (orphanIngressRow_eq_some_iff (mem_orderBy.mp hi)).mp he⟩
  · intro h
    obtain ⟨i, hoffence⟩ := h
    have hmem : i ∈ db.ingress := by
      cases hoffence with
      | unbound hmem => exact hmem
      | ingress hmem => exact hmem
    exact ⟨i, mem_orderBy.mpr hmem, (orphanIngressRow_eq_some_iff hmem).mpr hoffence⟩

theorem mem_orphanNavigation {e : ExecutionAuditOrphanEvidence} :
    e ∈ orphanNavigation db ↔ ∃ n, Offence db (.navigation n) e := by
  rw [orphanNavigation, List.mem_map]
  constructor
  · intro h
    obtain ⟨n, hn, rfl⟩ := h
    obtain ⟨hmem, hnone⟩ := List.mem_filter.mp (mem_orderBy.mp hn)
    exact ⟨n, .navigation hmem (receiptExists_eq_false_iff.mp (by simpa using hnone))⟩
  · intro h
    obtain ⟨n, hoffence⟩ := h
    cases hoffence with
    | navigation hmem horphan =>
        have hnone := receiptExists_eq_false_iff.mpr horphan
        exact ⟨n, mem_orderBy.mpr (List.mem_filter.mpr ⟨hmem, by simp [hnone]⟩), rfl⟩

theorem mem_orphans {e : ExecutionAuditOrphanEvidence} :
    e ∈ orphans db ↔ ∃ row, Offence db row e := by
  rw [orphans, List.mem_append, List.mem_append, mem_orphanProvenance, mem_orphanIngress,
    mem_orphanNavigation]
  constructor
  · intro h
    rcases h with (⟨a, h⟩ | ⟨i, h⟩) | ⟨n, h⟩
    · exact ⟨_, h⟩
    · exact ⟨_, h⟩
    · exact ⟨_, h⟩
  · intro h
    obtain ⟨row, h⟩ := h
    cases row with
    | provenance a => exact Or.inl (Or.inl ⟨a, h⟩)
    | ingress i => exact Or.inl (Or.inr ⟨i, h⟩)
    | navigation n => exact Or.inr ⟨n, h⟩

/-! ## Each row once -/

/-- A row has one defect. -/
theorem Offence.kind_unique {row : EvidenceRow} {e e' : ExecutionAuditOrphanEvidence}
    (h : Offence db row e) (h' : Offence db row e') : e = e' := by
  cases h with
  | provenance => cases h' with
    | provenance => rfl
  | navigation => cases h' with
    | navigation => rfl
  | unbound _ hunbound => cases h' with
    | unbound => rfl
    | ingress _ hbound hblank => exact absurd (hunbound _ hbound) (by simp [hblank])
  | ingress _ hbound hblank => cases h' with
    | unbound _ hunbound => exact absurd (hunbound _ hbound) (by simp [hblank])
    | ingress _ hbound' =>
        rw [hbound, Option.some.injEq] at hbound'
        rw [hbound']

/-- A line is about one row. -/
theorem Offence.row_unique {row row' : EvidenceRow} {e : ExecutionAuditOrphanEvidence}
    (h : Offence db row e) (h' : Offence db row' e) : row = row' := by
  -- the kinds tell the tables apart, and the rest of the line has the key of its row
  generalize he : e = line at h'
  cases h with
  | provenance hmem => cases h' with
    | provenance hmem' =>
        simp only [ExecutionAuditOrphanEvidence.mk.injEq, Option.some.injEq] at he
        rw [Table.eq_of_key hmem hmem' (Prod.ext he.2.1 he.2.2.1)]
    | unbound => simp at he
    | ingress => simp at he
    | navigation => simp at he
  | navigation hmem => cases h' with
    | navigation hmem' =>
        simp only [ExecutionAuditOrphanEvidence.mk.injEq, Option.some.injEq] at he
        rw [Table.eq_of_key hmem hmem' (Prod.ext he.2.1 he.2.2.1)]
    | unbound => simp at he
    | ingress => simp at he
    | provenance => simp at he
  | unbound hmem => cases h' with
    | unbound hmem' =>
        simp only [ExecutionAuditOrphanEvidence.mk.injEq, Option.some.injEq] at he
        rw [Table.eq_of_key hmem hmem' he.2.2.2]
    | ingress => simp at he
    | navigation => simp at he
    | provenance => simp at he
  | ingress hmem => cases h' with
    | ingress hmem' =>
        simp only [ExecutionAuditOrphanEvidence.mk.injEq, Option.some.injEq] at he
        rw [Table.eq_of_key hmem hmem' he.2.2.2]
    | unbound => simp at he
    | navigation => simp at he
    | provenance => simp at he

theorem orphanProvenance_nodup : (orphanProvenance db).Nodup := by
  refine List.Nodup.map_on ?_ (nodup_orderBy _ _ _)
  intro a ha b hb h
  have hmem : ∀ {c}, c ∈ orderBy (fun a b : Provenance => pairLe a.pair b.pair)
      (db.provenance.rows.filter fun row => !receiptExists db row.pair) → c ∈ db.provenance :=
    fun hc => (List.mem_filter.mp (mem_orderBy.mp hc)).1
  simp only [ExecutionAuditOrphanEvidence.mk.injEq, Option.some.injEq] at h
  exact Table.eq_of_key (hmem ha) (hmem hb) (Prod.ext h.2.1 h.2.2.1)

theorem orphanNavigation_nodup : (orphanNavigation db).Nodup := by
  refine List.Nodup.map_on ?_ (nodup_orderBy _ _ _)
  intro a ha b hb h
  have hmem : ∀ {c}, c ∈ orderBy (fun a b : NavigationWrite => pairLe a.pair b.pair)
      (db.navigationWrites.rows.filter fun row => !receiptExists db row.pair) →
        c ∈ db.navigationWrites :=
    fun hc => (List.mem_filter.mp (mem_orderBy.mp hc)).1
  simp only [ExecutionAuditOrphanEvidence.mk.injEq, Option.some.injEq] at h
  exact Table.eq_of_key (hmem ha) (hmem hb) (Prod.ext h.2.1 h.2.2.1)

theorem orphanIngress_nodup : (orphanIngress db).Nodup := by
  have hrows : (orderBy (fun a b : Ingress =>
      pairLe (a.intentId, a.deliveryId) (b.intentId, b.deliveryId)) db.ingress.rows).Nodup :=
    (List.perm_insertionSort _ _).nodup_iff.mpr (List.Nodup.of_map _ db.ingress.nodup)
  unfold orphanIngress List.Nodup
  rw [List.pairwise_filterMap]
  refine List.Pairwise.imp_of_mem ?_ hrows
  intro i j hi hj hne e he e' he' heq
  have hi' := (orphanIngressRow_eq_some_iff (mem_orderBy.mp hi)).mp he
  have hj' := (orphanIngressRow_eq_some_iff (mem_orderBy.mp hj)).mp he'
  rw [← heq] at hj'
  exact hne (EvidenceRow.ingress.inj (hi'.row_unique hj'))

/-- No line is reported twice. -/
theorem orphans_nodup : (orphans db).Nodup := by
  unfold orphans
  rw [List.nodup_append, List.nodup_append]
  refine ⟨⟨orphanProvenance_nodup, orphanIngress_nodup, ?_⟩, orphanNavigation_nodup, ?_⟩
  · intro e he e' he' heq
    obtain ⟨a, ha⟩ := mem_orphanProvenance.mp he
    obtain ⟨i, hi⟩ := mem_orphanIngress.mp he'
    rw [← heq] at hi
    exact EvidenceRow.noConfusion (ha.row_unique hi)
  · intro e he e' he' heq
    obtain ⟨n, hn⟩ := mem_orphanNavigation.mp he'
    rw [← heq] at hn
    rcases List.mem_append.mp he with he | he
    · obtain ⟨a, ha⟩ := mem_orphanProvenance.mp he
      exact EvidenceRow.noConfusion (ha.row_unique hn)
    · obtain ⟨i, hi⟩ := mem_orphanIngress.mp he
      exact EvidenceRow.noConfusion (hi.row_unique hn)

/-- The same evidence, stored otherwise, offends alike. -/
theorem Offence.congr (h : SameEvidence db db') {row : EvidenceRow}
    {e : ExecutionAuditOrphanEvidence} (ho : Offence db row e) : Offence db' row e := by
  cases ho with
  | provenance hmem horphan =>
      exact .provenance ((h.provenance _).mp hmem)
        (fun r hr => horphan r ((h.receipts r).mpr hr))
  | unbound hmem hunbound => exact .unbound ((h.ingress _).mp hmem) hunbound
  | ingress hmem hbound hblank horphan =>
      exact .ingress ((h.ingress _).mp hmem) hbound hblank
        (fun r hr => horphan r ((h.receipts r).mpr hr))
  | navigation hmem horphan =>
      exact .navigation ((h.navigation _).mp hmem)
        (fun r hr => horphan r ((h.receipts r).mpr hr))

theorem SameEvidence.symm (h : SameEvidence db db') : SameEvidence db' db :=
  ⟨fun _ => (h.receipts _).symm, fun _ => (h.messages _).symm, fun _ => (h.navigation _).symm,
    fun _ => (h.provenance _).symm, fun _ => (h.delegated _).symm, fun _ => (h.ingress _).symm⟩

theorem orphans_perm (h : SameEvidence db db') : (orphans db).Perm (orphans db') := by
  rw [List.perm_ext_iff_of_nodup orphans_nodup orphans_nodup]
  intro e
  rw [mem_orphans, mem_orphans]
  constructor
  · intro he
    obtain ⟨row, hrow⟩ := he
    exact ⟨row, hrow.congr h⟩
  · intro he
    obtain ⟨row, hrow⟩ := he
    exact ⟨row, hrow.congr h.symm⟩

/-- The executions there are receipts of, in the order in which they are verified. -/
def identities (db : Database) : List Pair :=
  orderBy pairLe (db.receipts.rows.map ExecutionReceipt.pair)

theorem identities_nodup : (identities db).Nodup :=
  (List.perm_insertionSort _ _).nodup_iff.mpr db.receipts.nodup

theorem mem_identities {p : Pair} : p ∈ identities db ↔ ∃ r ∈ db.receipts, r.pair = p := by
  rw [identities, mem_orderBy, List.mem_map]
  exact Iff.rfl

theorem identities_congr (h : SameEvidence db db') : identities db = identities db' := by
  refine orderBy_perm (fun a b => pairLe_iff a b) (fun a _ b _ hab => ?_)
    ((Relational.rows_perm h.receipts).map _)
  exact toLex.injective hab

end Receipts

/-! ## The report -/

section Report

variable [Sha256] {db db' : Database}

theorem orphanEvidence_eq :
    (sweepExecutionAuditIntegrity db).orphanEvidence = orderBy evidenceLe (orphans db) := rfl

/-- The evidence of an execution does not depend on how it is stored. -/
theorem ExecutionEvidence.congr (h : SameEvidence db db') {participantId intentId : String}
    {r : ExecutionReceipt} {m : Message} {a : Provenance}
    (hev : ExecutionEvidence db participantId intentId r m a) :
    ExecutionEvidence db' participantId intentId r m a where
  receipt := ⟨(h.receipts r).mp hev.receipt.1, hev.receipt.2⟩
  message := ⟨(h.messages m).mp hev.message.1, hev.message.2⟩
  navigation := by
    obtain ⟨n, hn, hrest⟩ := hev.navigation
    exact ⟨n, (h.navigation n).mp hn, hrest⟩
  authority := ⟨(h.provenance a).mp hev.authority.1, hev.authority.2⟩
  principal := hev.principal
  scope := hev.scope
  delegated := by
    intro hsource
    obtain ⟨g, hg, hrest⟩ := hev.delegated hsource
    exact ⟨g, (h.delegated g).mp hg, hrest⟩
  delivered := by
    obtain ⟨i, hi, hrest⟩ := hev.delivered
    exact ⟨i, (h.ingress i).mp hi, hrest⟩
  described := fun i hi => hev.described i ((h.ingress i).mpr hi)
  bound := fun i hi => hev.bound i ((h.ingress i).mpr hi)

theorem valid_congr (h : SameEvidence db db') (participantId intentId : String) :
    (verifyExecutionAuditIntegrity db participantId intentId).valid
      = (verifyExecutionAuditIntegrity db' participantId intentId).valid := by
  rw [Bool.eq_iff_iff, valid_iff_evidence, valid_iff_evidence]
  constructor
  · intro hex
    obtain ⟨r, m, a, hev⟩ := hex
    exact ⟨r, m, a, hev.congr h⟩
  · intro hex
    obtain ⟨r, m, a, hev⟩ := hex
    exact ⟨r, m, a, hev.congr h.symm⟩

/-- The pairs of the reports on invalid executions are the pairs that do not verify. -/
theorem invalidExecutions_pairs :
    (sweepExecutionAuditIntegrity db).invalidExecutions.map
        (fun report => (report.participantId, report.intentId))
      = (identities db).filter fun p => !(verifyExecutionAuditIntegrity db p.1 p.2).valid := by
  have hpair : ∀ p : Pair, ((verifyExecutionAuditIntegrity db p.1 p.2).participantId,
      (verifyExecutionAuditIntegrity db p.1 p.2).intentId) = p := by
    intro p
    obtain ⟨⟨hp, hi⟩, -⟩ := report_verdict db p.1 p.2
    exact Prod.ext hp hi
  simp only [sweepExecutionAuditIntegrity]
  rw [List.filter_map, List.map_map]
  have hid : ((fun report : ExecutionAuditIntegrityReport =>
      (report.participantId, report.intentId))
        ∘ fun pair : Pair => verifyExecutionAuditIntegrity db pair.1 pair.2) = id :=
    funext hpair
  rw [hid, List.map_id]
  rfl

theorem mem_invalidExecutions {report : ExecutionAuditIntegrityReport} :
    report ∈ (sweepExecutionAuditIntegrity db).invalidExecutions
      ↔ ∃ r ∈ db.receipts, report = verifyExecutionAuditIntegrity db r.participantId r.intentId
        ∧ report.valid = false := by
  simp only [sweepExecutionAuditIntegrity, List.mem_filter, List.mem_map, Bool.not_eq_true']
  constructor
  · intro h
    obtain ⟨⟨p, hp, rfl⟩, hinvalid⟩ := h
    obtain ⟨r, hr, rfl⟩ := mem_identities.mp hp
    exact ⟨r, hr, rfl, hinvalid⟩
  · intro h
    obtain ⟨r, hr, rfl, hinvalid⟩ := h
    exact ⟨⟨r.pair, mem_identities.mpr ⟨r, hr, rfl⟩, rfl⟩, hinvalid⟩

theorem sweep_valid_parts :
    (sweepExecutionAuditIntegrity db).valid = true
      ↔ (sweepExecutionAuditIntegrity db).invalidExecutions = []
        ∧ (sweepExecutionAuditIntegrity db).orphanEvidence = [] := by
  have hsweep : (sweepExecutionAuditIntegrity db).valid
      = ((sweepExecutionAuditIntegrity db).invalidExecutions.isEmpty
        && (sweepExecutionAuditIntegrity db).orphanEvidence.isEmpty) := rfl
  rw [hsweep, Bool.and_eq_true, List.isEmpty_iff, List.isEmpty_iff]

/-- The store sweeps clean exactly when everything is accounted for. -/
theorem sweep_valid_iff :
    (sweepExecutionAuditIntegrity db).valid = true ↔ AccountedFor db := by
  rw [sweep_valid_parts, orphanEvidence_eq, orderBy_eq_nil, List.eq_nil_iff_forall_not_mem, List.eq_nil_iff_forall_not_mem]
  constructor
  · intro h
    obtain ⟨hinvalid, horphans⟩ := h
    have hno : ∀ row e, ¬ Offence db row e := fun row e ho =>
      horphans e (mem_orphans.mpr ⟨row, ho⟩)
    refine ⟨fun r hr => ?_, fun a ha => ?_, fun n hn => ?_, fun i hi => ?_⟩
    · by_contra hbad
      exact hinvalid _ (mem_invalidExecutions.mpr ⟨r, hr, rfl, by simpa using hbad⟩)
    · by_contra hbad
      refine hno _ _ (.provenance ha fun r hr hpair => hbad ⟨r, hr, hpair⟩)
    · by_contra hbad
      refine hno _ _ (.navigation hn fun r hr hpair => hbad ⟨r, hr, hpair⟩)
    · -- a delivery is bound to somebody, or reported as bound to nobody
      by_cases hunbound : ∀ p, i.participantId = some p → Text.isBlank p = true
      · exact absurd (.unbound hi hunbound) (hno _ _)
      · simp only [not_forall, Bool.not_eq_true] at hunbound
        obtain ⟨p, hp, hblank⟩ := hunbound
        refine ⟨p, hp, hblank, ?_⟩
        by_contra hbad
        exact hno _ _ (.ingress hi hp hblank fun r hr hpair => hbad ⟨r, hr, hpair⟩)
  · intro h
    constructor
    · intro report hreport
      obtain ⟨r, hr, rfl, hinvalid⟩ := mem_invalidExecutions.mp hreport
      rw [h.receipts r hr] at hinvalid
      exact absurd hinvalid (by simp)
    · intro e he
      obtain ⟨row, ho⟩ := mem_orphans.mp he
      cases ho with
      | provenance hmem horphan =>
          obtain ⟨r, hr, hpair⟩ := h.provenance _ hmem
          exact horphan r hr hpair
      | navigation hmem horphan =>
          obtain ⟨r, hr, hpair⟩ := h.navigation _ hmem
          exact horphan r hr hpair
      | unbound hmem hunbound =>
          obtain ⟨p, hp, hblank, -⟩ := h.ingress _ hmem
          exact absurd (hunbound p hp) (by simp [hblank])
      | ingress hmem hbound hblank horphan =>
          obtain ⟨p, hp, -, r, hr, hpair⟩ := h.ingress _ hmem
          rw [hbound, Option.some.injEq] at hp
          rw [← hp] at hpair
          exact horphan r hr hpair

/-- What a sweep reports. -/
structure SweepExact (db : Database) : Prop where
  /-- It is valid when everything is accounted for, and only then. -/
  valid : (sweepExecutionAuditIntegrity db).valid = true ↔ AccountedFor db
  scanned : (sweepExecutionAuditIntegrity db).executionsScanned = db.receipts.rows.length
  /-- The reports are those on the receipts that do not verify, -/
  receipts : ∀ report, report ∈ (sweepExecutionAuditIntegrity db).invalidExecutions
    ↔ ∃ r ∈ db.receipts, report = verifyExecutionAuditIntegrity db r.participantId r.intentId
      ∧ report.valid = false
  /-- one for each. -/
  receiptsOnce : ((sweepExecutionAuditIntegrity db).invalidExecutions.map
    fun report => (report.participantId, report.intentId)).Nodup
  /-- The lines of evidence are those on the offending rows, -/
  rows : ∀ e, e ∈ (sweepExecutionAuditIntegrity db).orphanEvidence ↔ ∃ row, Offence db row e
  /-- none of them twice, -/
  rowsOnce : (sweepExecutionAuditIntegrity db).orphanEvidence.Nodup
  /-- with one kind of defect for each row -/
  kinds : ∀ row e e', Offence db row e → Offence db row e' → e = e'
  /-- and a line of its own. -/
  lines : ∀ row row' e, Offence db row e → Offence db row' e → row = row'
  /-- Nothing of this depends on how the rows are stored. -/
  order : ∀ db', SameEvidence db db' →
    (sweepExecutionAuditIntegrity db).valid = (sweepExecutionAuditIntegrity db').valid
      ∧ (sweepExecutionAuditIntegrity db).invalidExecutions.map
          (fun report => (report.participantId, report.intentId))
        = (sweepExecutionAuditIntegrity db').invalidExecutions.map
          (fun report => (report.participantId, report.intentId))
      ∧ (sweepExecutionAuditIntegrity db).orphanEvidence
        = (sweepExecutionAuditIntegrity db').orphanEvidence

theorem AccountedFor.congr (h : SameEvidence db db') (ha : AccountedFor db) :
    AccountedFor db' where
  receipts := by
    intro r hr
    rw [← valid_congr h]
    exact ha.receipts r ((h.receipts r).mpr hr)
  provenance := by
    intro a hmem
    obtain ⟨r, hr, hpair⟩ := ha.provenance a ((h.provenance a).mpr hmem)
    exact ⟨r, (h.receipts r).mp hr, hpair⟩
  navigation := by
    intro n hmem
    obtain ⟨r, hr, hpair⟩ := ha.navigation n ((h.navigation n).mpr hmem)
    exact ⟨r, (h.receipts r).mp hr, hpair⟩
  ingress := by
    intro i hmem
    obtain ⟨p, hp, hblank, r, hr, hpair⟩ := ha.ingress i ((h.ingress i).mpr hmem)
    exact ⟨p, hp, hblank, r, (h.receipts r).mp hr, hpair⟩

/-- **The sweep is exact**, on any content of the tables. -/
theorem sweepExecutionAuditIntegrity_exact (db : Database) : SweepExact db where
  valid := sweep_valid_iff
  scanned := by
    have hlength : (sweepExecutionAuditIntegrity db).executionsScanned = (identities db).length :=
      rfl
    rw [hlength, identities, orderBy, List.length_insertionSort, List.length_map]
  receipts := fun _ => mem_invalidExecutions
  receiptsOnce := by
    rw [invalidExecutions_pairs]
    exact identities_nodup.filter _
  rows := by
    intro e
    rw [orphanEvidence_eq, mem_orderBy, mem_orphans]
  rowsOnce := by
    rw [orphanEvidence_eq]
    exact (List.perm_insertionSort _ _).nodup_iff.mpr orphans_nodup
  kinds := fun _ _ _ h h' => h.kind_unique h'
  lines := fun _ _ _ h h' => h.row_unique h'
  order := by
    intro db' h
    refine ⟨?_, ?_, ?_⟩
    · rw [Bool.eq_iff_iff, sweep_valid_iff, sweep_valid_iff]
      exact ⟨fun ha => ha.congr h, fun ha => ha.congr h.symm⟩
    · rw [invalidExecutions_pairs, invalidExecutions_pairs, identities_congr h]
      exact List.filter_congr fun p _ => by rw [valid_congr h]
    · rw [orphanEvidence_eq, orphanEvidence_eq]
      refine orderBy_perm (fun a b => evidenceLe_iff a b) (fun a _ b _ hab => ?_)
        (orphans_perm h)
      exact evidenceKey_injective hab

end Report

end Blackboard
