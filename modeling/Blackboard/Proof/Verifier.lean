import Blackboard.Spec.Audit

/-!
# The verifier decides its specification

`verifyExecutionAuditIntegrity` pushes its findings one after the other, whatever came
before. Each part of it is clean exactly when one clause of `ExecutionEvidence` holds
(`verifyMessage_clean_iff`, `verifyNavigation_clean_iff`, ..), and the report is valid when
all of them are, on any content of the tables (`valid_iff_evidence`).

The reservation is looked up twice, the second time by the nonce or the message alone. A
row the second look-up finds has another key than the intent (`navigationForReceipt_of_none`),
so it is reported as a mismatch and never passes for the missing one.
-/

namespace Blackboard

open Relational (Table mem_orderBy)

section Parts

variable {db : Database} {r : ExecutionReceipt} {a : Provenance} {participantId intentId : String}

/-! ## Receipt and message -/

theorem verifyReceipt_clean_iff (hpair : r.pair = (participantId, intentId)) :
    (verifyReceipt r participantId intentId).violations = [] ↔ r.status = "committed" := by
  obtain ⟨hp, hi⟩ := Prod.mk.inj hpair
  simp [verifyReceipt, hp, hi]

theorem verifyMessage_clean_iff [Sha256] :
    (verifyMessage db r participantId).violations = []
      ↔ ∃ m ∈ db.messages, m.id = r.messageId ∧ m.inst = participantId
        ∧ messageRequestHash m.channel m.kind m.body m.conversationRef m.replyTo
          = r.intentHash := by
  unfold verifyMessage
  cases hm : db.messages.find r.messageId with
  | none =>
      simp only [Findings.violations_violation, List.cons_ne_nil, false_iff]
      intro h
      obtain ⟨m, hmem, hid, -⟩ := h
      exact Table.find_eq_none_iff.mp hm m hmem hid
  | some m =>
      obtain ⟨hmem, hid⟩ := Table.find_eq_some_iff.mp hm
      simp only [Findings.violations_append, Findings.violations_check, List.nil_append,
        List.append_eq_nil_iff, Findings.violations_expect_eq_nil]
      constructor
      · intro h
        exact ⟨m, hmem, hid, h.1, h.2.symm⟩
      · intro h
        obtain ⟨m', hmem', hid', hinst, hhash⟩ := h
        have heq : m' = m := Table.eq_of_key hmem' hmem (hid'.trans hid.symm)
        subst heq
        exact ⟨hinst, hhash.symm⟩

/-! ## The reservation -/

/-- What the second look-up finds is reserved under another key. -/
theorem navigationForReceipt_of_none (h : db.navigationWrites.find (participantId, intentId) = none)
    {n : NavigationWrite} (hn : navigationForReceipt db r participantId intentId = some n) :
    n.pair ≠ (participantId, intentId) := by
  simp only [navigationForReceipt, h] at hn
  have hmem : n ∈ db.navigationWrites := by
    have hsorted := List.mem_of_mem_head? (Option.mem_def.mpr hn)
    exact (List.mem_filter.mp (mem_orderBy.mp hsorted)).1
  exact Table.find_eq_none_iff.mp h n hmem

theorem verifyNavigation_clean_iff (hpair : r.pair = (participantId, intentId)) :
    (verifyNavigation db r participantId intentId).violations = []
      ↔ ∃ n ∈ db.navigationWrites, n.pair = (participantId, intentId)
        ∧ n.messageId = r.messageId ∧ n.requestHash = r.intentHash := by
  obtain ⟨hp, hi⟩ := Prod.mk.inj hpair
  unfold verifyNavigation
  cases hfind : db.navigationWrites.find (participantId, intentId) with
  | none =>
      have hmissing : ¬ ∃ n ∈ db.navigationWrites, n.pair = (participantId, intentId)
          ∧ n.messageId = r.messageId ∧ n.requestHash = r.intentHash := by
        intro h
        obtain ⟨n, hn, hkey, -⟩ := h
        exact Table.find_eq_none_iff.mp hfind n hn hkey
      -- the fallback may find a row, but not one of this pair
      cases hnav : navigationForReceipt db r participantId intentId with
      | none => simp [hmissing]
      | some n =>
          have hne := navigationForReceipt_of_none hfind hnav
          have hbinding : ¬ (n.inst = r.participantId ∧ n.nonce = r.intentId
              ∧ n.messageId = r.messageId) := by
            intro h
            exact hne (Prod.ext (h.1.trans hp) (h.2.1.trans hi))
          simp [hmissing, hbinding]
  | some n =>
      obtain ⟨hmem, hkey⟩ := Table.find_eq_some_iff.mp hfind
      obtain ⟨hnp, hni⟩ := Prod.mk.inj hkey
      have hnav : navigationForReceipt db r participantId intentId = some n := by
        simp only [navigationForReceipt, hfind]
      simp only [hnav, Findings.violations_append, Findings.violations_check, List.nil_append,
        List.append_eq_nil_iff, Findings.violations_expect_eq_nil]
      constructor
      · intro h
        exact ⟨n, hmem, hkey, h.1.2.2, h.2⟩
      · intro h
        obtain ⟨n', hmem', hkey', hmessage, hhash⟩ := h
        have heq : n' = n := Table.eq_of_key hmem' hmem (hkey'.trans hkey.symm)
        subst heq
        exact ⟨⟨hnp.trans hp.symm, hni.trans hi.symm, hmessage⟩, hhash⟩

/-! ## The authority on record -/

/-- The principal of a provenance row, when both its columns are there. -/
def Provenance.principal (a : Provenance) : Option Principal :=
  match a.principalProvider, a.principalSubject with
  | some provider, some subject => some ⟨provider, subject⟩
  | _, _ => none

/-- The provenance of the intent, as the verifier reads it. -/
theorem getAuthorizationProvenance_of_find
    (h : db.provenance.find (participantId, intentId) = some a) :
    getAuthorizationProvenance db participantId intentId
      = some ⟨participantId, intentId, a.principal, a.capability, a.resource, a.source, a.reason,
          a.grantId⟩ := by
  have hkey : a.pair = (participantId, intentId) := Table.key_of_find h
  obtain ⟨hap, hai⟩ := Prod.mk.inj hkey
  rw [getAuthorizationProvenance, h, Option.map_some, hap, hai]
  rfl

theorem verifyPrincipal_clean_iff :
    (verifyPrincipal a.principal).violations = []
      ↔ ∃ provider subject, a.principalProvider = some provider
        ∧ a.principalSubject = some subject ∧ Text.isBlank provider = false
        ∧ Text.isBlank subject = false := by
  unfold Provenance.principal
  cases hp : a.principalProvider with
  | none => simp [verifyPrincipal]
  | some provider =>
      cases hs : a.principalSubject with
      | none => simp [verifyPrincipal]
      | some subject => simp [verifyPrincipal]

theorem verifyCapability_clean_iff (capability : Option String) :
    (verifyCapability r capability).violations = [] ↔ capability = some r.capability := by
  cases capability with
  | none => simp [verifyCapability]
  | some capability => simp [verifyCapability]

theorem verifyResource_clean_iff (expected resource : Option String) :
    (verifyResource expected resource).violations = []
      ↔ ∃ channel, expected = some channel ∧ resource = some channel
        ∧ Text.isBlank channel = false := by
  cases resource with
  | none => simp [verifyResource]
  | some resource =>
      cases hblank : Text.isBlank resource with
      | true => simp [verifyResource, hblank]
      | false => simp [verifyResource, hblank]

theorem verifyAuthorization_missing (h : db.provenance.find (participantId, intentId) = none) :
    (verifyAuthorization db r participantId intentId).violations
      = ["authorization_provenance_missing"] := by
  rw [verifyAuthorization, Table.count_eq_zero_of_none h]
  rfl

/-- The key of the table leaves no room for a second row, so that the row is there is the first
thing to ask, and whether it is in order the rest. -/
theorem verifyAuthorization_clean_iff
    (h : db.provenance.find (participantId, intentId) = some a) :
    (verifyAuthorization db r participantId intentId).violations = []
      ↔ (verifyPrincipal a.principal).violations = [] ∧ a.capability = some r.capability
        ∧ ∃ channel, (db.messages.find r.messageId).map Message.channel = some channel
          ∧ a.resource = some channel ∧ Text.isBlank channel = false := by
  have hcount : (db.provenance.count fun row => decide (row.pair = (participantId, intentId))) = 1 :=
    Table.count_eq_one_of_some h
  rw [verifyAuthorization, hcount]
  simp only [getAuthorizationProvenance_of_find h, Findings.violations_append,
    Findings.violations_check, List.nil_append, List.append_eq_nil_iff, verifyCapability_clean_iff,
    verifyResource_clean_iff, ne_eq, not_true_eq_false, or_self, if_false,
    Findings.violations_none, and_assoc]

/-! ## The delegated grant -/

theorem verifyOneShot_clean_iff {g : DelegatedGrant} :
    (verifyOneShot r g).violations = []
      ↔ (g.oneShot ≠ 0 → g.consumedAt ≠ none ∧ g.consumedIntentId = some r.intentId) := by
  unfold verifyOneShot
  by_cases hone : g.oneShot = 0
  · simp [hone]
  · cases hat : g.consumedAt with
    | none => simp [hone]
    | some at' => simp [hone]

theorem verifyDelegatedGrant_clean_iff
    (h : db.provenance.find (participantId, intentId) = some a) :
    (verifyDelegatedGrant db r participantId intentId).violations = []
      ↔ (a.source = "delegated_grants" →
        ∃ g ∈ db.delegatedGrants, a.grantId = some g.id ∧ DecidedOn g r) := by
  simp only [verifyDelegatedGrant, getAuthorizationProvenance_of_find h]
  have htext : DecisionSource.delegatedGrants.text = "delegated_grants" := rfl
  by_cases hsource : a.source = "delegated_grants"
  · rw [htext, if_neg (not_not.mpr hsource)]
    cases hid : a.grantId with
    | none => simp [hsource]
    | some grantId =>
        cases hfind : db.delegatedGrants.find grantId with
        | none =>
            simp only [hfind, Findings.violations_violation, List.cons_ne_nil, hsource,
              true_implies, false_iff]
            intro h
            obtain ⟨g, hg, hgid, -⟩ := h
            exact Table.find_eq_none_iff.mp hfind g hg (Option.some.inj hgid).symm
        | some g =>
            obtain ⟨hmem, hgid⟩ := Table.find_eq_some_iff.mp hfind
            simp only [hfind, Findings.violations_append, Findings.violations_check,
              List.nil_append, List.append_eq_nil_iff, Findings.violations_expect_eq_nil,
              verifyOneShot_clean_iff, hsource, true_implies]
            constructor
            · intro h
              exact ⟨g, hmem, by rw [hgid], ⟨h.1.1, h.1.2, h.2⟩⟩
            · intro h
              obtain ⟨g', hmem', hgid', hdecided⟩ := h
              have heq : g' = g :=
                Table.eq_of_key hmem' hmem ((Option.some.inj hgid').symm.trans hgid.symm)
              subst heq
              exact ⟨⟨hdecided.participantId, hdecided.capability⟩, hdecided.consumed⟩
  · rw [htext, if_pos hsource]
    simp [hsource]

/-! ## The deliveries -/

theorem mem_ingressOfIntent {i : Ingress} :
    i ∈ ingressOfIntent db intentId ↔ i ∈ db.ingress ∧ i.intentId = intentId := by
  rw [ingressOfIntent, mem_orderBy, List.mem_filter, decide_eq_true_eq]
  exact Iff.rfl

theorem ingressUnbound_eq_false_iff {i : Ingress} :
    ingressUnbound i = false ↔ i.participantId ≠ none ∧ i.participantId ≠ some "" := by
  simp [ingressUnbound]

theorem ingressMetadataInvalid_eq_false_iff {i : Ingress} :
    ingressMetadataInvalid i = false ↔ Described i := by
  simp only [ingressMetadataInvalid, Bool.or_eq_false_iff]
  constructor
  · intro h
    exact ⟨h.1.1.1.1, h.1.1.1.2, h.1.1.2, h.1.2, h.2⟩
  · intro h
    exact ⟨⟨⟨⟨h.deliveryId, h.transport⟩, h.externalRef⟩, h.principalProvider⟩, h.principalSubject⟩

/-- The deliveries of an intent are in order: one is the participant's, the participant's are
described, and none is nobody's. -/
theorem verifyIngress_clean_iff (participantId intentId : String) :
    (verifyIngress db participantId intentId).violations = []
      ↔ (∃ i ∈ db.ingress, i.participantId = some participantId ∧ i.intentId = intentId)
        ∧ (∀ i ∈ db.ingress, i.participantId = some participantId → i.intentId = intentId →
          Described i)
        ∧ ∀ i ∈ db.ingress, i.intentId = intentId →
          i.participantId ≠ none ∧ i.participantId ≠ some "" := by
  have htarget : ∀ i, i ∈ (ingressOfIntent db intentId).filter (fun row =>
      !ingressUnbound row && decide (row.participantId = some participantId))
      ↔ i ∈ db.ingress ∧ i.intentId = intentId ∧ ingressUnbound i = false
        ∧ i.participantId = some participantId := by
    intro i
    rw [List.mem_filter, mem_ingressOfIntent, Bool.and_eq_true, decide_eq_true_eq, Bool.not_eq_true',
      and_assoc]
  unfold verifyIngress
  generalize htg : (ingressOfIntent db intentId).filter (fun row =>
      !ingressUnbound row && decide (row.participantId = some participantId)) = target at htarget
  -- a target row is bound to the pair by how it was selected
  have hmismatches : target.filter (fun row =>
      decide (row.intentId ≠ intentId ∨ row.participantId.getD "" ≠ participantId)) = [] := by
    rw [List.filter_eq_nil_iff]
    intro i hi
    obtain ⟨-, hint, -, hp⟩ := (htarget i).mp hi
    simp [hint, hp]
  have hunbound : (ingressOfIntent db intentId).any ingressUnbound = false
      ↔ ∀ i ∈ db.ingress, i.intentId = intentId →
        i.participantId ≠ none ∧ i.participantId ≠ some "" := by
    rw [List.any_eq_false]
    constructor
    · intro h i hi hint
      have := h i (mem_ingressOfIntent.mpr ⟨hi, hint⟩)
      exact ingressUnbound_eq_false_iff.mp (by simpa using this)
    · intro h i hi
      obtain ⟨hmem, hint⟩ := mem_ingressOfIntent.mp hi
      rw [ingressUnbound_eq_false_iff.mpr (h i hmem hint)]
      simp
  simp only [htg, hmismatches, List.map_nil, if_true, Findings.violations_append, List.nil_append,
    List.append_eq_nil_iff]
  cases hany : (ingressOfIntent db intentId).any ingressUnbound with
  | true =>
      have hnot : ¬ ∀ i ∈ db.ingress, i.intentId = intentId →
          i.participantId ≠ none ∧ i.participantId ≠ some "" := by
        rw [← hunbound, hany]
        simp
      simp only [if_true, Findings.violations_violation, List.cons_ne_nil, false_and, false_iff]
      intro h
      exact hnot h.2.2
  | false =>
      have hbound := hunbound.mp hany
      -- with every delivery bound, the target rows are the participant's
      have hmem : ∀ i, i ∈ target ↔ i ∈ db.ingress ∧ i.participantId = some participantId
          ∧ i.intentId = intentId := by
        intro i
        rw [htarget]
        constructor
        · intro h
          exact ⟨h.1, h.2.2.2, h.2.1⟩
        · intro h
          exact ⟨h.1, h.2.2, ingressUnbound_eq_false_iff.mpr (hbound i h.1 h.2.2), h.2.1⟩
      have hlength : target.length = 0 ↔ ¬ ∃ i ∈ db.ingress,
          i.participantId = some participantId ∧ i.intentId = intentId := by
        rw [List.length_eq_zero_iff, List.eq_nil_iff_forall_not_mem]
        constructor
        · intro h hex
          obtain ⟨i, hi⟩ := hex
          exact h i ((hmem i).mpr hi)
        · intro h i hi
          exact h ⟨i, (hmem i).mp hi⟩
      have hinvalid : target.any ingressMetadataInvalid = false
          ↔ ∀ i ∈ db.ingress, i.participantId = some participantId → i.intentId = intentId →
            Described i := by
        rw [List.any_eq_false]
        constructor
        · intro h i hi hp hint
          have := h i ((hmem i).mpr ⟨hi, hp, hint⟩)
          exact ingressMetadataInvalid_eq_false_iff.mp (by simpa using this)
        · intro h i hi
          obtain ⟨hi', hp, hint⟩ := (hmem i).mp hi
          rw [ingressMetadataInvalid_eq_false_iff.mpr (h i hi' hp hint)]
          simp
      simp only [Bool.false_eq_true, if_false, Findings.violations_none, true_and]
      rw [← hinvalid]
      by_cases hlen : target.length = 0
      · rw [if_pos hlen, Findings.violations_violation]
        have hno := hlength.mp hlen
        simp [hno]
      · rw [if_neg hlen, Findings.violations_check]
        have hex := not_not.mp (fun h => hlen (hlength.mpr h))
        cases hbad : target.any ingressMetadataInvalid with
        | true => simp
        | false =>
            have hpos : target.length > 0 := by omega
            simp only [Bool.false_eq_true, if_false, if_pos hpos, Findings.violations_check,
              true_and, true_iff]
            exact ⟨hex, hbound⟩

end Parts

/-! ## The report -/

variable [Sha256]

/-- A report is valid when it has no violations, and then it ends with the verdict. -/
theorem report_verdict (db : Database) (participantId intentId : String) :
    let report := verifyExecutionAuditIntegrity db participantId intentId
    (report.participantId = participantId ∧ report.intentId = intentId)
      ∧ (report.valid = true ↔ report.violations = [])
      ∧ (report.valid = true → "valid_committed_audit" ∈ report.checks) := by
  simp only [verifyExecutionAuditIntegrity]
  cases getExecutionReceipt db participantId intentId with
  | none => simp
  | some r =>
      refine ⟨⟨rfl, rfl⟩, ?_, ?_⟩
      · simp only [List.isEmpty_iff]
      · intro h
        simp only at h
        simp [h]

/-- **The verifier decides its specification**, on any content of the tables. -/
theorem valid_iff_evidence {db : Database} {participantId intentId : String} :
    (verifyExecutionAuditIntegrity db participantId intentId).valid = true
      ↔ ∃ r m a, ExecutionEvidence db participantId intentId r m a := by
  unfold verifyExecutionAuditIntegrity getExecutionReceipt
  cases hr : db.receipts.find (participantId, intentId) with
  | none =>
      simp only [Bool.false_eq_true, false_iff]
      intro h
      obtain ⟨r, m, a, hev⟩ := h
      exact Table.find_eq_none_iff.mp hr r hev.receipt.1 hev.receipt.2.1
  | some r =>
      obtain ⟨hmem, hpair⟩ := Table.find_eq_some_iff.mp hr
      simp only [verifyCommitted, List.isEmpty_iff, Findings.violations_append,
        List.append_eq_nil_iff, verifyReceipt_clean_iff hpair, verifyMessage_clean_iff,
        verifyNavigation_clean_iff hpair, verifyIngress_clean_iff]
      cases ha : db.provenance.find (participantId, intentId) with
      | none =>
          simp only [verifyAuthorization_missing ha, List.cons_ne_nil, and_false, false_and,
            false_iff]
          intro h
          obtain ⟨r', m, a, hev⟩ := h
          exact Table.find_eq_none_iff.mp ha a hev.authority.1 hev.authority.2
      | some a =>
          obtain ⟨hamem, hapair⟩ := Table.find_eq_some_iff.mp ha
          simp only [verifyAuthorization_clean_iff ha, verifyDelegatedGrant_clean_iff ha,
            verifyPrincipal_clean_iff]
          constructor
          · intro h
            obtain ⟨⟨⟨⟨⟨hstatus, m, hm, hid, hinst, hhash⟩, hnav⟩, hprincipal, hcapability, channel,
              hchannel, hresource, hblank⟩, hdelegated⟩, hdelivered, hdescribed, hbound⟩ := h
            rw [← hid, Table.find_of_mem hm, Option.map_some, Option.some.injEq] at hchannel
            subst hchannel
            exact ⟨r, m, a, ⟨⟨hmem, hpair, hstatus⟩, ⟨hm, hid, hinst, hhash⟩, hnav,
              ⟨hamem, hapair⟩, hprincipal, ⟨hcapability, hresource, hblank⟩, hdelegated,
              hdelivered, hdescribed, hbound⟩⟩
          · intro h
            obtain ⟨r', m, a', hev⟩ := h
            have hr' : r' = r :=
              Table.eq_of_key hev.receipt.1 hmem (hev.receipt.2.1.trans hpair.symm)
            have ha' : a' = a :=
              Table.eq_of_key hev.authority.1 hamem (hev.authority.2.trans hapair.symm)
            subst hr' ha'
            have hchannel : (db.messages.find r'.messageId).map Message.channel
                = some m.channel := by
              rw [← hev.message.2.1, Table.find_of_mem hev.message.1]
              rfl
            exact ⟨⟨⟨⟨⟨hev.receipt.2.2, m, hev.message⟩, hev.navigation⟩, hev.principal,
              hev.scope.1, m.channel, hchannel, hev.scope.2.1, hev.scope.2.2⟩, hev.delegated⟩,
              hev.delivered, hev.described, hev.bound⟩

/-- **The verdict is exact.** On any content of the tables a report is valid when, and only when,
the evidence of the execution is there; a reservation under another key does not help. -/
theorem verifyExecutionAuditIntegrity_exact (db : Database) (participantId intentId : String) :
    let report := verifyExecutionAuditIntegrity db participantId intentId
    (report.valid = true ↔ ∃ r m a, ExecutionEvidence db participantId intentId r m a)
      ∧ (report.valid = true ↔ report.violations = [])
      ∧ ((∀ n ∈ db.navigationWrites, n.pair ≠ (participantId, intentId)) →
        report.valid = false) := by
  refine ⟨valid_iff_evidence, (report_verdict db participantId intentId).2.1, ?_⟩
  intro hnone
  rw [Bool.eq_false_iff]
  intro hvalid
  obtain ⟨r, m, a, hev⟩ := valid_iff_evidence.mp hvalid
  obtain ⟨n, hn, hkey, -⟩ := hev.navigation
  exact hnone n hn hkey

end Blackboard
