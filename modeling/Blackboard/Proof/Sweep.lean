import Blackboard.Proof.SweepExact
import Blackboard.Proof.Trail

/-!
# The sweep over a whole run

A run of executions, plain appends and administration, in which every delivery says where
it came from, leaves a store the sweep finds nothing wrong with
(`sweep_clean_of_executions`): the receipts are audited, and every reservation has its
receipt, because in such a run only executions reserve (`ExecutedInv`).

Navigation writes reserve without a receipt. The sweep reports those, rightly; but an
execution that comes after one with the same content adopts its message, and commits a
receipt no authority was recorded for. `adopted_navigation_write_fails_audit` is such a run,
and `executions_audit_clean` says that there is no other way to get one.
-/

namespace Blackboard

open Relational (Table)

section Executions

variable [Sha256]

/-! ## The sweep -/

/-- A store whose receipts are audited and whose reservations are executions' sweeps clean. -/
theorem sweep_clean {db : Database} (h : StoreInv db) (ht : TrailInv db) (he : ExecutedInv db) :
    (sweepExecutionAuditIntegrity db).valid = true
      ∧ (∀ r ∈ db.receipts,
        (verifyExecutionAuditIntegrity db r.participantId r.intentId).violations = [])
      ∧ (sweepExecutionAuditIntegrity db).orphanEvidence = [] := by
  have hvalid : ∀ r ∈ db.receipts,
      (verifyExecutionAuditIntegrity db r.participantId r.intentId).valid = true :=
    fun r hr => (valid_iff_audited h hr).mpr (ht r hr)
  have hprovenance : ∀ a ∈ db.provenance, ∃ r ∈ db.receipts, r.pair = a.pair := by
    intro a ha
    obtain ⟨n, r, m, hacc⟩ := h.ledger.provenance a ha
    exact ⟨r, hacc.receipt.1, hacc.receipt.2.1⟩
  have haccounted : AccountedFor db := by
    refine ⟨hvalid, hprovenance, ?_, ?_⟩
    · intro n hn
      obtain ⟨a, ha, hpair⟩ := he n hn
      obtain ⟨r, hr, hrpair⟩ := hprovenance a ha
      exact ⟨r, hr, hrpair.trans hpair⟩
    · intro i hi
      obtain ⟨-, p, hp, hblank, hreceipt⟩ := h.ledger.ingress i hi
      exact ⟨p, hp, hblank, hreceipt⟩
  have hclean := sweep_valid_iff.mpr haccounted
  refine ⟨hclean, fun r hr => ((report_verdict db _ _).2.1).mp (hvalid r hr), ?_⟩
  exact (sweep_valid_parts.mp hclean).2

/-! ## Runs of executions -/

/-- Not a navigation write; and an execution names its channel and intent and presents its
delivery. -/
def Action.Presentable (a : Action) : Prop :=
  match a.op with
  | .navigate .. => False
  | .execute _ request => Presented request.ingress ∧ Text.isBlank request.channel = false
      ∧ Text.isBlank request.intent.intentId = false
  | _ => True

omit [Sha256] in
theorem Action.Presentable.not_navigation {a : Action} (h : a.Presentable) :
    a.op.isNavigation = false := by
  obtain ⟨now, op⟩ := a
  cases op with
  | navigate => exact h.elim
  | _ => rfl

omit [Sha256] in
/-- Where only executions reserve, an execution with its texts in place is auditable. -/
theorem auditable_of_presentable {db : Database} (he : ExecutedInv db) {a : Action}
    (ha : a.Presentable) : a.Auditable db := by
  unfold Action.Presentable at ha
  unfold Action.Auditable
  split
  swap
  · trivial
  rename_i participantId request hop
  rw [hop] at ha
  refine ⟨ha.1, ?_⟩
  cases hn : db.navigationWrites.find (participantId, request.intent.intentId) with
  | none => simpa using ha.2.1
  | some n =>
      obtain ⟨a, ha, hpair⟩ := he n (Table.mem_of_find hn)
      have hapair : a.pair = (participantId, request.intent.intentId) :=
        hpair.trans (Table.key_of_find hn)
      rw [← hapair, Table.find_of_mem ha]
      rfl

/-- **Executions, plain appends and administration leave a store that sweeps clean.** -/
theorem sweep_clean_of_executions (actions : List Action) (h : ∀ a ∈ actions, a.Presentable) :
    (sweepExecutionAuditIntegrity (stateAfter actions)).valid = true
      ∧ (∀ r ∈ (stateAfter actions).receipts,
        (verifyExecutionAuditIntegrity (stateAfter actions) r.participantId r.intentId).violations
          = [])
      ∧ (sweepExecutionAuditIntegrity (stateAfter actions)).orphanEvidence = [] := by
  have hinv : StoreInv (stateAfter actions) ∧ TrailInv (stateAfter actions)
      ∧ ExecutedInv (stateAfter actions) := by
    refine Transition.inv_run_of_forall
      (I := fun db => StoreInv db ∧ TrailInv db ∧ ExecutedInv db) ?_ ?_ h
    · rintro db a ⟨hs, ht, he⟩ ha
      exact ⟨storeInv_step db a hs, trailInv_step db a hs ht (auditable_of_presentable he ha),
        executedInv_step db a he ha.not_navigation⟩
    · exact ⟨storeInv_initial, trailInv_initial, executedInv_initial⟩
  exact sweep_clean hinv.1 hinv.2.1 hinv.2.2

end Executions

section Sample

attribute [local instance] sampleSha256

/-- Alice says hello twice under one intent, by two deliveries, and is deactivated. -/
theorem sweep_clean_of_two_deliveries :
    let actions := [sampleProvision, sampleExecution 1 "hello" "delivery-1",
      sampleExecution 2 "hello" "delivery-2", ⟨3, .participant (.setStatus "alice" "inactive")⟩]
    ((stateAfter actions).receipts.rows.length = 1 ∧ (stateAfter actions).ingress.rows.length = 2)
      ∧ (sweepExecutionAuditIntegrity (stateAfter actions)).valid = true :=
  ⟨by decide +kernel, (sweep_clean_of_executions _ (by
    simp only [List.mem_cons, List.not_mem_nil, or_false, forall_eq_or_imp, forall_eq]
    refine ⟨trivial, ?_, ?_, trivial⟩ <;> exact ⟨⟨by decide, by decide, by decide⟩, by decide,
      by decide⟩)).1⟩

end Sample

/-! ## Runs with navigation writes -/

section Navigation

variable [Sha256]

/-- **In a run of auditable executions every accepted execution has a clean audit**, and the first
accepted execution that is not auditable does not. -/
theorem executions_audit_clean (actions : List Action)
    (hrun : ∀ e ∈ happenings actions, e.act.Auditable e.before) :
    (∀ e ∈ happenings actions, ∀ participantId request m, IsExecution e participantId request →
      e.out.accepted = some m →
        (verifyExecutionAuditIntegrity e.after participantId request.intent.intentId).valid = true)
    ∧ ∀ (a : Action) participantId request m, a.op = .execute participantId request →
      (a.step (stateAfter actions)).1.accepted = some m →
        ((verifyExecutionAuditIntegrity (a.step (stateAfter actions)).2 participantId
            request.intent.intentId).valid = true
          ↔ Auditable (stateAfter actions) participantId request) := by
  obtain ⟨hlast, hall⟩ := trailInv_run hrun
  constructor
  · intro e he participantId request m hop hout
    have hstep := Transition.step_of_mem he
    have hs := storeInv_happenings he
    rw [show e.out = (e.act.step e.before).1 by rw [hstep]] at hout
    have hafter : e.after = (e.act.step e.before).2 := by rw [hstep]
    obtain ⟨r, hr, hpair⟩ := exists_receipt_of_accepted hop hout
    obtain ⟨hp, hi⟩ := Prod.mk.inj hpair
    rw [← hafter] at hr
    have hvalid := (valid_iff_audited hs.2 hr).mpr (hall e he r hr)
    rwa [hp, hi] at hvalid
  · intro a participantId request m hop hout
    exact accepted_valid_iff_auditable (storeInv_stateAfter actions) hlast hop hout

end Navigation

section Sample

attribute [local instance] sampleSha256

/-- Alice says hello twice under one intent: the first execution is auditable, and the second has
a clean audit because it is. -/
theorem executions_audit_clean_of_two_deliveries :
    let before := stateAfter [sampleProvision, sampleExecution 1 "hello" "delivery-1"]
    let second := (sampleExecution 2 "hello" "delivery-2").step before
    second.1.accepted.isSome = true
      ∧ (verifyExecutionAuditIntegrity second.2 "alice" sampleIntentId).valid = true := by
  have hout : ((sampleExecution 2 "hello" "delivery-2").step
      (stateAfter [sampleProvision, sampleExecution 1 "hello" "delivery-1"])).1.accepted.isSome = true := by
    decide +kernel
  obtain ⟨m, hm⟩ := Option.isSome_iff_exists.mp hout
  refine ⟨hout, ((executions_audit_clean _ ?_).2 _ _ _ m rfl hm).mpr (by decide +kernel)⟩
  refine List.forall_mem_cons.mpr ⟨trivial, List.forall_mem_cons.mpr ⟨?_, by simp⟩⟩
  exact (by decide +kernel : Auditable (stateAfter [sampleProvision]) "alice"
    (sampleRequest "hello" "delivery-1"))

/-- A navigation write, and an execution that adopts it: the audit finds no authority. -/
theorem adopted_navigation_write_fails_audit :
    ¬ ∀ (actions : List Action), ∀ e ∈ happenings actions, ∀ participantId request m,
      IsExecution e participantId request → e.out.accepted = some m →
        (verifyExecutionAuditIntegrity e.after participantId request.intent.intentId).valid
          = true := by
  intro h
  have hout : ((sampleExecution 2 "hello" "delivery-1").step
      (stateAfter [sampleProvision, sampleNavigation 1])).1.accepted.isSome = true := by
    decide +kernel
  obtain ⟨m, hm⟩ := Option.isSome_iff_exists.mp hout
  have hvalid := h _ _ (Transition.last_mem_history Action.step Database.initial
    [sampleProvision, sampleNavigation 1] (sampleExecution 2 "hello" "delivery-1")) "alice"
    (sampleRequest "hello" "delivery-1") m rfl hm
  exact absurd hvalid (by decide +kernel)

end Sample

end Blackboard
