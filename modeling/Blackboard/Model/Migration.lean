import Blackboard.Model.Audit

/-!
# The migration of the execution tables (`execution.rs`)

The tables of executions have grown columns. A database file may have been written before a
table or one of these columns existed; `migrateExecutionSchema` brings it up to date at
every start.

A file without `navigation_writes` or `delegated_grants` verifies like one where they are
empty, so only the three tables the migration touches can be missing here.
-/

namespace Blackboard

open Relational (Table orderBy)

inductive ExecutionTable where
  | ingressProvenance
  | executionReceipts
  | executionAuthorizationProvenance
  deriving DecidableEq, Repr

/-- The columns that came later than their tables. -/
inductive AddedColumn where
  | participantId
  | principalProvider
  | principalSubject
  | capability
  | resource
  deriving DecidableEq, Repr

def AddedColumn.table : AddedColumn → ExecutionTable
  | .participantId => .ingressProvenance
  | _ => .executionAuthorizationProvenance

/-- The added columns of a provenance row. -/
def Provenance.column (a : Provenance) : AddedColumn → Option String
  | .participantId => none
  | .principalProvider => a.principalProvider
  | .principalSubject => a.principalSubject
  | .capability => a.capability
  | .resource => a.resource

/-- A database file of any age. A table that is not there has no rows, a column that is not
there no values. -/
@[ext]
structure StoredDatabase where
  hasTable : ExecutionTable → Bool
  hasColumn : AddedColumn → Bool
  content : Database
  noIngress : hasTable .ingressProvenance = false → content.ingress = .empty
  noReceipts : hasTable .executionReceipts = false → content.receipts = .empty
  noProvenance : hasTable .executionAuthorizationProvenance = false → content.provenance = .empty
  noParticipantId : hasColumn .participantId = false →
    ∀ i ∈ content.ingress, i.participantId = none
  noColumn : ∀ c, hasColumn c = false → ∀ a ∈ content.provenance, a.column c = none

namespace StoredDatabase

/-- `CREATE TABLE IF NOT EXISTS`: a table that is created has all its columns. -/
def createTables (s : StoredDatabase) : StoredDatabase where
  hasTable _ := true
  hasColumn c := s.hasColumn c || !s.hasTable c.table
  content := s.content
  noIngress := nofun
  noReceipts := nofun
  noProvenance := nofun
  noParticipantId h := s.noParticipantId (Bool.or_eq_false_iff.mp h).1
  noColumn c h := s.noColumn c (Bool.or_eq_false_iff.mp h).1

/-- `ALTER TABLE .. ADD COLUMN`, unless the column is there. -/
def addColumn (column : AddedColumn) (s : StoredDatabase) : StoredDatabase :=
  if s.hasColumn column then s
  else
    { s with
      hasColumn := fun c => s.hasColumn c || decide (c = column)
      noParticipantId := fun h => s.noParticipantId (Bool.or_eq_false_iff.mp h).1
      noColumn := fun c h => s.noColumn c (Bool.or_eq_false_iff.mp h).1 }

end StoredDatabase

/-! ## The back-fills -/

/-- `(SELECT er.capability ..)`: the capability of the receipt of the intent. -/
def receiptCapability (db : Database) (a : Provenance) : Option String :=
  (db.receipts.find a.pair).map ExecutionReceipt.capability

/-- `(SELECT er.participant_id .. WHERE er.intent_id = ..)`. -/
def receiptParticipants (db : Database) (intentId : String) : List String :=
  (db.receipts.rows.filter fun r => decide (r.intentId = intentId)).map
    ExecutionReceipt.participantId

/-- `MIN(er.participant_id)`. -/
def minParticipant (db : Database) (intentId : String) : Option String :=
  (orderBy (fun a b : String => a ≤ b) (receiptParticipants db intentId)).head?

/-- `COUNT(DISTINCT er.participant_id)`. -/
def distinctParticipants (db : Database) (intentId : String) : Nat :=
  (receiptParticipants db intentId).dedup.length

def backfillCapability (db : Database) : Database :=
  { db with
    provenance := db.provenance.update
      (fun a => a.capability.isNone && (db.receipts.find a.pair).isSome)
      (fun a => { a with capability := receiptCapability db a }) fun _ => rfl }

def backfillParticipantId (db : Database) : Database :=
  { db with
    ingress := db.ingress.update
      (fun i => i.participantId.isNone && decide (1 = distinctParticipants db i.intentId))
      (fun i => { i with participantId := minParticipant db i.intentId }) fun _ => rfl }

/-- The migration of a file whose tables and columns are all there. -/
def StoredDatabase.backfill (s : StoredDatabase) (ht : ∀ t, s.hasTable t = true)
    (hc : ∀ c, s.hasColumn c = true) : StoredDatabase where
  hasTable := s.hasTable
  hasColumn := s.hasColumn
  content := backfillParticipantId (backfillCapability s.content)
  noIngress h := absurd h (by simp [ht])
  noReceipts h := absurd h (by simp [ht])
  noProvenance h := absurd h (by simp [ht])
  noParticipantId h := absurd h (by simp [hc])
  noColumn c h := absurd h (by simp [hc])

namespace StoredDatabase

def addColumns (s : StoredDatabase) : StoredDatabase :=
  [AddedColumn.principalProvider, .principalSubject, .capability, .resource].foldl
    (fun s c => s.addColumn c) (s.addColumn .participantId)

@[simp] theorem hasTable_addColumn (s : StoredDatabase) (c : AddedColumn) (t : ExecutionTable) :
    (s.addColumn c).hasTable t = s.hasTable t := by
  unfold addColumn
  split
  · rfl
  · rfl

@[simp] theorem content_addColumn (s : StoredDatabase) (c : AddedColumn) :
    (s.addColumn c).content = s.content := by
  unfold addColumn
  split
  · rfl
  · rfl

theorem hasColumn_addColumn (s : StoredDatabase) (column c : AddedColumn) :
    (s.addColumn column).hasColumn c = (s.hasColumn c || decide (c = column)) := by
  unfold addColumn
  split
  · rename_i h
    by_cases heq : c = column
    · simp [heq, h]
    · simp [heq]
  · rfl

theorem hasColumn_addColumns (s : StoredDatabase) (c : AddedColumn) :
    s.addColumns.hasColumn c = true := by
  simp only [addColumns, List.foldl_cons, List.foldl_nil, hasColumn_addColumn]
  cases c <;> simp

end StoredDatabase

def migrateExecutionSchema (s : StoredDatabase) : StoredDatabase :=
  s.createTables.addColumns.backfill
    (fun t => by simp [StoredDatabase.addColumns, StoredDatabase.createTables])
    (fun c => s.createTables.hasColumn_addColumns c)

/-! ## Reading a file of any age -/

def executionSchemaCurrent (s : StoredDatabase) : Bool :=
  s.hasTable .executionReceipts
    && (s.hasTable .ingressProvenance && s.hasColumn .participantId)
    && s.hasTable .executionAuthorizationProvenance
    && [AddedColumn.principalProvider, .principalSubject, .capability, .resource].all s.hasColumn

/-- The verifier on a file of any age. It asks for the receipt first, and reads every table and
column when there is one; it fails, with `none`, at the first that is not there. -/
def StoredDatabase.verify [Sha256] (s : StoredDatabase) (participantId intentId : String) :
    Option ExecutionAuditIntegrityReport :=
  if s.hasTable .executionReceipts then
    match getExecutionReceipt s.content participantId intentId with
    | none => some (verifyExecutionAuditIntegrity s.content participantId intentId)
    | some _ =>
        if executionSchemaCurrent s then
          some (verifyExecutionAuditIntegrity s.content participantId intentId)
        else none
  else none

end Blackboard
