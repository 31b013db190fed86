import Blackboard.Proof.Retry

/-!
# A time step is good for one login

A login compares the code with those of three time steps, and the step that matches has to
be above the last one on record. What is on record for a participant changes at an accepted
login, at an enrolment and at a revocation, and nowhere else (`Effect.totpKept`); so from
one enrolment to the next the accepted steps only go up, whatever the clocks say.
-/

namespace Blackboard

open Relational (Table)

/-! ## What is on record -/

/-- The columns a login reads and writes. -/
structure TotpState where
  secret : Option String
  lastStep : Option Int
  failCount : Int
  lockedUntil : Option Int
  deriving DecidableEq, Repr

/-- Nobody has enrolled. -/
def TotpState.fresh : TotpState := ⟨none, none, 0, none⟩

def WebParticipant.totp (p : WebParticipant) : TotpState :=
  ⟨p.totpSecret, p.totpLastStep, p.totpFailCount, p.totpLockedUntil⟩

def totpOf (db : Database) (participantId : String) : Option TotpState :=
  (db.webParticipants.find participantId).map WebParticipant.totp

/-! ## One login -/

section Login

variable [Hmac]

/-- The row whose secret the code is compared with: the participant exists, is active, has
enrolled and is not locked, and the code has the form of one. -/
def comparedRow (participantId code : String) (now : Nat) (db : Database) :
    Option WebParticipant :=
  if (validateParticipantId participantId).isNone ∨ WebAuth.isTotpCode code = false then none
  else
    ((db.webParticipants.find participantId).filter
      fun row => decide (row.status = "active" ∧ row.totpSecret ≠ none)).filter
        fun row => !row.totpLockedUntil.any fun lockedUntil => decide (lockedUntil > toI64 now)

/-- The step whose code was given. -/
def WebParticipant.matchingStep (row : WebParticipant) (code : String) (now : Nat) : Option Nat :=
  WebAuth.matchingTotpStep (row.totpSecret.getD "") code now

/-- The row after an accepted code. -/
def WebParticipant.stepAccepted (step : Nat) (row : WebParticipant) : WebParticipant :=
  { row with totpLastStep := some (toI64 step), totpFailCount := 0, totpLockedUntil := none }

omit [Hmac] in
theorem WebParticipant.participantId_stepAccepted (step : Nat) (row : WebParticipant) :
    (row.stepAccepted step).participantId = row.participantId := rfl

/-- The count of failures that a failure makes of what was found. -/
def WebParticipant.nextFailCount (found : WebParticipant) : Int :=
  min ((if found.totpLockedUntil.isSome then 0 else found.totpFailCount) + 1) i64Max

/-- The row after a code that matched nothing: one more failure, or a lock. -/
def WebParticipant.codeFailed (found : WebParticipant) (now : Nat) (row : WebParticipant) :
    WebParticipant :=
  if found.nextFailCount ≥ WebAuth.totpMaxFailures then
    { row with
      totpFailCount := 0
      totpLockedUntil := some (toI64 (min (now + WebAuth.totpLockSecs) WebAuth.u64Max)) }
  else { row with totpFailCount := found.nextFailCount, totpLockedUntil := none }

omit [Hmac] in
theorem WebParticipant.participantId_codeFailed (found : WebParticipant) (now : Nat)
    (row : WebParticipant) : (found.codeFailed now row).participantId = row.participantId := by
  unfold WebParticipant.codeFailed
  split
  · rfl
  · rfl

variable {participantId code : String} {now : Nat} {db : Database}

omit [Hmac] in
theorem comparedRow_eq_some_iff {row : WebParticipant} :
    comparedRow participantId code now db = some row
      ↔ ((validateParticipantId participantId).isSome ∧ WebAuth.isTotpCode code = true)
        ∧ db.webParticipants.find participantId = some row
        ∧ (row.status = "active" ∧ row.totpSecret ≠ none)
        ∧ ∀ lockedUntil, row.totpLockedUntil = some lockedUntil → lockedUntil ≤ toI64 now := by
  unfold comparedRow
  split
  · rename_i hbad
    simp only [reduceCtorEq, false_iff]
    intro h
    rcases hbad with hbad | hbad
    · rw [Option.isNone_iff_eq_none] at hbad
      exact absurd h.1.1 (by simp [hbad])
    · exact absurd h.1.2 (by simp [hbad])
  · rename_i hgood
    rw [not_or, Bool.not_eq_true, Option.isNone_eq_false_iff, Option.isSome_iff_exists,
      Bool.not_eq_false] at hgood
    obtain ⟨⟨valid, hvalid⟩, hcode⟩ := hgood
    rw [Option.filter_eq_some_iff, Option.filter_eq_some_iff]
    have hunlocked : (row.totpLockedUntil.any fun lockedUntil => decide (lockedUntil > toI64 now))
        = false ↔ ∀ lockedUntil, row.totpLockedUntil = some lockedUntil →
          lockedUntil ≤ toI64 now := by
      cases row.totpLockedUntil with
      | none => simp
      | some lockedUntil => simp
    simp only [hvalid, Option.isSome_some, hcode, true_and, decide_eq_true_eq, Bool.not_eq_true',
      hunlocked, and_assoc]

omit [Hmac] in
theorem updateWebParticipant_congr {set set' : WebParticipant → WebParticipant} {hset hset'}
    (h : set = set') : updateWebParticipant participantId set hset db
      = updateWebParticipant participantId set' hset' db := by
  subst h
  rfl

/-- **Every login**: the code is not compared, matches a step that is used up, is accepted, or
matches nothing. -/
theorem authenticateWebTotp_cases (participantId code : String) (now : Nat) (db : Database) :
    (comparedRow participantId code now db = none
      ∧ authenticateWebTotp participantId code now db = (.ok none, db))
    ∨ ∃ row, comparedRow participantId code now db = some row
      ∧ ((∃ step last, row.matchingStep code now = some step ∧ row.totpLastStep = some last
            ∧ toI64 step ≤ last ∧ authenticateWebTotp participantId code now db = (.ok none, db))
        ∨ (∃ step, row.matchingStep code now = some step
            ∧ (∀ last, row.totpLastStep = some last → last < toI64 step)
            ∧ authenticateWebTotp participantId code now db
              = (.ok (some row.identity),
                updateWebParticipant participantId (WebParticipant.stepAccepted step)
                  (WebParticipant.participantId_stepAccepted step) db))
        ∨ (row.matchingStep code now = none
            ∧ authenticateWebTotp participantId code now db
              = (.ok none, updateWebParticipant participantId (row.codeFailed now)
                  (row.participantId_codeFailed now) db))) := by
  unfold authenticateWebTotp comparedRow
  by_cases hbad : (validateParticipantId participantId).isNone ∨ WebAuth.isTotpCode code = false
  · rw [if_pos hbad, if_pos hbad]
    exact Or.inl ⟨rfl, rfl⟩
  rw [if_neg hbad, if_neg hbad]
  cases (db.webParticipants.find participantId).filter
      fun row => decide (row.status = "active" ∧ row.totpSecret ≠ none) with
  | none => exact Or.inl ⟨rfl, rfl⟩
  | some row =>
      dsimp only
      by_cases hlocked : (row.totpLockedUntil.any
          fun lockedUntil => decide (lockedUntil > toI64 now)) = true
      · rw [if_pos hlocked]
        refine Or.inl ⟨?_, rfl⟩
        simp [Option.filter, hlocked]
      · rw [if_neg hlocked]
        refine Or.inr ⟨row, by simp [Option.filter, hlocked], ?_⟩
        have hmatch : WebAuth.matchingTotpStep (row.totpSecret.getD "") code now
            = row.matchingStep code now := rfl
        rw [hmatch]
        cases hstep : row.matchingStep code now with
        | some step =>
            dsimp only
            cases hlast : row.totpLastStep with
            | none => exact Or.inr (Or.inl ⟨step, rfl, by simp, by simp; rfl⟩)
            | some last =>
                by_cases hused : toI64 step ≤ last
                · exact Or.inl ⟨step, last, rfl, rfl, hused, by simp [hused]⟩
                · refine Or.inr (Or.inl ⟨step, rfl, ?_, ?_⟩)
                  · intro last' hlast'
                    rw [Option.some.injEq] at hlast'
                    omega
                  · simp [hused]
                    rfl
        | none =>
            refine Or.inr (Or.inr ⟨rfl, ?_⟩)
            dsimp only
            have hcount : min ((if row.totpLockedUntil.isSome = true then 0
                else row.totpFailCount) + 1) i64Max = row.nextFailCount := rfl
            rw [hcount]
            by_cases hmany : row.nextFailCount ≥ WebAuth.totpMaxFailures
            · rw [if_pos hmany]
              exact congrArg (Prod.mk _) (updateWebParticipant_congr
                (funext fun _ => (if_pos hmany).symm))
            · rw [if_neg hmany]
              exact congrArg (Prod.mk _) (updateWebParticipant_congr
                (funext fun _ => (if_neg hmany).symm))

/-! ## The steps that are tried -/

theorem matchingStep_mem {secret : Bytes} {code : String} {steps : List Nat} {step : Nat}
    (h : WebAuth.matchingStep secret code steps = some step) : step ∈ steps := by
  induction steps with
  | nil => exact absurd h (by simp [WebAuth.matchingStep])
  | cons candidate rest ih =>
      unfold WebAuth.matchingStep at h
      split at h
      · exact absurd h (by simp)
      · split at h
        · rw [← Option.some.inj h]
          exact List.mem_cons_self
        · exact List.mem_cons_of_mem _ (ih h)

/-- The step that matches is the one of the clock, or next to it. -/
theorem matchingTotpStep_near {secret code : String} {step : Nat}
    (h : WebAuth.matchingTotpStep secret code now = some step) :
    step ≤ now / WebAuth.totpPeriodSecs + 1 ∧ now / WebAuth.totpPeriodSecs ≤ step + 1 := by
  unfold WebAuth.matchingTotpStep at h
  split at h
  · exact absurd h (by simp)
  · split at h
    · exact absurd h (by simp)
    · have hmem := matchingStep_mem h
      rcases List.mem_append.mp hmem with hmem | hmem
      · rcases List.mem_append.mp hmem with hmem | hmem
        · rw [List.mem_singleton] at hmem
          omega
        · split at hmem
          · rw [List.mem_singleton] at hmem
            omega
          · exact absurd hmem List.not_mem_nil
      · split at hmem
        · rw [List.mem_singleton] at hmem
          omega
        · exact absurd hmem List.not_mem_nil

omit [Hmac] in
/-- The steps of a clock of 64 bits fit into 63. -/
theorem toI64_of_near {step : Nat} (hnow : now ≤ WebAuth.u64Max)
    (h : step ≤ now / WebAuth.totpPeriodSecs + 1) : toI64 step = step := by
  unfold WebAuth.u64Max at hnow
  unfold WebAuth.totpPeriodSecs at h
  unfold toI64 i64Max
  omega

end Login

/-! ## What changes the record -/

/-- The record of a participant is the same, or the participant is new. -/
def TotpKept (db db' : Database) (participantId : String) : Prop :=
  totpOf db' participantId = totpOf db participantId
    ∨ totpOf db participantId = none ∧ totpOf db' participantId = some .fresh

section Updates

variable {participantId q : String} {set : WebParticipant → WebParticipant} {db db' : Database}
  {hset : ∀ row, (set row).participantId = row.participantId}

theorem TotpKept.of_eq (h : db'.webParticipants = db.webParticipants) : TotpKept db db' q := by
  refine Or.inl ?_
  unfold totpOf
  rw [h]

theorem find_updateWebParticipant :
    (updateWebParticipant participantId set hset db).webParticipants.find q
      = (db.webParticipants.find q).map fun row => if q = participantId then set row else row := by
  simp only [updateWebParticipant, Table.find_update]
  cases hfind : db.webParticipants.find q with
  | none => rfl
  | some row =>
      have hkey : row.participantId = q := Table.key_of_find hfind
      simp only [Option.map_some, hkey, decide_eq_true_eq]

theorem totpOf_update_of_ne (hne : q ≠ participantId) :
    totpOf (updateWebParticipant participantId set hset db) q = totpOf db q := by
  simp only [totpOf, find_updateWebParticipant, if_neg hne, Option.map_id']

theorem totpOf_update_of_keeps (h : ∀ row, (set row).totp = row.totp) :
    TotpKept db (updateWebParticipant participantId set hset db) q := by
  refine Or.inl ?_
  unfold totpOf
  rw [find_updateWebParticipant]
  cases db.webParticipants.find q with
  | none => rfl
  | some row =>
      by_cases hq : q = participantId
      · simp only [Option.map_some, if_pos hq, h]
      · simp only [Option.map_some, if_neg hq]

theorem provision_totpKept (participantId source : String) (label : Option String) :
    TotpKept db (provisionWebParticipantIdentity participantId source label db).2 q := by
  unfold provisionWebParticipantIdentity
  split
  · rename_i id source label _ _ _
    split
    · exact .of_eq rfl
    · split
      · exact .of_eq rfl
      · rename_i webParticipants hinsert
        obtain ⟨hnone, -, hfind⟩ := Table.of_tryInsert hinsert
        have hkey : (newWebParticipant id source label).participantId = id := rfl
        have hfindq := hfind q
        rw [hkey] at hnone hfindq
        by_cases hq : id = q
        · refine Or.inr ⟨?_, ?_⟩
          · unfold totpOf
            rw [← hq, hnone]
            rfl
          · unfold totpOf
            rw [hfindq, if_pos hq]
            rfl
        · refine Or.inl ?_
          unfold totpOf
          rw [hfindq, if_neg hq]
  · exact .of_eq rfl

theorem ParticipantOp.totpKept (op : ParticipantOp) (db : Database) (q : String) :
    TotpKept db (op.apply db) q := by
  cases op with
  | provision participantId source label => exact provision_totpKept participantId source label
  | setRole participantId role =>
      simp only [ParticipantOp.apply, setWebParticipantRole]
      split
      · exact .of_eq rfl
      · exact totpOf_update_of_keeps fun _ => rfl
  | setStatus participantId status =>
      simp only [ParticipantOp.apply, setWebParticipantStatus]
      split
      · exact .of_eq rfl
      · exact totpOf_update_of_keeps fun _ => rfl
  | setOwner participantId provider subject login =>
      simp only [ParticipantOp.apply, setParticipantOwner]
      split
      · exact .of_eq rfl
      · exact totpOf_update_of_keeps fun _ => rfl
  | clearOwner participantId =>
      simp only [ParticipantOp.apply, clearParticipantOwner]
      split
      · exact .of_eq rfl
      · exact totpOf_update_of_keeps fun _ => rfl

end Updates

section Effects

variable [Sha256] [Hmac] [Base64Url]

/-- An enrolment or a revocation of this participant that went through. -/
def CredentialOp.Resets (q : String) (db : Database) : CredentialOp → Prop
  | setTotp participantId secret =>
      participantId = q ∧ (setWebParticipantTotp participantId secret db).1 = .ok true
  | revokeTotp participantId =>
      participantId = q ∧ (revokeWebParticipantTotp participantId db).1 = .ok true
  | _ => False

def Effect.Resets (q : String) (w : World) : Effect → Prop
  | credential op => op.Resets q w.db
  | _ => False

theorem CredentialOp.totpKept {op : CredentialOp} {db : Database} {q : String}
    (h : ¬ op.Resets q db) : TotpKept db (op.apply db) q := by
  cases op with
  | setTotp participantId secret =>
      simp only [CredentialOp.Resets, CredentialOp.apply, setWebParticipantTotp] at h ⊢
      split
      · exact .of_eq rfl
      · rename_i hvalid
        rw [if_neg hvalid] at h
        by_cases hq : participantId = q
        · -- an enrolment of nobody
          have hnone : db.webParticipants.find q = none := by
            by_contra hsome
            refine h ⟨hq, congrArg Except.ok ?_⟩
            rw [hq]
            exact Option.isSome_iff_ne_none.mpr hsome
          refine Or.inl ?_
          unfold totpOf
          rw [find_updateWebParticipant, hnone]
          rfl
        · exact Or.inl (totpOf_update_of_ne fun heq => hq heq.symm)
  | revokeTotp participantId =>
      simp only [CredentialOp.Resets, CredentialOp.apply, revokeWebParticipantTotp] at h ⊢
      split
      · exact .of_eq rfl
      · rename_i hvalid
        rw [if_neg hvalid] at h
        by_cases hq : participantId = q
        · -- a revocation of nothing
          refine Or.inl ?_
          unfold totpOf
          rw [find_updateWebParticipant]
          cases hfind : db.webParticipants.find q with
          | none => rfl
          | some row =>
              have hsecret : ¬ row.totpSecret.isSome = true := by
                intro hsome
                refine h ⟨hq, congrArg Except.ok ?_⟩
                rw [hq, hfind]
                exact hsome
              simp only [Option.map_some, if_pos hq.symm, if_neg hsecret]
        · exact Or.inl (totpOf_update_of_ne fun heq => hq heq.symm)
  | setAuthSecret participantId secret =>
      simp only [CredentialOp.apply, setWebParticipantAuthSecret]
      split
      · exact .of_eq rfl
      · exact totpOf_update_of_keeps fun _ => rfl
  | revokeAuth participantId =>
      simp only [CredentialOp.apply, revokeWebParticipantAuth]
      split
      · exact .of_eq rfl
      · refine totpOf_update_of_keeps fun row => ?_
        split
        · rfl
        · rfl
  | register source label inst token =>
      simp only [CredentialOp.apply, registerIdentity]
      split
      · split
        · exact .of_eq rfl
        · exact .of_eq rfl
      · exact .of_eq rfl
  | rotateToken inst token => exact .of_eq rfl
  | revokeToken inst => exact .of_eq rfl

omit [Sha256] [Base64Url] in
/-- A login leaves the record of everybody else alone. -/
theorem login_totpOf {participantId q : String} (code : String) (now : Nat) (db : Database)
    (hne : q ≠ participantId) :
    totpOf (authenticateWebTotp participantId code now db).2 q = totpOf db q := by
  rcases authenticateWebTotp_cases participantId code now db with
    ⟨-, h⟩ | ⟨row, -, ⟨_, _, -, -, -, h⟩ | ⟨step, -, -, h⟩ | ⟨-, h⟩⟩
  · rw [h]
  · rw [h]
  · rw [h]
    exact totpOf_update_of_ne hne
  · rw [h]
    exact totpOf_update_of_ne hne

/-- **The record of a participant changes at its logins, enrolments and revocations.** -/
theorem Effect.totpKept (e : Effect) (w : World) (q : String) (hreset : ¬ e.Resets q w)
    (hlogin : ∀ code now, e ≠ .login q code now) : TotpKept w.db (e.apply w).db q := by
  rcases e.cases_participants w with
    hsame | ⟨participantId, code, now, rfl⟩ | ⟨op, rfl⟩ | ⟨op, rfl⟩
  · exact .of_eq hsame
  · by_cases hq : q = participantId
    · rw [hq] at hlogin
      exact absurd rfl (hlogin code now)
    · exact Or.inl (login_totpOf code now w.db hq)
  · exact op.totpKept w.db q
  · exact CredentialOp.totpKept hreset

/-! ## Runs -/

/-- What a login is answered. The other effects have no answer of this kind. -/
def Effect.loginAnswer : Effect → World → Option (Except SqlError (Option Identity))
  | .login participantId code now, w => some (authenticateWebTotp participantId code now w.db).1
  | _, _ => none

def Effect.loginStep (e : Effect) (w : World) :
    Option (Except SqlError (Option Identity)) × World := (e.loginAnswer w, e.apply w)

abbrev Visit := Transition.Event World Effect (Option (Except SqlError (Option Identity)))

/-- What happens from some store on, with the answers to the logins. -/
def visits (start : World) (effects : List Effect) : List Visit :=
  Transition.history Effect.loginStep start effects

omit [Sha256] [Base64Url] in
/-- A login of the participant was accepted, for the code of this time step. -/
def Accepts (participantId : String) (step : Nat) (e : Visit) : Prop :=
  ∃ code now row identity, e.act = .login participantId code now
    ∧ e.out = some (.ok (some identity))
    ∧ e.before.db.webParticipants.find participantId = some row
    ∧ row.matchingStep code now = some step

/-- A login was not accepted. -/
def Rejects (e : Visit) : Prop :=
  (∃ participantId code now, e.act = .login participantId code now)
    ∧ ∀ identity, e.out ≠ some (.ok (some identity))

/-- The clock of a login is a number of 64 bits. -/
def Effect.ClockFits : Effect → Prop
  | login _ _ now => now ≤ WebAuth.u64Max
  | _ => True

omit [Sha256] [Hmac] [Base64Url] in
/-- The last accepted step on record. -/
def lastStepOf (db : Database) (participantId : String) : Option (Option Int) :=
  (totpOf db participantId).map TotpState.lastStep

variable {start : World} {effects : List Effect} {p : String}

/-- **An accepted login**: its step is above the one on record, and takes its place. -/
theorem Accepts.record {e : Visit} (he : e ∈ visits start effects) (hfits : e.act.ClockFits)
    {step : Nat} (h : Accepts p step e) :
    (∀ last, lastStepOf e.before.db p = some (some last) → last < step)
      ∧ lastStepOf e.after.db p = some (some (step : Int)) := by
  obtain ⟨code, now, row, identity, hact, hout, hrow, hstep⟩ := h
  have hevent := Transition.step_of_mem he
  rw [hact] at hevent hfits
  have hanswer : (authenticateWebTotp p code now e.before.db).1 = .ok (some identity) := by
    have h := congrArg Prod.fst hevent
    rw [hout] at h
    exact Option.some.inj h
  have hafter : e.after.db = (authenticateWebTotp p code now e.before.db).2 :=
    congrArg (fun s => s.2.db) hevent.symm
  rcases authenticateWebTotp_cases p code now e.before.db with
    ⟨-, h⟩ | ⟨found, hfound, ⟨_, _, -, -, -, h⟩ | ⟨step', hstep', hlast, h⟩ | ⟨-, h⟩⟩
  · rw [h] at hanswer
    exact absurd hanswer (by simp)
  · rw [h] at hanswer
    exact absurd hanswer (by simp)
  · have hrow' := (comparedRow_eq_some_iff.mp hfound).2.1
    rw [hrow, Option.some.injEq] at hrow'
    rw [hrow', hstep', Option.some.injEq] at hstep
    have hi64 : toI64 step' = step := by
      rw [← hstep]
      exact toI64_of_near hfits (matchingTotpStep_near hstep').1
    constructor
    · intro last hrecord
      simp only [lastStepOf, totpOf, hrow, Option.map_some, Option.some.injEq,
        WebParticipant.totp] at hrecord
      rw [← hi64]
      exact hlast last (hrow' ▸ hrecord)
    · rw [hafter, h]
      simp only [lastStepOf, totpOf, find_updateWebParticipant, hrow, Option.map_some, if_true,
        WebParticipant.totp, WebParticipant.stepAccepted, hi64]
  · rw [h] at hanswer
    exact absurd hanswer (by simp)

omit [Sha256] [Base64Url] in
/-- A login never lowers the step on record, and a rejected one does not touch it. -/
theorem login_lastStep (code : String) (now : Nat) (db : Database) :
    lastStepOf (authenticateWebTotp p code now db).2 p = lastStepOf db p
      ∨ (∃ identity, (authenticateWebTotp p code now db).1 = .ok (some identity))
        ∧ ∃ new, lastStepOf (authenticateWebTotp p code now db).2 p = some (some new)
          ∧ ∀ last, lastStepOf db p = some (some last) → last < new := by
  rcases authenticateWebTotp_cases p code now db with
    ⟨-, h⟩ | ⟨row, hrow, ⟨_, _, -, -, -, h⟩ | ⟨step, -, hlast, h⟩ | ⟨-, h⟩⟩
  · exact Or.inl (by rw [h])
  · exact Or.inl (by rw [h])
  · have hfind := (comparedRow_eq_some_iff.mp hrow).2.1
    refine Or.inr ⟨⟨row.identity, by rw [h]⟩, toI64 step, ?_, ?_⟩
    · rw [h]
      simp only [lastStepOf, totpOf, find_updateWebParticipant, hfind, Option.map_some, if_true,
        WebParticipant.totp, WebParticipant.stepAccepted]
    · intro last hrecord
      simp only [lastStepOf, totpOf, hfind, Option.map_some, Option.some.injEq,
        WebParticipant.totp] at hrecord
      exact hlast last hrecord
  · refine Or.inl ?_
    have hfind := (comparedRow_eq_some_iff.mp hrow).2.1
    have hkeep : (row.codeFailed now row).totpLastStep = row.totpLastStep := by
      unfold WebParticipant.codeFailed
      split
      · rfl
      · rfl
    rw [h]
    simp only [lastStepOf, totpOf, find_updateWebParticipant, hfind, Option.map_some, if_true,
      WebParticipant.totp, hkeep]

/-- Between enrolments and revocations the step on record does not go down. -/
theorem lastStep_mono {w : World} {a : Effect} (hreset : ¬ a.Resets p w) {last : Int}
    (h : lastStepOf w.db p = some (some last)) :
    ∃ new, lastStepOf (a.apply w).db p = some (some new) ∧ last ≤ new := by
  by_cases hlogin : ∃ code now, a = .login p code now
  · obtain ⟨code, now, rfl⟩ := hlogin
    rcases login_lastStep code now w.db with hsame | ⟨-, new, hnew, hlt⟩
    · exact ⟨last, hsame.trans h, Int.le_refl last⟩
    · exact ⟨new, hnew, Int.le_of_lt (hlt last h)⟩
  · have hother : ∀ code now, a ≠ .login p code now := fun code now heq =>
      hlogin ⟨code, now, heq⟩
    rcases a.totpKept w p hreset hother with hsame | ⟨hnone, -⟩
    · refine ⟨last, ?_, Int.le_refl last⟩
      unfold lastStepOf
      rw [hsame]
      exact h
    · unfold lastStepOf at h
      rw [hnone] at h
      exact absurd h (by simp)

/-- What becomes of the time steps of a stretch of logins and whatever else. -/
structure StepsUsedOnce (start : World) (effects : List Effect) : Prop where
  /-- As long as a participant is not enrolled anew or revoked, its accepted steps go up. -/
  increasing : ∀ p, (∀ e ∈ visits start effects, ¬ e.act.Resets p e.before) →
    (visits start effects).Pairwise fun e e' =>
      ∀ step step', Accepts p step e → Accepts p step' e' → step < step'
  /-- An accepted step is the one of the clock, or next to it. -/
  near : ∀ e ∈ visits start effects, ∀ p code now step, e.act = .login p code now →
    Accepts p step e → step ≤ now / WebAuth.totpPeriodSecs + 1
      ∧ now / WebAuth.totpPeriodSecs ≤ step + 1
  /-- A rejected login leaves every step on record as it is. -/
  rejected : ∀ e ∈ visits start effects, Rejects e →
    ∀ q, lastStepOf e.after.db q = lastStepOf e.before.db q

end Effects

/-! ## Three logins -/

section Sample

/-- The codes of the first steps under the secret of Alice. -/
@[reducible] def totpSampleHmac : Hmac where
  sha256 _ _ := []
  sha1 key message :=
    if key = Text.utf8 "12345678901234567890" then
      ([(0, [204, 147, 207, 24, 80, 141, 148, 147, 76, 100, 182, 93, 139, 167, 102, 127, 183, 205,
          228, 176]),
        (1, [117, 164, 138, 25, 212, 203, 225, 0, 100, 78, 138, 193, 57, 126, 234, 116, 122, 45,
          51, 171]),
        (2, [11, 172, 183, 250, 8, 47, 239, 48, 120, 34, 17, 147, 139, 193, 197, 231, 4, 22, 255,
          68]),
        (3, [102, 194, 130, 39, 208, 58, 45, 85, 41, 38, 47, 240, 22, 161, 230, 239, 118, 85, 126,
          206])].find? fun row => decide (WebAuth.toBeBytes row.1 = message)).elim [] Prod.snd
    else []

attribute [local instance] sampleSha256 totpSampleHmac sampleBase64Url

/-- Alice has enrolled. -/
def enrolledWorld : World :=
  Transition.run Effect.loginStep (.new 0)
    [.participant (.provision "alice" "chatgpt" none),
      .credential (.setTotp "alice" "GEZDGNBVGY3TQOJQGEZDGNBVGY3TQOJQ")]

end Sample

end Blackboard
