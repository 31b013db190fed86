import Blackboard.Proof.Totp

/-!
# Guessing codes is slow

Five codes that match nothing lock a participant for a minute; while it is locked no code
is looked at. So among six codes in a row that were looked at and matched nothing, some
lock lies in between, and it has run out before the sixth (`spaced_from`). A lock that has
run out starts the count anew, which is why the count never gets past four
(`countsFit_step`).
-/

namespace Blackboard

open Relational (Table)

/-- Every count of failures is below the one that locks. -/
def CountsFit (db : Database) : Prop :=
  ∀ p t, totpOf db p = some t → 0 ≤ t.failCount ∧ t.failCount ≤ 4

theorem countFits_zero : (0 : Int) ≤ 0 ∧ (0 : Int) ≤ 4 := ⟨Int.le_refl 0, by decide⟩

theorem countsFit_initial : CountsFit Database.initial := by
  intro p t ht
  exact absurd ht (by simp [totpOf, Database.initial])

section Throttle

variable [Sha256] [Hmac] [Base64Url] {p code : String} {now : Nat} {db : Database}

/-! ## One failure -/

omit [Sha256] [Hmac] [Base64Url] in
theorem totpOf_of_find {row : WebParticipant} (h : db.webParticipants.find p = some row) :
    totpOf db p = some row.totp := by
  rw [totpOf, h]
  rfl

omit [Sha256] [Base64Url] in
/-- The record of a participant after a code that matched nothing. -/
theorem totpOf_codeFailed {row : WebParticipant} (h : comparedRow p code now db = some row)
    (hmatch : row.matchingStep code now = none) :
    totpOf (authenticateWebTotp p code now db).2 p = some (row.codeFailed now row).totp := by
  have hfind := (comparedRow_eq_some_iff.mp h).2.1
  rcases authenticateWebTotp_cases p code now db with
    ⟨hno, -⟩ | ⟨row', hrow', hcases⟩
  · rw [hno] at h
    exact absurd h (by simp)
  · have heq : row' = row := Option.some.inj (hrow'.symm.trans h)
    subst heq
    rcases hcases with ⟨_, _, hstep, -, -, -⟩ | ⟨_, hstep, -, -⟩ | ⟨-, hdb⟩
    · exact absurd (hmatch.symm.trans hstep) (by simp)
    · exact absurd (hmatch.symm.trans hstep) (by simp)
    · rw [hdb, totpOf, find_updateWebParticipant, hfind, Option.map_some, if_pos rfl]
      rfl

omit [Sha256] [Hmac] [Base64Url] in
/-- One failure more, or a lock of a minute. -/
theorem codeFailed_totp {row : WebParticipant} (hcount : row.totpFailCount ≤ 4)
    (hclock : (now : Int) ≤ i64Max - 60) :
    (row.codeFailed now row).totp.lockedUntil = some ((now : Int) + 60)
        ∧ (row.codeFailed now row).totp.failCount = 0
      ∨ (row.codeFailed now row).totp.lockedUntil = none
        ∧ (row.codeFailed now row).totp.failCount
          = (if row.totpLockedUntil.isSome then 0 else row.totpFailCount) + 1
        ∧ (row.codeFailed now row).totp.failCount ≤ 4 := by
  have hnext : row.nextFailCount
      = (if row.totpLockedUntil.isSome then 0 else row.totpFailCount) + 1 := by
    unfold WebParticipant.nextFailCount i64Max
    split
    · omega
    · omega
  unfold WebParticipant.codeFailed
  by_cases hmany : row.nextFailCount ≥ WebAuth.totpMaxFailures
  · rw [if_pos hmany]
    refine Or.inl ⟨?_, rfl⟩
    simp only [WebParticipant.totp, Option.some.injEq]
    unfold i64Max at hclock
    unfold toI64 WebAuth.totpLockSecs WebAuth.u64Max i64Max
    omega
  · rw [if_neg hmany]
    refine Or.inr ⟨rfl, hnext, ?_⟩
    unfold WebAuth.totpMaxFailures at hmany
    simp only [WebParticipant.totp]
    omega

omit [Sha256] [Hmac] [Base64Url] in
/-- Whatever the clock, the count stays below the one that locks. -/
theorem codeFailed_count {row : WebParticipant} (hcount : 0 ≤ row.totpFailCount) :
    0 ≤ (row.codeFailed now row).totpFailCount ∧ (row.codeFailed now row).totpFailCount ≤ 4 := by
  have hnext : 0 ≤ row.nextFailCount := by
    unfold WebParticipant.nextFailCount i64Max
    split
    · omega
    · omega
  unfold WebParticipant.codeFailed
  by_cases hmany : row.nextFailCount ≥ WebAuth.totpMaxFailures
  · rw [if_pos hmany]
    exact countFits_zero
  · rw [if_neg hmany]
    unfold WebAuth.totpMaxFailures at hmany
    refine ⟨hnext, ?_⟩
    show row.nextFailCount ≤ 4
    omega

/-! ## The count -/

/-- An enrolment or a revocation clears the record. -/
theorem CredentialOp.totp_cases (op : CredentialOp) (db : Database) (q : String) :
    TotpKept db (op.apply db) q
      ∨ ∃ secret, totpOf (op.apply db) q = some ⟨secret, none, 0, none⟩ := by
  by_cases hreset : op.Resets q db
  · cases op with
    | setTotp participantId secret =>
        simp only [CredentialOp.apply, setWebParticipantTotp]
        split
        · exact Or.inl (.of_eq rfl)
        · by_cases hq : q = participantId
          · cases hfind : db.webParticipants.find q with
            | none =>
                refine Or.inl (Or.inl ?_)
                rw [totpOf, find_updateWebParticipant, totpOf, hfind]
                rfl
            | some row =>
                refine Or.inr ⟨some secret, ?_⟩
                rw [totpOf, find_updateWebParticipant, hfind, Option.map_some, if_pos hq]
                rfl
          · exact Or.inl (Or.inl (totpOf_update_of_ne hq))
    | revokeTotp participantId =>
        simp only [CredentialOp.apply, revokeWebParticipantTotp]
        split
        · exact Or.inl (.of_eq rfl)
        · by_cases hq : q = participantId
          · cases hfind : db.webParticipants.find q with
            | none =>
                refine Or.inl (Or.inl ?_)
                rw [totpOf, find_updateWebParticipant, totpOf, hfind]
                rfl
            | some row =>
                by_cases hsecret : row.totpSecret.isSome = true
                · refine Or.inr ⟨none, ?_⟩
                  rw [totpOf, find_updateWebParticipant, hfind, Option.map_some, if_pos hq,
                    if_pos hsecret]
                  rfl
                · refine Or.inl (Or.inl ?_)
                  rw [totpOf, find_updateWebParticipant, totpOf, hfind, Option.map_some,
                    if_pos hq, if_neg hsecret]
          · exact Or.inl (Or.inl (totpOf_update_of_ne hq))
    | setAuthSecret participantId secret => exact hreset.elim
    | revokeAuth participantId => exact hreset.elim
    | register source label inst token => exact hreset.elim
    | rotateToken inst token => exact hreset.elim
    | revokeToken inst => exact hreset.elim
  · exact Or.inl (CredentialOp.totpKept hreset)

omit [Sha256] [Base64Url] in
theorem login_countsFit (h : CountsFit db) (code : String) (now : Nat) :
    CountsFit (authenticateWebTotp p code now db).2 := by
  intro q t ht
  by_cases hq : q = p
  · subst hq
    rcases authenticateWebTotp_cases q code now db with
      ⟨-, hdb⟩ | ⟨row, hrow, ⟨_, _, -, -, -, hdb⟩ | ⟨step, -, -, hdb⟩ | ⟨-, hdb⟩⟩
    · rw [hdb] at ht
      exact h q t ht
    · rw [hdb] at ht
      exact h q t ht
    · have hfind := (comparedRow_eq_some_iff.mp hrow).2.1
      rw [hdb, totpOf, find_updateWebParticipant, hfind, Option.map_some, Option.map_some,
        if_pos rfl, Option.some.injEq] at ht
      rw [← ht]
      exact countFits_zero
    · have hfind := (comparedRow_eq_some_iff.mp hrow).2.1
      rw [hdb, totpOf, find_updateWebParticipant, hfind, Option.map_some, Option.map_some,
        if_pos rfl, Option.some.injEq] at ht
      rw [← ht]
      exact codeFailed_count (h q row.totp (totpOf_of_find hfind)).1
  · rw [login_totpOf code now db hq] at ht
    exact h q t ht

/-- **Every effect keeps the counts below five.** -/
theorem countsFit_step (w : World) (a : Effect) (h : CountsFit w.db) :
    CountsFit (a.apply w).db := by
  have hkept : ∀ q t, TotpKept w.db (a.apply w).db q → totpOf (a.apply w).db q = some t →
      0 ≤ t.failCount ∧ t.failCount ≤ 4 := by
    intro q t hk ht
    rcases hk with hsame | ⟨-, hfresh⟩
    · exact h q t (hsame ▸ ht)
    · rw [hfresh, Option.some.injEq] at ht
      rw [← ht]
      exact countFits_zero
  intro q t ht
  by_cases hlogin : ∃ r code now, a = .login r code now
  · obtain ⟨r, code, now, rfl⟩ := hlogin
    exact login_countsFit h code now q t ht
  · have hother : ∀ code now, a ≠ .login q code now := fun code now heq =>
      hlogin ⟨q, code, now, heq⟩
    by_cases hreset : a.Resets q w
    · cases a with
      | credential op =>
          rcases op.totp_cases w.db q with hk | ⟨secret, hclear⟩
          · exact hkept q t hk ht
          · rw [show totpOf (Effect.apply (.credential op) w).db q = _ from hclear,
              Option.some.injEq] at ht
            rw [← ht]
            exact countFits_zero
      | _ => exact hreset.elim
    · exact hkept q t (a.totpKept w q hreset hother) ht

theorem countsFit_run {w : World} (h : CountsFit w.db) (effects : List Effect) :
    CountsFit (Transition.run Effect.loginStep w effects).db :=
  Transition.inv_run (I := fun w : World => CountsFit w.db) (G := fun _ _ => True)
    (fun w a hc _ => countsFit_step w a hc) h fun _ _ => trivial

/-! ## Six failures -/

/-- The clock of a login. -/
def Effect.loginClock : Effect → Option Nat
  | login _ _ now => some now
  | _ => none

/-- A code of this participant was looked at, and matched nothing. -/
def mismatches (p : String) (e : Visit) : Bool :=
  match e.act with
  | .login q code now =>
      decide (q = p) && (comparedRow q code now e.before.db).any
        fun row => (row.matchingStep code now).isNone
  | _ => false

/-- When a login happened. -/
def Visit.clock (e : Visit) : Nat := e.act.loginClock.getD 0

/-- The participant logged in, was enrolled anew or was revoked. -/
def Interrupts (p : String) (e : Visit) : Prop :=
  (∃ code now identity, e.act = .login p code now ∧ e.out = some (.ok (some identity)))
    ∨ e.act.Resets p e.before

omit [Sha256] [Base64Url] in
theorem mismatches_login {w w' : World} {out : Option (Except SqlError (Option Identity))} :
    mismatches p ⟨w, .login p code now, out, w'⟩
      = (comparedRow p code now w.db).any fun row => (row.matchingStep code now).isNone := by
  simp only [mismatches, decide_true, Bool.true_and]

omit [Sha256] [Base64Url] in
theorem mismatches_iff {e : Visit} :
    mismatches p e = true ↔ ∃ code now row, e.act = .login p code now
      ∧ comparedRow p code now e.before.db = some row ∧ row.matchingStep code now = none := by
  unfold mismatches
  constructor
  · intro h
    split at h
    · rename_i q code now hact
      rw [Bool.and_eq_true, decide_eq_true_eq] at h
      obtain ⟨hq, hany⟩ := h
      subst hq
      cases hrow : comparedRow q code now e.before.db with
      | none =>
          rw [hrow] at hany
          exact absurd hany (by simp)
      | some row =>
          rw [hrow, Option.any_some, Option.isNone_iff_eq_none] at hany
          exact ⟨code, now, row, hact, hrow, hany⟩
    · exact absurd h (by simp)
  · intro h
    obtain ⟨code, now, row, hact, hrow, hnone⟩ := h
    simp only [hact, hrow, hnone, decide_true, Option.any_some, Option.isNone_none, Bool.and_self]

/-- After `k` failures, the first of them at `first`: either a minute has passed, or a lock that
lasts so long is in place, or the count says so. -/
def Guessed (p : String) (first k since : Nat) (db : Database) : Prop :=
  first + 60 ≤ since
    ∨ ∃ t, totpOf db p = some t
      ∧ ((∃ lockedUntil : Int, t.lockedUntil = some lockedUntil ∧ (first : Int) + 60 ≤ lockedUntil)
        ∨ t.lockedUntil = none ∧ (k : Int) ≤ t.failCount)

omit [Sha256] [Base64Url] in
/-- A failure counts, or locks, or comes late. -/
theorem Guessed.failed {row : WebParticipant} {first k since : Nat} (h : Guessed p first k since db)
    (hc : CountsFit db) (hrow : comparedRow p code now db = some row)
    (hmatch : row.matchingStep code now = none) (hfirst : first ≤ now) (hsince : since ≤ now)
    (hclock : (now : Int) ≤ i64Max - 60) :
    Guessed p first (k + 1) now (authenticateWebTotp p code now db).2 := by
  obtain ⟨-, hfind, -, hunlocked⟩ := comparedRow_eq_some_iff.mp hrow
  have hcount := hc p row.totp (totpOf_of_find hfind)
  rcases h with hlate | ⟨t, ht, hlock | ⟨hnone, hk⟩⟩
  · exact Or.inl (by omega)
  · -- the lock was in place, and had run out
    rw [totpOf_of_find hfind, Option.some.injEq] at ht
    obtain ⟨lockedUntil, hlocked, hlong⟩ := hlock
    rw [← ht] at hlocked
    have hout := hunlocked lockedUntil hlocked
    unfold i64Max at hclock
    unfold toI64 i64Max at hout
    exact Or.inl (by omega)
  · rw [totpOf_of_find hfind, Option.some.injEq] at ht
    rw [← ht] at hnone hk
    refine Or.inr ⟨_, totpOf_codeFailed hrow hmatch, ?_⟩
    have hisSome : row.totpLockedUntil.isSome = false := by
      rw [show row.totpLockedUntil = none from hnone]
      rfl
    rcases codeFailed_totp hcount.2 hclock with ⟨hlocked, -⟩ | ⟨hunlock, hnext, -⟩
    · exact Or.inl ⟨_, hlocked, by omega⟩
    · refine Or.inr ⟨hunlock, ?_⟩
      rw [hnext, hisSome, if_neg (by simp)]
      have hk' : (k : Int) ≤ row.totpFailCount := hk
      push_cast
      omega

omit [Sha256] [Base64Url] in
/-- The first failure. -/
theorem guessed_first {row : WebParticipant} (hc : CountsFit db)
    (hrow : comparedRow p code now db = some row) (hmatch : row.matchingStep code now = none)
    (hclock : (now : Int) ≤ i64Max - 60) :
    Guessed p now 1 now (authenticateWebTotp p code now db).2 := by
  obtain ⟨-, hfind, -, -⟩ := comparedRow_eq_some_iff.mp hrow
  have hcount : 0 ≤ row.totpFailCount ∧ row.totpFailCount ≤ 4 :=
    hc p row.totp (totpOf_of_find hfind)
  refine Or.inr ⟨_, totpOf_codeFailed hrow hmatch, ?_⟩
  rcases codeFailed_totp hcount.2 hclock with ⟨hlocked, -⟩ | ⟨hunlock, hnext, -⟩
  · exact Or.inl ⟨_, hlocked, Int.le_refl _⟩
  · refine Or.inr ⟨hunlock, ?_⟩
    rw [hnext]
    split
    · omega
    · omega

omit [Sha256] [Base64Url] in
omit [Hmac] in
/-- The sixth failure comes late. -/
theorem Guessed.late {row : WebParticipant} {first k since : Nat} (h : Guessed p first k since db)
    (hc : CountsFit db) (hk : 5 ≤ k) (hrow : comparedRow p code now db = some row)
    (hsince : since ≤ now) (hclock : (now : Int) ≤ i64Max - 60) : first + 60 ≤ now := by
  obtain ⟨-, hfind, -, hunlocked⟩ := comparedRow_eq_some_iff.mp hrow
  have hcount := hc p row.totp (totpOf_of_find hfind)
  rcases h with hlate | ⟨t, ht, hlock | ⟨-, hcounted⟩⟩
  · omega
  · rw [totpOf_of_find hfind, Option.some.injEq] at ht
    obtain ⟨lockedUntil, hlocked, hlong⟩ := hlock
    rw [← ht] at hlocked
    have hout := hunlocked lockedUntil hlocked
    unfold i64Max at hclock
    unfold toI64 i64Max at hout
    omega
  · rw [totpOf_of_find hfind, Option.some.injEq] at ht
    rw [← ht] at hcounted
    omega

/-- What is no failure of the participant and does not interrupt leaves its record alone, once it
has one. -/
theorem totpOf_of_calm {w : World} {a : Effect} {t : TotpState} (ht : totpOf w.db p = some t)
    (hm : mismatches p ⟨w, a, (a.loginStep w).1, (a.loginStep w).2⟩ = false)
    (hcalm : ¬ Interrupts p ⟨w, a, (a.loginStep w).1, (a.loginStep w).2⟩) :
    totpOf (a.apply w).db p = some t := by
  by_cases hlogin : ∃ code now, a = .login p code now
  · obtain ⟨code, now, rfl⟩ := hlogin
    rcases authenticateWebTotp_cases p code now w.db with
      ⟨-, h⟩ | ⟨row, hrow, ⟨_, _, -, -, -, h⟩ | ⟨step, -, -, h⟩ | ⟨hmatch, -⟩⟩
    · simp only [Effect.apply, h]
      exact ht
    · simp only [Effect.apply, h]
      exact ht
    · refine absurd (Or.inl ⟨code, now, row.identity, rfl, ?_⟩) hcalm
      show some (authenticateWebTotp p code now w.db).1 = _
      rw [h]
    · rw [mismatches_login, hrow, Option.any_some, hmatch] at hm
      exact absurd hm (by simp)
  · have hother : ∀ code now, a ≠ .login p code now := fun code now heq =>
      hlogin ⟨code, now, heq⟩
    rcases a.totpKept w p (fun hr => hcalm (Or.inr hr)) hother with hsame | ⟨hnone, -⟩
    · rw [hsame]
      exact ht
    · rw [hnone] at ht
      exact absurd ht (by simp)

theorem Guessed.calm {w : World} {a : Effect} {first k since : Nat}
    (h : Guessed p first k since w.db)
    (hm : mismatches p ⟨w, a, (a.loginStep w).1, (a.loginStep w).2⟩ = false)
    (hcalm : ¬ Interrupts p ⟨w, a, (a.loginStep w).1, (a.loginStep w).2⟩) :
    Guessed p first k since (a.apply w).db := by
  rcases h with hlate | ⟨t, ht, hrest⟩
  · exact Or.inl hlate
  · exact Or.inr ⟨t, totpOf_of_calm ht hm hcalm, hrest⟩

/-- The clocks of the logins of a stretch. -/
def loginClocks (effects : List Effect) : List Nat := effects.filterMap Effect.loginClock

omit [Sha256] [Hmac] [Base64Url] in
theorem loginClocks_login (as : List Effect) :
    loginClocks (.login p code now :: as) = now :: loginClocks as := rfl

omit [Sha256] [Hmac] [Base64Url] in
theorem loginClocks_sublist (a : Effect) (as : List Effect) :
    (loginClocks as).Sublist (loginClocks (a :: as)) :=
  (List.sublist_cons_self a as).filterMap _

/-- What follows `k` failures. -/
theorem spaced_from {first : Nat} (effects : List Effect) :
    ∀ (w : World) (k since : Nat), CountsFit w.db → Guessed p first k since w.db →
      first ≤ since → (∀ t ∈ loginClocks effects, since ≤ t) →
      (loginClocks effects).Pairwise (· ≤ ·) →
      (∀ t ∈ loginClocks effects, (t : Int) ≤ i64Max - 60) →
      (∀ e ∈ visits w effects, ¬ Interrupts p e) →
      ∀ last, ((visits w effects).filter (mismatches p)).getLast? = some last →
        6 ≤ k + ((visits w effects).filter (mismatches p)).length → first + 60 ≤ last.clock := by
  induction effects with
  | nil =>
      intro w k since _ _ _ _ _ _ _ last hlast _
      exact absurd hlast (by simp [visits])
  | cons a as ih =>
      intro w k since hc hg hfirst hsince hsorted hclock hcalm last hlast hmany
      have hvisits : visits w (a :: as)
          = ⟨w, a, (a.loginStep w).1, (a.loginStep w).2⟩ :: visits (a.apply w) as := rfl
      have hc' := countsFit_step w a hc
      rw [hvisits] at hcalm
      rw [hvisits, List.filter_cons] at hlast hmany
      have hcalm' : ∀ e ∈ visits (a.apply w) as, ¬ Interrupts p e :=
        fun e he => hcalm e (List.mem_cons_of_mem _ he)
      by_cases hm : mismatches p ⟨w, a, (a.loginStep w).1, (a.loginStep w).2⟩ = true
      · rw [if_pos hm] at hlast hmany
        obtain ⟨code, now, row, hact, hrow, hmatch⟩ := mismatches_iff.mp hm
        simp only at hact hrow
        subst hact
        rw [loginClocks_login] at hsince hsorted hclock
        have hnow : since ≤ now := hsince now List.mem_cons_self
        have hbound := hclock now List.mem_cons_self
        cases hrest : (visits ((Effect.login p code now).apply w) as).filter (mismatches p) with
        | nil =>
            rw [hrest] at hlast hmany
            rw [List.getLast?_singleton, Option.some.injEq] at hlast
            rw [List.length_singleton] at hmany
            rw [← hlast]
            exact hg.late hc (by omega) hrow hnow hbound
        | cons e es =>
            rw [hrest] at hlast hmany
            rw [List.getLast?_cons_cons] at hlast
            have hg' : Guessed p first (k + 1) now ((Effect.login p code now).apply w).db :=
              hg.failed hc hrow hmatch (by omega) hnow hbound
            refine ih _ (k + 1) now hc' hg' (by omega) ?_ (List.pairwise_cons.mp hsorted).2
              (fun t ht => hclock t (List.mem_cons_of_mem _ ht)) hcalm' last ?_ ?_
            · exact (List.pairwise_cons.mp hsorted).1
            · rw [hrest]
              exact hlast
            · rw [hrest]
              simp only [List.length_cons] at hmany ⊢
              omega
      · rw [if_neg hm] at hlast hmany
        rw [Bool.not_eq_true] at hm
        have hsub := loginClocks_sublist a as
        exact ih _ k since hc' (hg.calm hm (hcalm _ List.mem_cons_self)) hfirst
          (fun t ht => hsince t (hsub.subset ht)) (hsorted.sublist hsub)
          (fun t ht => hclock t (hsub.subset ht)) hcalm' last hlast hmany

/-- **Six failures take a minute.** -/
theorem spaced (effects : List Effect) :
    ∀ w : World, CountsFit w.db → (loginClocks effects).Pairwise (· ≤ ·) →
      (∀ t ∈ loginClocks effects, (t : Int) ≤ i64Max - 60) →
      (∀ e ∈ visits w effects, ¬ Interrupts p e) →
      ∀ first last, ((visits w effects).filter (mismatches p)).head? = some first →
        ((visits w effects).filter (mismatches p)).getLast? = some last →
        6 ≤ ((visits w effects).filter (mismatches p)).length → first.clock + 60 ≤ last.clock := by
  induction effects with
  | nil =>
      intro w _ _ _ _ first last hfirst _ _
      exact absurd hfirst (by simp [visits])
  | cons a as ih =>
      intro w hc hsorted hclock hcalm first last hfirst hlast hmany
      have hvisits : visits w (a :: as)
          = ⟨w, a, (a.loginStep w).1, (a.loginStep w).2⟩ :: visits (a.apply w) as := rfl
      have hc' := countsFit_step w a hc
      have hsub := loginClocks_sublist a as
      rw [hvisits] at hcalm
      rw [hvisits, List.filter_cons] at hfirst hlast hmany
      have hcalm' : ∀ e ∈ visits (a.apply w) as, ¬ Interrupts p e :=
        fun e he => hcalm e (List.mem_cons_of_mem _ he)
      by_cases hm : mismatches p ⟨w, a, (a.loginStep w).1, (a.loginStep w).2⟩ = true
      · -- the first failure: five follow
        rw [if_pos hm] at hfirst hlast hmany
        obtain ⟨code, now, row, hact, hrow, hmatch⟩ := mismatches_iff.mp hm
        simp only at hact hrow
        subst hact
        rw [List.head?_cons, Option.some.injEq] at hfirst
        rw [← hfirst]
        rw [loginClocks_login] at hsorted hclock
        have hbound := hclock now List.mem_cons_self
        have hg : Guessed p now 1 now ((Effect.login p code now).apply w).db :=
          guessed_first hc hrow hmatch hbound
        refine spaced_from as _ 1 now hc' hg (Nat.le_refl _) ?_ (List.pairwise_cons.mp hsorted).2
          (fun t ht => hclock t (List.mem_cons_of_mem _ ht)) hcalm' last ?_ ?_
        · exact (List.pairwise_cons.mp hsorted).1
        · cases hrest : (visits ((Effect.login p code now).apply w) as).filter (mismatches p) with
          | nil =>
              rw [hrest, List.length_singleton] at hmany
              omega
          | cons e es =>
              rw [hrest, List.getLast?_cons_cons] at hlast
              exact hlast
        · rw [List.length_cons] at hmany
          omega
      · rw [if_neg hm] at hfirst hlast hmany
        exact ih _ hc' (hsorted.sublist hsub) (fun t ht => hclock t (hsub.subset ht)) hcalm'
          first last hfirst hlast hmany

/-- How fast codes can be guessed, in a stretch of logins and whatever else. -/
structure GuessingThrottled (start : World) (effects : List Effect) : Prop where
  /-- The count of failures is never above four. -/
  counted : ∀ row ∈ (Transition.run Effect.loginStep start effects).db.webParticipants,
    0 ≤ row.totpFailCount ∧ row.totpFailCount ≤ 4
  /-- A login of a locked participant is turned down and changes nothing. -/
  locked : ∀ e ∈ visits start effects, ∀ p code now row lockedUntil,
    e.act = .login p code now → e.before.db.webParticipants.find p = some row →
      row.totpLockedUntil = some lockedUntil → toI64 now < lockedUntil →
        e.out = some (.ok none) ∧ e.after = e.before
  /-- As long as a participant does not log in and is not enrolled anew or revoked, and the clock
  does not go back, six failures take a minute. -/
  spaced : ∀ p, (loginClocks effects).Pairwise (· ≤ ·) →
    (∀ t ∈ loginClocks effects, (t : Int) ≤ i64Max - 60) →
    (∀ e ∈ visits start effects, ¬ Interrupts p e) →
    ∀ first last, ((visits start effects).filter (mismatches p)).head? = some first →
      ((visits start effects).filter (mismatches p)).getLast? = some last →
      6 ≤ ((visits start effects).filter (mismatches p)).length →
        first.clock + 60 ≤ last.clock

/-- **Guessing is throttled**, in every stretch of every run from a new database. -/
theorem guessingThrottled (now : Int) (before effects : List Effect) :
    GuessingThrottled (Transition.run Effect.loginStep (.new now) before) effects where
  counted := by
    intro row hrow
    have hstart := countsFit_run (w := .new now) countsFit_initial before
    exact countsFit_run hstart effects row.participantId row.totp
      (totpOf_of_find (Table.find_of_mem hrow))
  locked := by
    intro e he p code now row lockedUntil hact hrow hlocked hlater
    have hnone : comparedRow p code now e.before.db = none := by
      rw [Option.eq_none_iff_forall_ne_some]
      intro found hfound
      obtain ⟨-, hfind, -, hunlocked⟩ := comparedRow_eq_some_iff.mp hfound
      rw [hrow, Option.some.injEq] at hfind
      rw [hfind] at hlocked
      have := hunlocked lockedUntil hlocked
      omega
    have hevent := Transition.step_of_mem he
    rw [hact] at hevent
    rcases authenticateWebTotp_cases p code now e.before.db with ⟨-, h⟩ | ⟨found, hfound, -⟩
    · have hout : e.out = some (authenticateWebTotp p code now e.before.db).1 :=
        (congrArg Prod.fst hevent).symm
      have hafter : e.after = { e.before with
          db := (authenticateWebTotp p code now e.before.db).2 } := (congrArg Prod.snd hevent).symm
      rw [h] at hout hafter
      exact ⟨hout, hafter⟩
    · rw [hnone] at hfound
      exact absurd hfound (by simp)
  spaced := by
    intro p hsorted hclock hcalm first last hfirst hlast hmany
    exact Blackboard.spaced effects _ (countsFit_run (w := .new now) countsFit_initial before)
      hsorted hclock hcalm first last hfirst hlast hmany

end Throttle

end Blackboard
