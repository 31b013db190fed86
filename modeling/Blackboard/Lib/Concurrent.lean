import Mathlib.Data.List.Induction
import Blackboard.Lib.Program
import Blackboard.Lib.Transition

/-!
# Requests over a shared store

Requests in flight form a pool. A move starts a request or lets one of them execute its next
transaction, so a list of moves is an interleaving and every interleaving is one.

The rules carry what is known of the programs over to the pool: a relation on transactions
(`steps_history`), with answers (`transacts_history`), as an order between an event and all
later ones (`order_history`); an invariant and an order the requests rely on each other to
keep (`keeps_history`); an assertion about the store that goes with what a request still has
to do, kept by its own transactions and by everybody else's (`pool_history`); a phase of the
store during which what is left of a request behaves (`within_history`); the event at which
the answer of a request was settled (`exists_binds`); and what a request may refer to of what it
has met at the events before (`justified_history`).
-/

namespace Concurrent

/-! ## Pools -/

/-- A request in flight. -/
structure Thread (ρ σ ω : Type) where
  /-- The request as it arrived. -/
  request : ρ
  /-- What is left of it. -/
  rest : Program σ ω

/-- The shared store and the requests in flight. -/
structure Config (ρ σ ω : Type) where
  store : σ
  pool : List (Thread ρ σ ω)

/-- The scheduler's choices. -/
inductive Move (ρ : Type) where
  /-- A request arrives. -/
  | start (request : ρ)
  /-- The request at this place executes its next transaction. -/
  | advance (place : Nat)

variable {ρ σ ω : Type} (prog : ρ → Program σ ω)

/-- One move. It reports the request whose transaction it executed, if it executed one. -/
def step (m : Move ρ) (c : Config ρ σ ω) : Option ρ × Config ρ σ ω :=
  match m with
  | .start r => (none, { c with pool := c.pool ++ [⟨r, prog r⟩] })
  | .advance i =>
      match c.pool[i]? with
      | some ⟨r, .step tx next⟩ => (some r, ⟨tx c.store, c.pool.set i ⟨r, next c.store⟩⟩)
      | _ => (none, c)

/-- An event of an interleaving. -/
abbrev Event (ρ σ ω : Type) := Transition.Event (Config ρ σ ω) (Move ρ) (Option ρ)

/-- The answer a request gave after the transaction of an event. -/
def answer (e : Event ρ σ ω) : Option ω :=
  match e.act, e.out with
  | .advance i, some _ =>
      match e.after.pool[i]? with
      | some ⟨_, .done a⟩ => some a
      | _ => none
  | _, _ => none

/-- The events of an interleaving that starts with no request in flight. -/
def history (s : σ) (moves : List (Move ρ)) : List (Event ρ σ ω) :=
  Transition.history (step prog) ⟨s, []⟩ moves

/-- What a move can do: start a request, execute the transaction of one, or nothing. -/
theorem step_cases (m : Move ρ) (c : Config ρ σ ω) :
    (∃ r, m = .start r ∧ step prog m c = (none, ⟨c.store, c.pool ++ [⟨r, prog r⟩]⟩))
    ∨ (∃ i r tx next, m = .advance i ∧ c.pool[i]? = some ⟨r, .step tx next⟩
        ∧ step prog m c = (some r, ⟨tx c.store, c.pool.set i ⟨r, next c.store⟩⟩))
    ∨ step prog m c = (none, c) := by
  cases m with
  | start r => exact Or.inl ⟨r, rfl, rfl⟩
  | advance i =>
      cases h : c.pool[i]? with
      | none => exact Or.inr (Or.inr (by simp [step, h]))
      | some t =>
          obtain ⟨r, rest⟩ := t
          cases rest with
          | done a => exact Or.inr (Or.inr (by simp [step, h]))
          | step tx next => exact Or.inr (Or.inl ⟨i, r, tx, next, rfl, h, by simp [step, h]⟩)

variable {prog}

section Pool

variable {G : Config ρ σ ω → Move ρ → Prop} {J : σ → ρ → Program σ ω → Prop}

/-- Every request in flight has its assertion. -/
def Asserted (J : σ → ρ → Program σ ω → Prop) (c : Config ρ σ ω) : Prop :=
  ∀ t ∈ c.pool, J c.store t.request t.rest

theorem asserted_step (hstart : ∀ c r, Asserted J c → G c (.start r) → J c.store r (prog r))
    (hown : ∀ s r tx next, J s r (.step tx next) → J (tx s) r (next s))
    (hother : ∀ c i r tx next, Asserted J c → c.pool[i]? = some ⟨r, .step tx next⟩ →
      G c (.advance i) → ∀ t ∈ c.pool, J (tx c.store) t.request t.rest)
    (c : Config ρ σ ω) (m : Move ρ) (h : Asserted J c) (hg : G c m) :
    Asserted J (step prog m c).2 := by
  rcases step_cases prog m c with ⟨r, rfl, hs⟩ | ⟨i, r, tx, next, rfl, hi, hs⟩ | hs
  · rw [hs]
    intro t ht
    rcases List.mem_append.mp ht with ht | ht
    · exact h t ht
    · rw [List.mem_singleton] at ht
      subst ht
      exact hstart c r h hg
  · rw [hs]
    intro t ht
    rcases List.mem_or_eq_of_mem_set ht with ht | rfl
    · exact hother c i r tx next h hi hg t ht
    · exact hown _ _ _ _ (h _ (List.mem_of_getElem? hi))
  · rw [hs]
    exact h

/-- **Assertion rule.** An assertion every request starts with, kept by its own transactions
and by everybody else's, holds throughout an interleaving whose moves meet the guard. -/
theorem pool_history (hstart : ∀ c r, Asserted J c → G c (.start r) → J c.store r (prog r))
    (hown : ∀ s r tx next, J s r (.step tx next) → J (tx s) r (next s))
    (hother : ∀ c i r tx next, Asserted J c → c.pool[i]? = some ⟨r, .step tx next⟩ →
      G c (.advance i) → ∀ t ∈ c.pool, J (tx c.store) t.request t.rest)
    {s : σ} {moves : List (Move ρ)} (hg : ∀ e ∈ history prog s moves, G e.before e.act) :
    ∀ e ∈ history prog s moves, Asserted J e.before :=
  fun e he => (Transition.inv_history (asserted_step hstart hown hother)
    (fun _ ht => absurd ht List.not_mem_nil) hg e he).1

/-- An event that executes a transaction, the store it leaves and the answer it may lead to. -/
theorem advance_cases {s : σ} {moves : List (Move ρ)} {e : Event ρ σ ω}
    (he : e ∈ history prog s moves) :
    (∃ r tx next, ⟨r, .step tx next⟩ ∈ e.before.pool ∧ e.out = some r
        ∧ e.after.store = tx e.before.store ∧ answer e = (next e.before.store).result?)
    ∨ e.out = none ∧ e.after.store = e.before.store ∧ answer e = none := by
  have hs := Transition.step_of_mem he
  have hquiet : e.out = none → answer e = none := by
    intro ho
    unfold answer
    rw [ho]
    cases e.act <;> rfl
  rcases step_cases prog e.act e.before with ⟨r, -, h⟩ | ⟨i, r, tx, next, hact, hi, h⟩ | h
  · rw [hs, Prod.mk.injEq] at h
    exact Or.inr ⟨h.1, by rw [h.2], hquiet h.1⟩
  · rw [hs, Prod.mk.injEq] at h
    refine Or.inl ⟨r, tx, next, List.mem_of_getElem? hi, h.1, by rw [h.2], ?_⟩
    -- the request's own place now holds what is left of it
    have hlt : i < e.before.pool.length := (List.getElem?_eq_some_iff.mp hi).1
    have hplace : e.after.pool[i]? = some ⟨r, next e.before.store⟩ := by
      rw [h.2, List.getElem?_set_self hlt]
    simp only [answer, hact, h.1, hplace]
    cases next e.before.store with
    | done a => rfl
    | step tx next => rfl
  · rw [hs, Prod.mk.injEq] at h
    exact Or.inr ⟨h.1, by rw [h.2], hquiet h.1⟩

/-- What an event did to the store: a transaction of a request in flight, or nothing. -/
theorem store_cases {s : σ} {moves : List (Move ρ)} {e : Event ρ σ ω}
    (he : e ∈ history prog s moves) :
    (∃ i r tx next, e.act = .advance i ∧ e.before.pool[i]? = some ⟨r, .step tx next⟩
        ∧ e.out = some r ∧ e.after.store = tx e.before.store)
    ∨ e.out = none ∧ e.after.store = e.before.store := by
  have hs := Transition.step_of_mem he
  rcases step_cases prog e.act e.before with ⟨r, -, h⟩ | ⟨i, r, tx, next, ha, hi, h⟩ | h
  · rw [hs, Prod.mk.injEq] at h
    exact Or.inr ⟨h.1, by rw [h.2]⟩
  · rw [hs, Prod.mk.injEq] at h
    exact Or.inl ⟨i, r, tx, next, ha, hi, h.1, by rw [h.2]⟩
  · rw [hs, Prod.mk.injEq] at h
    exact Or.inr ⟨h.1, by rw [h.2]⟩

/-- What is left of a request is made of transactions of the request. -/
theorem steps_of_mem_pool {R : ρ → σ → σ → Prop} (h : ∀ r, (prog r).Steps (R r)) {s : σ}
    {moves : List (Move ρ)} {e : Event ρ σ ω} (he : e ∈ history prog s moves) :
    ∀ t ∈ e.before.pool, t.rest.Steps (R t.request) :=
  pool_history (J := fun _ r p => p.Steps (R r)) (G := fun _ _ => True) (fun _ r _ _ => h r)
    (fun s _ _ _ hp => hp.2 s) (fun _ _ _ _ _ hp _ _ t ht => hp t ht) (fun _ _ => trivial) e he

/-- **Transaction rule.** If every transaction of a request's program stands in the request's
relation, so does every event of an interleaving that executes one. -/
theorem steps_history {R : ρ → σ → σ → Prop} (h : ∀ r, (prog r).Steps (R r)) {s : σ}
    {moves : List (Move ρ)} {e : Event ρ σ ω} (he : e ∈ history prog s moves) :
    (∃ r, e.out = some r ∧ R r e.before.store e.after.store)
    ∨ e.out = none ∧ e.after.store = e.before.store := by
  have hall := steps_of_mem_pool h he
  rcases store_cases he with ⟨i, r, tx, next, -, hi, ho, hs⟩ | hno
  · refine Or.inl ⟨r, ho, ?_⟩
    rw [hs]
    exact (hall _ (List.mem_of_getElem? hi)).1 _
  · exact Or.inr hno

/-- **Store rule.** What holds of the store at the start and is kept at every event holds of it
before and after every event. -/
theorem store_history {I : σ → Prop} {s : σ} {moves : List (Move ρ)} (hs : I s)
    (h : ∀ e ∈ history prog s moves, I e.before.store → I e.after.store) :
    ∀ e ∈ history prog s moves, I e.before.store ∧ I e.after.store := by
  refine Transition.inv_history (I := fun c => I c.store)
    (G := fun c m => I c.store → I (step prog m c).2.store) (fun c m hc hg => hg hc) hs ?_
  intro e he
  have hkept := h e he
  rw [Transition.after_of_mem he] at hkept
  exact hkept

/-- **Answer rule.** The same with what the request answers after the event. -/
theorem transacts_history {R : ρ → σ → σ → Option ω → Prop} (h : ∀ r, (prog r).Transacts (R r))
    {s : σ} {moves : List (Move ρ)} {e : Event ρ σ ω} (he : e ∈ history prog s moves) :
    (∃ r, e.out = some r ∧ R r e.before.store e.after.store (answer e))
    ∨ e.out = none ∧ e.after.store = e.before.store ∧ answer e = none := by
  have hall : Asserted (fun _ r p => p.Transacts (R r)) e.before :=
    pool_history (J := fun _ r p => p.Transacts (R r)) (G := fun _ _ => True) (fun _ r _ _ => h r)
      (fun s _ _ _ hp => (hp s).2) (fun _ _ _ _ _ hp _ _ t ht => hp t ht) (fun _ _ => trivial) e he
  rcases advance_cases he with ⟨r, tx, next, hr, ho, hstore, ha⟩ | hno
  · refine Or.inl ⟨r, ho, ?_⟩
    rw [hstore, ha]
    exact (hall _ hr e.before.store).1
  · exact Or.inr hno

/-- **Order rule.** A preorder every transaction goes up in relates what an event leaves to what
every later event meets. -/
theorem order_history {E : σ → σ → Prop} (hrefl : ∀ s, E s s)
    (htrans : ∀ {s t u}, E s t → E t u → E s u) (h : ∀ r, (prog r).Steps E) (s : σ)
    (moves : List (Move ρ)) :
    (history prog s moves).Pairwise fun e e' => E e.after.store e'.before.store := by
  let I := Asserted fun _ (_ : ρ) (p : Program σ ω) => p.Steps E
  have hstep : ∀ c m, I c → True → I (step prog m c).2 := fun c m hc _ =>
    asserted_step (G := fun _ _ => True) (fun _ r _ _ => h r) (fun s _ _ _ hp => hp.2 s)
      (fun _ _ _ _ _ hp _ _ t ht => hp t ht) c m hc trivial
  have hkeep : ∀ c m, I c → E c.store (step prog m c).2.store := by
    intro c m hc
    rcases step_cases prog m c with ⟨r, -, hs⟩ | ⟨i, r, tx, next, -, hi, hs⟩ | hs
    · rw [hs]
      exact hrefl _
    · rw [hs]
      exact (hc _ (List.mem_of_getElem? hi)).1 _
    · rw [hs]
      exact hrefl _
  exact Transition.pairwise_history (G := fun _ _ => True) (I := I)
    (Q := fun e c => E e.after.store c.store) hstep (fun c m _ _ => hrefl _)
    (fun e c m hc _ hq => htrans hq (hkeep c m hc)) (fun e c m _ _ hq => hq)
    (fun _ ht => absurd ht List.not_mem_nil) (fun _ _ => trivial)

/-- **Rely rule.** If every request keeps an invariant and an order, relying on the others to do so
too, then every event of an interleaving does. -/
theorem keeps_history {E : σ → σ → Prop} {I : σ → Prop} (hrefl : ∀ s, E s s)
    (htrans : ∀ {s t u}, E s t → E t u → E s u) (h : ∀ r s, (prog r).Keeps E I s) {s : σ}
    (hs : I s) (moves : List (Move ρ)) :
    ∀ e ∈ history prog s moves, I e.before.store ∧ I e.after.store
      ∧ E e.before.store e.after.store := by
  let J := fun c : Config ρ σ ω => I c.store ∧ ∀ t ∈ c.pool, t.rest.Keeps E I c.store
  have hstep : ∀ c m, J c → True → J (step prog m c).2 := by
    intro c m ⟨hi, hp⟩ _
    rcases step_cases prog m c with ⟨r, rfl, hc⟩ | ⟨i, r, tx, next, rfl, hplace, hc⟩ | hc
    · rw [hc]
      refine ⟨hi, fun t ht => ?_⟩
      rcases List.mem_append.mp ht with ht | ht
      · exact hp t ht
      · rw [List.mem_singleton] at ht
        subst ht
        exact h r c.store
    · rw [hc]
      obtain ⟨he, hi', hnext⟩ := hp _ (List.mem_of_getElem? hplace) c.store (hrefl c.store) hi
      refine ⟨hi', fun t ht => ?_⟩
      rcases List.mem_or_eq_of_mem_set ht with ht | rfl
      · exact (hp t ht).later @htrans he
      · exact hnext
    · rw [hc]
      exact ⟨hi, hp⟩
  have hstart : J ⟨s, []⟩ := ⟨hs, fun _ ht => absurd ht List.not_mem_nil⟩
  intro e he
  obtain ⟨hbefore, hafter⟩ := Transition.inv_history (G := fun _ _ => True) hstep hstart
    (fun _ _ => trivial) e he
  refine ⟨hbefore.1, hafter.1, ?_⟩
  rcases store_cases he with ⟨i, r, tx, next, -, hi, -, hstore⟩ | ⟨-, hstore⟩
  · rw [hstore]
    exact (hbefore.2 _ (List.mem_of_getElem? hi) _ (hrefl _) hbefore.1).1
  · rw [hstore]
    exact hrefl _

/-! ## Settled answers -/

/-- Where the answer of an event stands. -/
theorem thread_of_answer {s : σ} {moves : List (Move ρ)} {e : Event ρ σ ω}
    (he : e ∈ history prog s moves) {place : Nat} (hact : e.act = .advance place) {r : ρ}
    (ho : e.out = some r) {a : ω} (ha : answer e = some a) :
    ∃ t, e.after.pool[place]? = some t ∧ t.request = r ∧ t.rest = .done a := by
  have hs := Transition.step_of_mem he
  rw [hact] at hs
  rcases step_cases prog (.advance place) e.before with
    ⟨r', h, -⟩ | ⟨i, r', tx, next, h, hi, hc⟩ | hc
  · exact absurd h (by simp)
  · obtain rfl := Move.advance.inj h
    rw [hs, Prod.mk.injEq, ho, Option.some.injEq] at hc
    obtain ⟨rfl, hafter⟩ := hc
    have hlt := (List.getElem?_eq_some_iff.mp hi).1
    have hplace : e.after.pool[place]? = some ⟨r, next e.before.store⟩ := by
      rw [hafter, List.getElem?_set_self hlt]
    refine ⟨_, hplace, rfl, ?_⟩
    simp only [answer, hact, ho, hplace] at ha
    cases hrest : next e.before.store with
    | done a' =>
        rw [hrest] at ha
        rw [Option.some.inj ha]
    | step tx next =>
        rw [hrest] at ha
        exact absurd ha (by simp)
  · rw [hs, Prod.mk.injEq, ho] at hc
    exact absurd hc.1 (by simp)

/-- At the event the answer of the request at this place becomes bound to satisfy `Q`. -/
def Binds (Q : ω → Prop) (place : Nat) (e : Event ρ σ ω) : Prop :=
  ∃ t t', e.act = .advance place ∧ e.before.pool[place]? = some t
    ∧ e.after.pool[place]? = some t' ∧ ¬ t.rest.Bound Q ∧ t'.rest.Bound Q

/-- The transaction that binds. -/
theorem Binds.transaction {Q : ω → Prop} {place : Nat} {s : σ} {moves : List (Move ρ)}
    {e : Event ρ σ ω} (h : Binds Q place e) (he : e ∈ history prog s moves) {r : ρ}
    (ho : e.out = some r) :
    ∃ tx next, ⟨r, .step tx next⟩ ∈ e.before.pool ∧ ¬ (Program.step tx next).Bound Q
      ∧ (next e.before.store).Bound Q := by
  obtain ⟨t, t', hact, ht, ht', hbefore, hafter⟩ := h
  have hs := Transition.step_of_mem he
  rw [hact] at hs
  rcases step_cases prog (.advance place) e.before with
    ⟨r', h, -⟩ | ⟨i, r', tx, next, h, hi, hc⟩ | hc
  · exact absurd h (by simp)
  · obtain rfl := Move.advance.inj h
    rw [hs, Prod.mk.injEq, ho, Option.some.injEq] at hc
    obtain ⟨rfl, hc⟩ := hc
    have hlt := (List.getElem?_eq_some_iff.mp hi).1
    rw [hc, List.getElem?_set_self hlt] at ht'
    obtain rfl := Option.some.inj (ht.symm.trans hi)
    obtain rfl := Option.some.inj ht'
    exact ⟨tx, next, List.mem_of_getElem? hi, hbefore, hafter⟩
  · rw [hs, Prod.mk.injEq, ho] at hc
    exact absurd hc.1 (by simp)

/-- A request that is bound at the end of a run, and was not when it arrived, became so at some
event. -/
theorem exists_binds_run {Q : ω → Prop} {s : σ} (moves : List (Move ρ)) {place : Nat}
    {t : Thread ρ σ ω} (ht : (Transition.run (step prog) ⟨s, []⟩ moves).pool[place]? = some t)
    (hbound : t.rest.Bound Q) (hstart : ¬ (prog t.request).Bound Q) :
    ∃ e ∈ history prog s moves, e.out = some t.request ∧ Binds Q place e := by
  induction moves using List.reverseRecOn generalizing t with
  | nil => exact absurd ht (by simp)
  | append_singleton moves m ih =>
      let c := Transition.run (step prog) ⟨s, []⟩ moves
      have hold : ∀ t : Thread ρ σ ω, c.pool[place]? = some t → t.rest.Bound Q →
          ¬ (prog t.request).Bound Q →
          ∃ e ∈ history prog s (moves ++ [m]), e.out = some t.request ∧ Binds Q place e := by
        intro t ht hbound hstart
        obtain ⟨e, he, hbinds⟩ := ih ht hbound hstart
        refine ⟨e, ?_, hbinds⟩
        unfold history
        rw [Transition.history_append]
        exact List.mem_append_left _ he
      have hlast : (⟨c, m, (step prog m c).1, (step prog m c).2⟩ : Event ρ σ ω)
          ∈ history prog s (moves ++ [m]) := Transition.last_mem_history _ _ _ _
      rw [Transition.run_append] at ht
      rcases step_cases prog m c with ⟨r, -, hc⟩ | ⟨i, r, tx, next, rfl, hi, hc⟩ | hc
      · have hpool : (c.pool ++ [⟨r, prog r⟩])[place]? = some t := by
          rw [← ht]
          show _ = (step prog m c).2.pool[place]?
          rw [hc]
        rw [List.getElem?_append] at hpool
        split at hpool
        · exact hold t hpool hbound hstart
        · -- the request has just arrived
          have hmem := List.mem_singleton.mp (List.mem_of_getElem? hpool)
          rw [hmem] at hbound hstart
          exact absurd hbound hstart
      · have hpool : (c.pool.set i ⟨r, next c.store⟩)[place]? = some t := by
          rw [← ht]
          show _ = (step prog (.advance i) c).2.pool[place]?
          rw [hc]
        by_cases hplace : i = place
        · subst hplace
          have hlt := (List.getElem?_eq_some_iff.mp hi).1
          rw [List.getElem?_set_self hlt] at hpool
          have hrequest : t.request = r := by rw [← Option.some.inj hpool]
          by_cases hbefore : (Program.step tx next).Bound Q
          · obtain ⟨e, he, hout, hbinds⟩ :=
              hold ⟨r, .step tx next⟩ hi hbefore (hrequest ▸ hstart)
            exact ⟨e, he, by rw [hout, hrequest], hbinds⟩
          · refine ⟨_, hlast, ?_, ⟨r, .step tx next⟩, t, rfl, hi, ?_, hbefore, hbound⟩
            · show (step prog (.advance i) c).1 = some t.request
              rw [hc, hrequest]
            · show (step prog (.advance i) c).2.pool[i]? = some t
              rw [hc, List.getElem?_set_self hlt]
              exact hpool
        · rw [List.getElem?_set_ne hplace] at hpool
          exact hold t hpool hbound hstart
      · have hpool : c.pool[place]? = some t := by
          rw [← ht]
          show _ = (step prog m c).2.pool[place]?
          rw [hc]
        exact hold t hpool hbound hstart

/-- **Settling rule.** The answer a request gives was settled at some event, unless it was before
the request began. -/
theorem exists_binds {Q : ω → Prop} {s : σ} {moves : List (Move ρ)} {e : Event ρ σ ω}
    (he : e ∈ history prog s moves) {place : Nat} (hact : e.act = .advance place) {r : ρ}
    (ho : e.out = some r) {a : ω} (ha : answer e = some a) (hq : Q a)
    (hstart : ¬ (prog r).Bound Q) :
    ∃ e' ∈ history prog s moves, e'.out = some r ∧ Binds Q place e' := by
  obtain ⟨pre, post, rfl, hbefore⟩ := Transition.before_eq_run he
  have hafter : e.after = Transition.run (step prog) ⟨s, []⟩ (pre ++ [e.act]) := by
    rw [Transition.run_append, ← hbefore, Transition.after_of_mem he]
    rfl
  obtain ⟨t, ht, hrequest, hrest⟩ := thread_of_answer he hact ho ha
  rw [hafter] at ht
  have hbound : t.rest.Bound Q := by
    rw [hrest]
    exact hq
  obtain ⟨e', he', hout, hbinds⟩ :=
    exists_binds_run (pre ++ [e.act]) ht hbound (hrequest ▸ hstart)
  refine ⟨e', ?_, by rw [hout, hrequest], hbinds⟩
  rw [List.append_cons]
  unfold history
  rw [Transition.history_append]
  exact List.mem_append_left _ he'

/-! ## What a request has met -/

/-- The state an event's transaction met, if it was one of the request at this place. -/
def meets (place : Nat) (e : Event ρ σ ω) : Option σ :=
  match e.act, e.out with
  | .advance i, some _ => if i = place then some e.before.store else none
  | _, _ => none

/-- The states the request at this place has met at these events. -/
def met (place : Nat) (es : List (Event ρ σ ω)) : List σ := es.filterMap (meets place)

theorem history_snoc (s : σ) (moves : List (Move ρ)) (m : Move ρ) :
    history prog s (moves ++ [m]) = history prog s moves
      ++ [⟨Transition.run (step prog) ⟨s, []⟩ moves, m,
        (step prog m (Transition.run (step prog) ⟨s, []⟩ moves)).1,
        (step prog m (Transition.run (step prog) ⟨s, []⟩ moves)).2⟩] := by
  unfold history
  rw [Transition.history_append]
  rfl

theorem met_snoc (place : Nat) (es : List (Event ρ σ ω)) (e : Event ρ σ ω) :
    met place (es ++ [e]) = met place es ++ (meets place e).toList := by
  unfold met
  rw [List.filterMap_append]
  cases h : meets place e <;> simp [h]

section Justified

variable {J : ρ → List σ → σ → σ → Prop}

/-- What is left of every request is justified by the states it has met; and places that are not
taken have met nothing. -/
theorem justified_run (h : ∀ r, (prog r).Justified (J r) []) (s : σ) (moves : List (Move ρ)) :
    (∀ place (t : Thread ρ σ ω),
      (Transition.run (step prog) ⟨s, []⟩ moves).pool[place]? = some t →
        t.rest.Justified (J t.request) (met place (history prog s moves)))
    ∧ ∀ place, (Transition.run (step prog) ⟨s, []⟩ moves).pool.length ≤ place →
      met place (history prog s moves) = [] := by
  induction moves using List.reverseRecOn with
  | nil => exact ⟨fun place t ht => absurd ht (by simp), fun _ _ => rfl⟩
  | append_singleton moves m ih =>
      have hrun : Transition.run (step prog) ⟨s, []⟩ (moves ++ [m])
          = (step prog m (Transition.run (step prog) ⟨s, []⟩ moves)).2 :=
        Transition.run_append _ _ _ _
      rw [history_snoc, hrun]
      simp only [met_snoc]
      obtain ⟨htaken, hfree⟩ := ih
      generalize Transition.run (step prog) ⟨s, []⟩ moves = c at htaken hfree ⊢
      rcases step_cases prog m c with ⟨r, rfl, hc⟩ | ⟨i, r, tx, next, rfl, hi, hc⟩ | hc
      · have hnone : ∀ place, meets place (⟨c, .start r, (step prog (.start r) c).1,
            (step prog (.start r) c).2⟩ : Event ρ σ ω) = none := fun _ => rfl
        simp only [hnone, Option.toList_none, List.append_nil]
        rw [hc]
        refine ⟨fun place t ht => ?_, fun place hplace => ?_⟩
        · dsimp only at ht
          rw [List.getElem?_append] at ht
          split at ht
          · exact htaken place t ht
          · -- the request has just arrived, at a place where nothing has been met
            rename_i hlength
            rw [List.mem_singleton.mp (List.mem_of_getElem? ht), hfree place (Nat.not_lt.mp hlength)]
            exact h r
        · rw [List.length_append] at hplace
          exact hfree place (by omega)
      · have hmeets : ∀ place, meets place (⟨c, .advance i, (step prog (.advance i) c).1,
            (step prog (.advance i) c).2⟩ : Event ρ σ ω)
            = if i = place then some c.store else none := by
          intro place
          unfold meets
          rw [hc]
        have hlt := (List.getElem?_eq_some_iff.mp hi).1
        simp only [hmeets]
        rw [hc]
        refine ⟨fun place t ht => ?_, fun place hplace => ?_⟩
        · by_cases hplace : i = place
          · subst hplace
            dsimp only at ht
            rw [List.getElem?_set_self hlt] at ht
            obtain rfl := Option.some.inj ht
            rw [if_pos rfl]
            exact (htaken i _ hi c.store).2
          · dsimp only at ht
            rw [List.getElem?_set_ne hplace] at ht
            rw [if_neg hplace, Option.toList_none, List.append_nil]
            exact htaken place t ht
        · rw [List.length_set] at hplace
          have hne : i ≠ place := by omega
          rw [if_neg hne, Option.toList_none, List.append_nil]
          exact hfree place hplace
      · have hnone : ∀ place, meets place (⟨c, m, (step prog m c).1, (step prog m c).2⟩ :
            Event ρ σ ω) = none := by
          intro place
          unfold meets
          rw [hc]
          cases m <;> rfl
        simp only [hnone, Option.toList_none, List.append_nil]
        rw [hc]
        exact ⟨htaken, hfree⟩

/-- **Justification rule.** Every transaction an event executes is justified by what its request
has met at the events before. -/
theorem justified_history (h : ∀ r, (prog r).Justified (J r) []) {s : σ} {moves : List (Move ρ)}
    {e : Event ρ σ ω} (he : e ∈ history prog s moves) :
    (∃ place r pre post, e.act = .advance place ∧ e.out = some r
      ∧ moves = pre ++ e.act :: post
      ∧ J r (met place (history prog s pre)) e.before.store e.after.store)
    ∨ e.out = none ∧ e.after.store = e.before.store := by
  obtain ⟨pre, post, hmoves, hbefore⟩ := Transition.before_eq_run he
  rcases store_cases he with ⟨i, r, tx, next, hact, hi, hout, hstore⟩ | hno
  · rw [hbefore] at hi
    have hrest := (justified_run h s pre).1 i _ hi e.before.store
    refine Or.inl ⟨i, r, pre, post, hact, hout, hmoves, ?_⟩
    rw [hstore]
    exact hrest.1
  · exact Or.inr hno

end Justified

/-! ## Phases

While the store is in a phase `A`, the requests of a kind `K` have to behave. A request may
fail to in two ways: it arrives during the phase and does not notice, or it was in flight
when the store entered the phase and had already got past the point where it would have
noticed. An interleaving without such moves is clean. -/

section Phase

variable {A : σ → Prop} {K : ρ → Prop} {R : σ → σ → Prop} {Q : ω → Prop}

/-- A request that arrives during the phase behaves, and when a move takes the store into the phase
every request in flight behaves from there. -/
def Clean (prog : ρ → Program σ ω) (A : σ → Prop) (K : ρ → Prop) (R : σ → σ → Prop)
    (Q : ω → Prop) (c : Config ρ σ ω) : Move ρ → Prop
  | .start r => A c.store → K r → (prog r).Within A R Q
  | .advance i => ¬ A c.store → A (step prog (.advance i) c).2.store →
      ∀ t ∈ c.pool, K t.request → t.rest.Within A R Q

/-- **Phase rule.** In a clean interleaving the requests of the kind behave whenever the store is in
the phase. -/
theorem within_history (hquiet : ∀ r, K r → (prog r).Steps fun s s' => A s' → A s) {s : σ}
    {moves : List (Move ρ)} (hg : ∀ e ∈ history prog s moves, Clean prog A K R Q e.before e.act) :
    ∀ e ∈ history prog s moves, A e.before.store → ∀ t ∈ e.before.pool, K t.request →
      t.rest.Within A R Q := by
  let J := fun (s : σ) (r : ρ) (p : Program σ ω) =>
    K r → p.Steps (fun s s' => A s' → A s) ∧ (A s → p.Within A R Q)
  have hall : ∀ e ∈ history prog s moves, Asserted J e.before := by
    refine pool_history (G := Clean prog A K R Q) ?_ ?_ ?_ hg
    · exact fun c r _ hc hk => ⟨hquiet r hk, fun ha => hc ha hk⟩
    · intro s r tx next hj hk
      obtain ⟨hs, hw⟩ := hj hk
      -- a request of the kind does not take the store into the phase itself
      exact ⟨hs.2 s, fun ha => (hw (hs.1 s ha) s (hs.1 s ha)).2⟩
    · intro c i r tx next hc hi hgc t ht hk
      obtain ⟨hs, hw⟩ := hc t ht hk
      refine ⟨hs, fun ha => ?_⟩
      by_cases hb : A c.store
      · exact hw hb
      · exact hgc hb (by simpa [step, hi] using ha) t ht hk
  exact fun e he ha t ht hk => (hall e he t ht hk).2 ha

/-- What the phase rule says about a transaction executed during the phase, and about the answer
the request gives after it. -/
theorem within_of_transaction (hquiet : ∀ r, K r → (prog r).Steps fun s s' => A s' → A s) {s : σ}
    {moves : List (Move ρ)} (hg : ∀ e ∈ history prog s moves, Clean prog A K R Q e.before e.act)
    {e : Event ρ σ ω} (he : e ∈ history prog s moves) (ha : A e.before.store) {r : ρ}
    (ho : e.out = some r) (hk : K r) :
    R e.before.store e.after.store ∧ ∀ a, answer e = some a → Q a := by
  have hall := within_history hquiet hg e he ha
  have hs := Transition.step_of_mem he
  rcases step_cases prog e.act e.before with ⟨r', -, h⟩ | ⟨i, r', tx, next, hact, hi, h⟩ | h
  · rw [hs, Prod.mk.injEq, ho] at h
    exact absurd h.1 (by simp)
  · rw [hs, Prod.mk.injEq, ho] at h
    obtain rfl := Option.some.inj h.1
    obtain ⟨hr, hn⟩ := hall _ (List.mem_of_getElem? hi) hk _ ha
    refine ⟨by rw [h.2]; exact hr, fun a hans => ?_⟩
    -- the request's own place now holds what is left of it
    have hlt : i < e.before.pool.length := (List.getElem?_eq_some_iff.mp hi).1
    have hplace : e.after.pool[i]? = some ⟨r, next e.before.store⟩ := by
      rw [h.2, List.getElem?_set_self hlt]
    simp only [answer, hact, ho, hplace] at hans
    split at hans
    · rename_i r'' a' heq
      simp only [Option.some.injEq, Thread.mk.injEq] at heq hans
      rw [heq.2, hans] at hn
      exact hn
    · exact absurd hans (by simp)
  · rw [hs, Prod.mk.injEq, ho] at h
    exact absurd h.1 (by simp)

end Phase

end Pool

end Concurrent
