import Mathlib.Data.List.Basic

/-!
# Requests as programs

A request is a program whose steps are serializable transactions on a shared store; what
it does next depends on the state its last transaction met. Alone it runs from one state
to another; among others it may meet any state at each step, and this module says what can
be known of it then: its transactions (`Program.trace`), that every one stands in a relation
(`Program.Steps`), also together with what the program answers after it
(`Program.Transacts`); the program behaves as long as the states it meets are of a kind
(`Program.Within`); it keeps an invariant if others do (`Program.Keeps`); its transactions
are justified by what it has met (`Program.Justified`); its answer is settled whatever it
meets (`Program.Bound`); and it answers when others take the store from where it is to
where it goes on (`Program.Answers`).
-/

namespace Concurrent

/-- What a request still has to do. -/
inductive Program (σ α : Type) where
  /-- Nothing: it has answered. -/
  | done (result : α)
  /-- Execute a transaction; the state it met decides how to go on. -/
  | step (tx : σ → σ) (next : σ → Program σ α)

namespace Program

variable {σ α β : Type}

/-- One transaction that answers. -/
def atomic (op : σ → α × σ) : Program σ α := step (fun s => (op s).2) fun s => done (op s).1

/-- One query. -/
def read (query : σ → α) : Program σ α := atomic fun s => (query s, s)

protected def bind : Program σ α → (α → Program σ β) → Program σ β
  | done a, k => k a
  | step tx next, k => step tx fun s => (next s).bind k

instance : Monad (Program σ) where
  pure := done
  bind := Program.bind

@[simp] theorem pure_eq (a : α) : (pure a : Program σ α) = done a := rfl

@[simp] theorem done_bind (a : α) (k : α → Program σ β) : (done a >>= k) = k a := rfl

@[simp] theorem step_bind (tx : σ → σ) (next : σ → Program σ α) (k : α → Program σ β) :
    (step tx next >>= k) = step tx fun s => next s >>= k := rfl

@[simp] theorem atomic_bind (op : σ → α × σ) (k : α → Program σ β) :
    (atomic op >>= k) = step (fun s => (op s).2) fun s => k (op s).1 := rfl

@[simp] theorem read_bind (query : σ → α) (k : α → Program σ β) :
    (read query >>= k) = step (fun s => s) fun s => k (query s) := rfl

/-! ## Alone -/

/-- The answer and the store when no other request interferes. -/
def run : Program σ α → σ → α × σ
  | done a, s => (a, s)
  | step tx next, s => (next s).run (tx s)

@[simp] theorem run_done (a : α) (s : σ) : (done a : Program σ α).run s = (a, s) := rfl

@[simp] theorem run_step (tx : σ → σ) (next : σ → Program σ α) (s : σ) :
    (step tx next).run s = (next s).run (tx s) := rfl

theorem run_bind (p : Program σ α) (k : α → Program σ β) (s : σ) :
    (p >>= k).run s = (k (p.run s).1).run (p.run s).2 := by
  induction p generalizing s with
  | done a => rfl
  | step tx next ih => exact ih s (tx s)

/-- Alone, the program answers the same from both states and changes neither. -/
structure ReadsAlike (p : Program σ α) (s s' : σ) : Prop where
  answer : (p.run s).1 = (p.run s').1
  left : (p.run s).2 = s
  right : (p.run s').2 = s'

section ReadsAlike

variable {s s' : σ}

theorem readsAlike_done (a : α) : (done a : Program σ α).ReadsAlike s s' := ⟨rfl, rfl, rfl⟩

theorem readsAlike_read {query : σ → α} (h : query s = query s') :
    (read query).ReadsAlike s s' := ⟨h, rfl, rfl⟩

theorem ReadsAlike.bind {p : Program σ α} {k : α → Program σ β} (hp : p.ReadsAlike s s')
    (hk : (k (p.run s).1).ReadsAlike s s') : (p >>= k).ReadsAlike s s' := by
  have hs : (p >>= k).run s = (k (p.run s).1).run s := by rw [run_bind, hp.left]
  have hs' : (p >>= k).run s' = (k (p.run s).1).run s' := by rw [run_bind, hp.right, hp.answer]
  refine ⟨?_, ?_, ?_⟩
  · rw [hs, hs']
    exact hk.answer
  · rw [hs]
    exact hk.left
  · rw [hs']
    exact hk.right

end ReadsAlike

/-! ## Under interference -/

/-- The transactions of a program, as pairs of states, when each meets an arbitrary state. -/
def trace : Program σ α → List σ → List (σ × σ)
  | step tx next, s :: met => (s, tx s) :: (next s).trace met
  | _, _ => []

@[simp] theorem trace_done (a : α) (met : List σ) : (done a : Program σ α).trace met = [] := rfl

@[simp] theorem trace_nil (p : Program σ α) : p.trace [] = [] := by cases p <;> rfl

@[simp] theorem trace_cons (tx : σ → σ) (next : σ → Program σ α) (s : σ) (met : List σ) :
    (step tx next).trace (s :: met) = (s, tx s) :: (next s).trace met := rfl

/-- Every transaction of the program, in whatever state it is met, stands in `R`. -/
def Steps (R : σ → σ → Prop) : Program σ α → Prop
  | done _ => True
  | step tx next => (∀ s, R s (tx s)) ∧ ∀ s, (next s).Steps R

section Steps

variable {R R' : σ → σ → Prop}

@[simp] theorem steps_done (a : α) : (done a : Program σ α).Steps R := trivial

@[simp] theorem steps_step (tx : σ → σ) (next : σ → Program σ α) :
    (step tx next).Steps R ↔ (∀ s, R s (tx s)) ∧ ∀ s, (next s).Steps R := Iff.rfl

theorem steps_bind {p : Program σ α} {k : α → Program σ β} (hp : p.Steps R)
    (hk : ∀ a, (k a).Steps R) : (p >>= k).Steps R := by
  induction p with
  | done a => exact hk a
  | step tx next ih => exact ⟨hp.1, fun s => ih s (hp.2 s)⟩

theorem Steps.mono {p : Program σ α} (hp : p.Steps R) (h : ∀ s s', R s s' → R' s s') :
    p.Steps R' := by
  induction p with
  | done a => trivial
  | step tx next ih => exact ⟨fun s => h _ _ (hp.1 s), fun s => ih s (hp.2 s)⟩

theorem steps_trace {p : Program σ α} (hp : p.Steps R) {met : List σ} :
    ∀ t ∈ p.trace met, R t.1 t.2 := by
  induction p generalizing met with
  | done a => exact fun t ht => absurd ht List.not_mem_nil
  | step tx next ih =>
      cases met with
      | nil => exact fun t ht => absurd ht List.not_mem_nil
      | cons s met =>
          intro t ht
          rcases List.mem_cons.mp ht with rfl | ht
          · exact hp.1 s
          · exact ih s (hp.2 s) t ht

end Steps

/-- What a program that has answered answered. -/
def result? : Program σ α → Option α
  | done a => some a
  | step _ _ => none

@[simp] theorem result?_done (a : α) : (done a : Program σ α).result? = some a := rfl

@[simp] theorem result?_step (tx : σ → σ) (next : σ → Program σ α) :
    (step tx next).result? = none := rfl

/-- Every transaction of the program stands in `R`, together with the answer when it is the last
one. -/
def Transacts (R : σ → σ → Option α → Prop) : Program σ α → Prop
  | done _ => True
  | step tx next => ∀ s, R s (tx s) (next s).result? ∧ (next s).Transacts R

section Transacts

variable {R : σ → σ → Option α → Prop}

@[simp] theorem transacts_done (a : α) : (done a : Program σ α).Transacts R := trivial

@[simp] theorem transacts_step (tx : σ → σ) (next : σ → Program σ α) :
    (step tx next).Transacts R ↔ ∀ s, R s (tx s) (next s).result? ∧ (next s).Transacts R := Iff.rfl

theorem Transacts.mono {R' : σ → σ → Option α → Prop} {p : Program σ α} (hp : p.Transacts R)
    (h : ∀ s s' a, R s s' a → R' s s' a) : p.Transacts R' := by
  induction p with
  | done a => trivial
  | step tx next ih => exact fun s => ⟨h _ _ _ (hp s).1, ih s (hp s).2⟩

theorem transacts_of_forall (h : ∀ s s' a, R s s' a) (p : Program σ α) : p.Transacts R := by
  induction p with
  | done a => trivial
  | step tx next ih => exact fun s => ⟨h _ _ _, ih s⟩

/-- **Sequencing rule.** The last transaction of the first program has what the second answers at
once. -/
theorem transacts_bind {T : σ → σ → Option β → Prop} {p : Program σ α} {k : α → Program σ β}
    (hp : p.Transacts R) (hearlier : ∀ s s', R s s' none → T s s' none)
    (hlast : ∀ s s' a, R s s' (some a) → T s s' (k a).result? ∧ (k a).Transacts T)
    (hdone : ∀ a, p = done a → (k a).Transacts T) : (p >>= k).Transacts T := by
  induction p with
  | done a => exact hdone a rfl
  | step tx next ih =>
      intro s
      obtain ⟨hfirst, hrest⟩ := hp s
      show T s (tx s) (next s >>= k).result? ∧ (next s >>= k).Transacts T
      cases hs : next s with
      | done a =>
          rw [hs] at hfirst
          exact hlast _ _ _ hfirst
      | step tx' next' =>
          rw [hs] at hfirst
          -- the first program goes on, so nothing is answered yet
          refine ⟨hearlier _ _ hfirst, ?_⟩
          rw [← hs]
          refine ih s hrest fun a ha => ?_
          rw [hs] at ha
          exact absurd ha (by simp)

end Transacts

/-- As long as every state it meets satisfies `A`, the transactions of the program stand in `R`
and what it answers satisfies `Q`. -/
def Within (A : σ → Prop) (R : σ → σ → Prop) (Q : α → Prop) : Program σ α → Prop
  | done a => Q a
  | step tx next => ∀ s, A s → R s (tx s) ∧ (next s).Within A R Q

section Within

variable {A : σ → Prop} {R R' : σ → σ → Prop} {Q Q' : α → Prop}

@[simp] theorem within_done (a : α) : (done a : Program σ α).Within A R Q ↔ Q a := Iff.rfl

@[simp] theorem within_step (tx : σ → σ) (next : σ → Program σ α) :
    (step tx next).Within A R Q ↔ ∀ s, A s → R s (tx s) ∧ (next s).Within A R Q := Iff.rfl

theorem within_bind {p : Program σ α} {k : α → Program σ β} {T : β → Prop}
    (hp : p.Within A R Q) (hk : ∀ a, Q a → (k a).Within A R T) : (p >>= k).Within A R T := by
  induction p with
  | done a => exact hk a hp
  | step tx next ih =>
      intro s hs
      obtain ⟨hr, hn⟩ := hp s hs
      exact ⟨hr, ih s hn⟩

theorem Within.mono {p : Program σ α} (hp : p.Within A R Q) (hr : ∀ s s', R s s' → R' s s')
    (hq : ∀ a, Q a → Q' a) : p.Within A R' Q' := by
  induction p with
  | done a => exact hq a hp
  | step tx next ih =>
      intro s hs
      obtain ⟨h, hn⟩ := hp s hs
      exact ⟨hr _ _ h, ih s hn⟩

/-- What holds in one phase holds in a smaller one. -/
theorem Within.anti {A' : σ → Prop} {p : Program σ α} (hp : p.Within A R Q)
    (h : ∀ s, A' s → A s) : p.Within A' R Q := by
  induction p with
  | done a => exact hp
  | step tx next ih =>
      intro s hs
      obtain ⟨hr, hn⟩ := hp s (h s hs)
      exact ⟨hr, ih s hn⟩

/-- The rest of a program may rely on what the first part answers. -/
theorem steps_bind_of_within {p : Program σ α} {k : α → Program σ β}
    (hp : p.Within (fun _ => True) R Q) (hk : ∀ a, Q a → (k a).Steps R) : (p >>= k).Steps R := by
  induction p with
  | done a => exact hk a hp
  | step tx next ih => exact ⟨fun s => (hp s trivial).1, fun s => ih s (hp s trivial).2⟩

theorem within_of_steps {p : Program σ α} (hp : p.Steps R) : p.Within A R fun _ => True := by
  induction p with
  | done a => trivial
  | step tx next ih => exact fun s _ => ⟨hp.1 s, ih s (hp.2 s)⟩

end Within

/-- What the program answers when its transactions meet exactly these states. -/
def outcome? : Program σ α → List σ → Option α
  | done a, [] => some a
  | step _ next, s :: met => (next s).outcome? met
  | _, _ => none

@[simp] theorem outcome?_done (a : α) (met : List σ) :
    (done a : Program σ α).outcome? met = if met = [] then some a else none := by
  cases met with
  | nil => rfl
  | cons s met => rfl

@[simp] theorem outcome?_step_nil (tx : σ → σ) (next : σ → Program σ α) :
    (step tx next).outcome? [] = none := rfl

@[simp] theorem outcome?_step_cons (tx : σ → σ) (next : σ → Program σ α) (s : σ) (met : List σ) :
    (step tx next).outcome? (s :: met) = (next s).outcome? met := rfl

/-- The states met by a program that goes on after another are those met by the one and by the
other. -/
theorem outcome?_bind {p : Program σ α} {k : α → Program σ β} {met : List σ} {b : β}
    (h : (p >>= k).outcome? met = some b) :
    ∃ first rest a, met = first ++ rest ∧ p.outcome? first = some a
      ∧ (k a).outcome? rest = some b := by
  induction p generalizing met with
  | done a => exact ⟨[], met, a, rfl, rfl, h⟩
  | step tx next ih =>
      cases met with
      | nil => exact absurd h (by simp)
      | cons s met =>
          obtain ⟨first, rest, a, rfl, hfirst, hrest⟩ := ih s h
          exact ⟨s :: first, rest, a, rfl, hfirst, hrest⟩

/-- Every transaction of a program that has met these states stands in `J` together with all the
states met before. -/
def Justified (J : List σ → σ → σ → Prop) : Program σ α → List σ → Prop
  | done _, _ => True
  | step tx next, past => ∀ s, J past s (tx s) ∧ (next s).Justified J (past ++ [s])

section Justified

variable {J : List σ → σ → σ → Prop} {R : σ → σ → Prop}

@[simp] theorem justified_done (a : α) (past : List σ) :
    (done a : Program σ α).Justified J past := trivial

/-- A program whose transactions the past already justifies, whatever they will have met. -/
theorem justified_of_steps {p : Program σ α} (hp : p.Steps R) {past : List σ}
    (h : ∀ later s s', R s s' → J (past ++ later) s s') : p.Justified J past := by
  induction p generalizing past with
  | done a => trivial
  | step tx next ih =>
      intro s
      have hfirst := h [] _ _ (hp.1 s)
      rw [List.append_nil] at hfirst
      refine ⟨hfirst, ih s (hp.2 s) fun later s' s'' hr => ?_⟩
      rw [List.append_assoc]
      exact h _ _ _ hr

theorem Justified.mono {J' : List σ → σ → σ → Prop} {p : Program σ α} {past : List σ}
    (hp : p.Justified J past) (h : ∀ past s s', J past s s' → J' past s s') :
    p.Justified J' past := by
  induction p generalizing past with
  | done a => trivial
  | step tx next ih => exact fun s => ⟨h _ _ _ (hp s).1, ih s (hp s).2⟩

/-- The rest of a program may refer to what made the first part answer as it did. -/
theorem justified_bind {p : Program σ α} {k : α → Program σ β} {past : List σ}
    (hp : p.Justified J past)
    (hk : ∀ met a, p.outcome? met = some a → (k a).Justified J (past ++ met)) :
    (p >>= k).Justified J past := by
  induction p generalizing past with
  | done a =>
      have h := hk [] a rfl
      rwa [List.append_nil] at h
  | step tx next ih =>
      intro s
      refine ⟨(hp s).1, ih s (hp s).2 fun met a h => ?_⟩
      rw [List.append_assoc]
      exact hk (s :: met) a h

end Justified

/-- A transaction that meets the invariant keeps it, and moves the store along an order. -/
def Keeping (E : σ → σ → Prop) (I : σ → Prop) (s s' : σ) : Prop := I s → E s s' ∧ I s'

/-- From a store at `s` on, which others only move along `E` and only so that `I` holds, the
transactions of the program keep `I` and move along `E` too. -/
def Keeps (E : σ → σ → Prop) (I : σ → Prop) : Program σ α → σ → Prop
  | done _, _ => True
  | step tx next, s => ∀ met, E s met → I met →
      E met (tx met) ∧ I (tx met) ∧ (next met).Keeps E I (tx met)

section Keeps

variable {E : σ → σ → Prop} {I P : σ → Prop}

/-- What the program could rely on it still can later. -/
theorem Keeps.later (htrans : ∀ {s t u}, E s t → E t u → E s u) {p : Program σ α} {s s' : σ}
    (h : p.Keeps E I s) (hs : E s s') : p.Keeps E I s' := by
  cases p with
  | done a => trivial
  | step tx next => exact fun met hmet hi => h met (htrans hs hmet) hi

/-- A transaction that needs something of the store others do not take away. -/
theorem keeps_step (hlater : ∀ s s', E s s' → P s → P s') {tx : σ → σ} {next : σ → Program σ α}
    (htx : ∀ s, P s → Keeping E I s (tx s)) (hnext : ∀ s, P (tx s) → (next s).Keeps E I (tx s))
    {s : σ} (hs : P s) : (step tx next).Keeps E I s := by
  intro met hmet hi
  have hp := hlater s met hmet hs
  obtain ⟨he, hi'⟩ := htx met hp hi
  exact ⟨he, hi', hnext met (hlater met _ he hp)⟩

/-- A program whose transactions keep the invariant anyway, and then one that needs more. -/
theorem keeps_bind (hlater : ∀ s s', E s s' → P s → P s') {p : Program σ α}
    {k : α → Program σ β} (hp : p.Steps (Keeping E I)) (hk : ∀ a s, P s → (k a).Keeps E I s)
    {s : σ} (hs : P s) : (p >>= k).Keeps E I s := by
  induction p generalizing s with
  | done a => exact hk a s hs
  | step tx next ih =>
      intro met hmet hi
      obtain ⟨he, hi'⟩ := hp.1 met hi
      exact ⟨he, hi', ih met (hp.2 met) (hlater _ _ he (hlater _ _ hmet hs))⟩

/-- A program that keeps the invariant, and then one that does wherever it starts. -/
theorem Keeps.bind {p : Program σ α} {k : α → Program σ β} {s : σ} (hp : p.Keeps E I s)
    (hk : ∀ a s, (k a).Keeps E I s) : (p >>= k).Keeps E I s := by
  induction p generalizing s with
  | done a => exact hk a s
  | step tx next ih =>
      intro met hmet hi
      obtain ⟨he, hi', hnext⟩ := hp met hmet hi
      exact ⟨he, hi', ih met hnext⟩

theorem keeps_of_steps {p : Program σ α} (hp : p.Steps (Keeping E I)) (s : σ) :
    p.Keeps E I s := by
  induction p generalizing s with
  | done a => trivial
  | step tx next ih =>
      intro met _ hi
      obtain ⟨he, hi'⟩ := hp.1 met hi
      exact ⟨he, hi', ih met (hp.2 met) (tx met)⟩

end Keeps

/-- Whatever the program meets, its answer will satisfy `Q`. -/
def Bound (Q : α → Prop) : Program σ α → Prop
  | done a => Q a
  | step _ next => ∀ s, (next s).Bound Q

@[simp] theorem bound_done {Q : α → Prop} (a : α) : (done a : Program σ α).Bound Q ↔ Q a := Iff.rfl

@[simp] theorem bound_step {Q : α → Prop} (tx : σ → σ) (next : σ → Program σ α) :
    (step tx next).Bound Q ↔ ∀ s, (next s).Bound Q := Iff.rfl

theorem Bound.mono {Q Q' : α → Prop} {p : Program σ α} (hp : p.Bound Q) (h : ∀ a, Q a → Q' a) :
    p.Bound Q' := by
  induction p with
  | done a => exact h a hp
  | step tx next ih => exact fun s => ih s (hp s)

/-- A program answers something. -/
theorem not_bound_false [Nonempty σ] (p : Program σ α) : ¬ p.Bound fun _ => False := by
  induction p with
  | done a => exact id
  | step tx next ih => exact fun h => ih (Classical.arbitrary σ) (h _)

theorem Bound.and {Q Q' : α → Prop} {p : Program σ α} (hp : p.Bound Q) (hp' : p.Bound Q') :
    p.Bound fun a => Q a ∧ Q' a := by
  induction p with
  | done a => exact ⟨hp, hp'⟩
  | step tx next ih => exact fun s => ih s (hp s) (hp' s)

/-- What two settled parts of an answer say holds of some answer. -/
theorem exists_of_bound [Nonempty σ] {Q Q' : α → Prop} {p : Program σ α} (hp : p.Bound Q)
    (hp' : p.Bound Q') : ∃ a, Q a ∧ Q' a := by
  by_contra hno
  refine not_bound_false p ((hp.and hp').mono fun a h => ?_)
  exact hno ⟨a, h⟩

/-- The program answers when, before each of its transactions, others may take the store from
where it is to any state `E` allows. -/
inductive Answers (E : σ → σ → Prop) : σ → Program σ α → α → σ → Prop
  | done (s : σ) (a : α) : Answers E s (done a) a s
  | step {s met s' : σ} {tx : σ → σ} {next : σ → Program σ α} {a : α} (others : E s met)
      (rest : Answers E (tx met) (next met) a s') : Answers E s (step tx next) a s'

section Answers

variable {E : σ → σ → Prop} {s s' : σ}

theorem answers_done {a b : α} : (done a : Program σ α).Answers E s b s' ↔ b = a ∧ s' = s := by
  constructor
  · intro h
    cases h
    exact ⟨rfl, rfl⟩
  · intro h
    rw [h.1, h.2]
    exact .done s a

theorem answers_step {tx : σ → σ} {next : σ → Program σ α} {a : α} :
    (step tx next).Answers E s a s' ↔ ∃ met, E s met ∧ (next met).Answers E (tx met) a s' := by
  constructor
  · intro h
    cases h with
    | step others rest => exact ⟨_, others, rest⟩
  · rintro ⟨met, others, rest⟩
    exact .step others rest

theorem answers_bind {p : Program σ α} {k : α → Program σ β} {b : β} :
    (p >>= k).Answers E s b s' ↔ ∃ a met, p.Answers E s a met ∧ (k a).Answers E met b s' := by
  constructor
  · intro h
    induction p generalizing s with
    | done a => exact ⟨a, s, .done s a, h⟩
    | step tx next ih =>
        obtain ⟨met, others, rest⟩ := answers_step.mp h
        obtain ⟨a, later, hp, hk⟩ := ih met rest
        exact ⟨a, later, .step others hp, hk⟩
  · rintro ⟨a, met, hp, hk⟩
    induction hp with
    | done s a => exact hk
    | step others rest ih => exact .step others (ih hk)

/-- What a program answers from a later state on it may answer from an earlier one on. -/
theorem Answers.earlier (htrans : ∀ {s t u}, E s t → E t u → E s u) {p : Program σ α} {later : σ}
    {a : α} (hlater : E s later) (h : p.Answers E later a s') :
    p.Answers E s a s' ∨ ∃ b, p = Program.done b ∧ a = b ∧ s' = later := by
  cases h with
  | done _ _ => exact Or.inr ⟨a, rfl, rfl, rfl⟩
  | step others rest => exact Or.inl (.step (htrans hlater others) rest)

theorem answers_read_bind {q : σ → α} {k : α → Program σ β} {b : β} :
    (read q >>= k).Answers E s b s' ↔ ∃ met, E s met ∧ (k (q met)).Answers E met b s' := by
  rw [read_bind, answers_step]

end Answers

end Program

end Concurrent
