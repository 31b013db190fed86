import Mathlib.Data.List.Basic

/-!
# Runs of a deterministic machine

A machine answers an action in a state with an output and a next state. A run feeds
it a list of actions and records, for each, the state before, the action, the
output and the state after. Whatever holds of every list of actions holds of every
order in which the actions could have arrived.

The rules here are the only inductions over runs a development needs: an invariant
kept by one step holds throughout (`inv_history`), and a fact one event leaves behind
and every step keeps relates that event to all later ones (`pairwise_history`). Both
take a guard, the condition a run's steps are assumed to meet.
-/

namespace Transition

/-- One step of a run. -/
structure Event (σ α ω : Type) where
  /-- The state the action met. -/
  before : σ
  /-- The action. -/
  act : α
  /-- What the machine answered. -/
  out : ω
  /-- The state it left. -/
  after : σ

variable {σ α ω : Type} (step : α → σ → ω × σ)

/-- The state after a list of actions. -/
def run (s : σ) : List α → σ
  | [] => s
  | a :: as => run (step a s).2 as

/-- The events of a list of actions, in order. -/
def history (s : σ) : List α → List (Event σ α ω)
  | [] => []
  | a :: as => ⟨s, a, (step a s).1, (step a s).2⟩ :: history (step a s).2 as

@[simp] theorem run_nil (s : σ) : run step s [] = s := rfl

@[simp] theorem run_cons (s : σ) (a : α) (as : List α) :
    run step s (a :: as) = run step (step a s).2 as := rfl

@[simp] theorem history_nil (s : σ) : history step s [] = [] := rfl

@[simp] theorem history_cons (s : σ) (a : α) (as : List α) :
    history step s (a :: as)
      = ⟨s, a, (step a s).1, (step a s).2⟩ :: history step (step a s).2 as := rfl

theorem run_append (s : σ) (as bs : List α) :
    run step s (as ++ bs) = run step (run step s as) bs := by
  induction as generalizing s with
  | nil => rfl
  | cons a as ih => exact ih _

theorem history_append (s : σ) (as bs : List α) :
    history step s (as ++ bs) = history step s as ++ history step (run step s as) bs := by
  induction as generalizing s with
  | nil => rfl
  | cons a as ih => simp only [List.cons_append, history_cons, run_cons, ih]

/-- The last action of a run is met by the state the others reach. -/
theorem last_mem_history (s : σ) (as : List α) (a : α) :
    (⟨run step s as, a, (step a (run step s as)).1, (step a (run step s as)).2⟩ : Event σ α ω)
      ∈ history step s (as ++ [a]) := by
  rw [history_append]
  exact List.mem_append_right _ List.mem_cons_self

variable {step}

/-- An event says what the machine did in its state. -/
theorem step_of_mem {s : σ} {as : List α} {e : Event σ α ω} (he : e ∈ history step s as) :
    step e.act e.before = (e.out, e.after) := by
  induction as generalizing s with
  | nil => exact absurd he List.not_mem_nil
  | cons a as ih =>
      rcases List.mem_cons.mp he with rfl | he
      · rfl
      · exact ih he

theorem after_of_mem {s : σ} {as : List α} {e : Event σ α ω} (he : e ∈ history step s as) :
    e.after = (step e.act e.before).2 := by rw [step_of_mem he]

theorem act_mem {s : σ} {as : List α} {e : Event σ α ω} (he : e ∈ history step s as) :
    e.act ∈ as := by
  induction as generalizing s with
  | nil => exact absurd he List.not_mem_nil
  | cons a as ih =>
      rcases List.mem_cons.mp he with rfl | he
      · exact List.mem_cons_self
      · exact List.mem_cons_of_mem _ (ih he)

/-- Every event happens at the end of a run over the actions before it. -/
theorem before_eq_run {s : σ} {as : List α} {e : Event σ α ω} (he : e ∈ history step s as) :
    ∃ pre post, as = pre ++ e.act :: post ∧ e.before = run step s pre := by
  induction as generalizing s with
  | nil => exact absurd he List.not_mem_nil
  | cons a as ih =>
      rcases List.mem_cons.mp he with rfl | he
      · exact ⟨[], as, rfl, rfl⟩
      · obtain ⟨pre, post, rfl, hb⟩ := ih he
        exact ⟨a :: pre, post, rfl, hb⟩

/-- The same, by the place of its action. -/
theorem before_eq_run_take {s : σ} {as : List α} {e : Event σ α ω} (he : e ∈ history step s as) :
    ∃ n, as[n]? = some e.act ∧ e.before = run step s (as.take n) := by
  obtain ⟨pre, post, rfl, hb⟩ := before_eq_run he
  refine ⟨pre.length, ?_, ?_⟩
  · simp
  · rw [hb, List.take_left']
    rfl

/-- What does not hold at the start and holds at the end came about at some event. -/
theorem exists_event {P : σ → Prop} {s : σ} {as : List α} (h₀ : ¬ P s) (h : P (run step s as)) :
    ∃ e ∈ history step s as, ¬ P e.before ∧ P e.after := by
  induction as generalizing s with
  | nil => exact absurd h h₀
  | cons a as ih =>
      by_cases h₁ : P (step a s).2
      · exact ⟨_, List.mem_cons_self, h₀, h₁⟩
      · obtain ⟨e, he, hP⟩ := ih h₁ h
        exact ⟨e, List.mem_cons_of_mem _ he, hP⟩

/-! ## Invariants -/

section Relation

variable {R : σ → σ → Prop}

/-- **Order rule.** A preorder every step goes up in relates a state to every later one. -/
theorem rel_run (hrefl : ∀ s, R s s) (htrans : ∀ {s t u}, R s t → R t u → R s u)
    (hstep : ∀ s a, R s (step a s).2) (s : σ) (as : List α) : R s (run step s as) := by
  induction as generalizing s with
  | nil => exact hrefl s
  | cons a as ih => exact htrans (hstep s a) (ih _)

/-- The same, where only the events of the run are known to go up. -/
theorem rel_history (hrefl : ∀ s, R s s) (htrans : ∀ {s t u}, R s t → R t u → R s u) {s : σ}
    {as : List α} (h : ∀ e ∈ history step s as, R e.before e.after) : R s (run step s as) := by
  induction as generalizing s with
  | nil => exact hrefl s
  | cons a as ih =>
      rw [history_cons] at h
      exact htrans (h _ List.mem_cons_self) (ih fun e he => h e (List.mem_cons_of_mem _ he))

/-- The same, from what an event of the run left. -/
theorem rel_history_of_mem (hrefl : ∀ s, R s s) (htrans : ∀ {s t u}, R s t → R t u → R s u) {s : σ}
    {as : List α} (h : ∀ e ∈ history step s as, R e.before e.after) {e : Event σ α ω}
    (he : e ∈ history step s as) : R e.after (run step s as) := by
  induction as generalizing s with
  | nil => exact absurd he List.not_mem_nil
  | cons a as ih =>
      rw [history_cons] at h he
      have hlater := fun e he => h e (List.mem_cons_of_mem _ he)
      rcases List.mem_cons.mp he with rfl | he
      · exact rel_history hrefl htrans hlater
      · exact ih hlater he

/-- What a step leaves, wherever it starts. -/
theorem rel_of_mem (hrefl : ∀ s, R s s) (htrans : ∀ {s t u}, R s t → R t u → R s u)
    (hstep : ∀ s a, R s (step a s).2) {s : σ} {as : List α} {e : Event σ α ω}
    (he : e ∈ history step s as) : R e.after (run step s as) := by
  induction as generalizing s with
  | nil => exact absurd he List.not_mem_nil
  | cons a as ih =>
      rcases List.mem_cons.mp he with rfl | he
      · exact rel_run hrefl htrans hstep _ as
      · exact ih he

end Relation

section Invariant

variable {G : σ → α → Prop} {I : σ → Prop}

/-- **Invariant rule.** What holds at the start and is kept by every step that meets the
guard holds before and after every event of a run that meets it. -/
theorem inv_history (hstep : ∀ s a, I s → G s a → I (step a s).2) {s : σ} {as : List α}
    (h₀ : I s) (hg : ∀ e ∈ history step s as, G e.before e.act) :
    ∀ e ∈ history step s as, I e.before ∧ I e.after := by
  induction as generalizing s with
  | nil => exact fun e he => absurd he List.not_mem_nil
  | cons a as ih =>
      rw [history_cons] at hg ⊢
      have h₁ : I (step a s).2 := hstep s a h₀ (hg _ List.mem_cons_self)
      intro e he
      rcases List.mem_cons.mp he with rfl | he
      · exact ⟨h₀, h₁⟩
      · exact ih h₁ (fun e he => hg e (List.mem_cons_of_mem _ he)) e he

/-- The same, at the end of the run. -/
theorem inv_run (hstep : ∀ s a, I s → G s a → I (step a s).2) {s : σ} {as : List α}
    (h₀ : I s) (hg : ∀ e ∈ history step s as, G e.before e.act) :
    I (run step s as) := by
  induction as generalizing s with
  | nil => exact h₀
  | cons a as ih =>
      rw [history_cons] at hg
      exact ih (hstep s a h₀ (hg _ List.mem_cons_self))
        fun e he => hg e (List.mem_cons_of_mem _ he)

/-- The invariant rule for a guard on the actions alone. -/
theorem inv_run_of_forall {P : α → Prop} (hstep : ∀ s a, I s → P a → I (step a s).2)
    {s : σ} {as : List α} (h₀ : I s) (hP : ∀ a ∈ as, P a) : I (run step s as) :=
  inv_run (G := fun _ a => P a) hstep h₀ fun _ he => hP _ (act_mem he)

theorem inv_history_of_forall {P : α → Prop} (hstep : ∀ s a, I s → P a → I (step a s).2)
    {s : σ} {as : List α} (h₀ : I s) (hP : ∀ a ∈ as, P a) :
    ∀ e ∈ history step s as, I e.before ∧ I e.after :=
  inv_history (G := fun _ a => P a) hstep h₀ fun _ he => hP _ (act_mem he)

/-! ## What an event leaves behind -/

/-- A fact that holds now and is kept by every step holds before every later event. -/
theorem mem_of_kept {Q : σ → Prop}
    (hstep : ∀ s a, I s → G s a → I (step a s).2)
    (hkeep : ∀ s a, I s → G s a → Q s → Q (step a s).2) {s : σ} {as : List α}
    (h₀ : I s) (hq : Q s) (hg : ∀ e ∈ history step s as, G e.before e.act) :
    ∀ e ∈ history step s as, Q e.before ∧ I e.before := by
  have hboth := inv_history (I := fun s => I s ∧ Q s)
    (fun s a h hga => ⟨hstep s a h.1 hga, hkeep s a h.1 hga h.2⟩) ⟨h₀, hq⟩ hg
  exact fun e he => ⟨(hboth e he).1.2, (hboth e he).1.1⟩

/-- **Pair rule.** If every event leaves `Q` behind, every step keeps it, and an event met by
`Q` stands in the relation `R` to the one that left it, then `R` holds of every event and
every later one. -/
theorem pairwise_history {Q : Event σ α ω → σ → Prop} {R : Event σ α ω → Event σ α ω → Prop}
    (hstep : ∀ s a, I s → G s a → I (step a s).2)
    (hleave : ∀ s a, I s → G s a → Q ⟨s, a, (step a s).1, (step a s).2⟩ (step a s).2)
    (hkeep : ∀ e s a, I s → G s a → Q e s → Q e (step a s).2)
    (hrel : ∀ e s a, I s → G s a → Q e s → R e ⟨s, a, (step a s).1, (step a s).2⟩)
    {s : σ} {as : List α} (h₀ : I s)
    (hg : ∀ e ∈ history step s as, G e.before e.act) :
    (history step s as).Pairwise R := by
  induction as generalizing s with
  | nil => exact List.Pairwise.nil
  | cons a as ih =>
      rw [history_cons] at hg ⊢
      have hga : G s a := hg _ List.mem_cons_self
      have hg' : ∀ e ∈ history step (step a s).2 as, G e.before e.act :=
        fun e he => hg e (List.mem_cons_of_mem _ he)
      have h₁ := hstep s a h₀ hga
      refine List.Pairwise.cons ?_ (ih h₁ hg')
      intro e he
      have hq := mem_of_kept hstep (fun s a hi hga => hkeep _ s a hi hga) h₁
        (hleave s a h₀ hga) hg' e he
      have := hrel _ e.before e.act hq.2 (hg' e he) hq.1
      rwa [step_of_mem he] at this

end Invariant

/-! ## Labelled paths -/

/-- A list of labels that leads from one state to another, each label by a transition. -/
inductive Path {σ ε : Type} (T : σ → ε → σ → Prop) : σ → List ε → σ → Prop
  | nil (s : σ) : Path T s [] s
  | cons {s t u : σ} {l : ε} {ls : List ε} (head : T s l t) (tail : Path T t ls u) :
      Path T s (l :: ls) u

namespace Path

variable {σ ε : Type} {T : σ → ε → σ → Prop}

theorem snoc {s t u : σ} {ls : List ε} {l : ε} (h : Path T s ls t) (hl : T t l u) :
    Path T s (ls ++ [l]) u := by
  induction h with
  | nil s => exact .cons hl (.nil u)
  | cons head tail ih => exact .cons head (ih hl)

/-- Labels next to each other meet in a state. -/
theorem isChain {s u : σ} {ls : List ε} (h : Path T s ls u) :
    ls.IsChain fun l l' => ∃ r t v, T r l t ∧ T t l' v := by
  induction h with
  | nil s => exact .nil
  | cons head tail ih =>
      cases tail with
      | nil => exact .singleton _
      | cons head' tail' => exact .cons_cons ⟨_, _, _, head, head'⟩ ih

/-- The first label starts where the path starts. -/
theorem head {s u : σ} {l : ε} {ls : List ε} (h : Path T s (l :: ls) u) : ∃ t, T s l t := by
  cases h with
  | cons head tail => exact ⟨_, head⟩

/-- The last label ends where the path ends. -/
theorem last {s u : σ} {ls : List ε} (h : Path T s ls u) {l : ε} (hl : ls.getLast? = some l) :
    ∃ t, T t l u := by
  induction h with
  | nil s => exact absurd hl (by simp)
  | cons head tail ih =>
      cases tail with
      | nil =>
          obtain rfl := Option.some.inj hl
          exact ⟨_, head⟩
      | cons head' tail' => exact ih (by simpa using hl)

end Path

/-- At most one element satisfies `p` when no two of them both do. -/
theorem length_filter_le_one {β : Type} {p : β → Bool} {l : List β}
    (h : l.Pairwise fun a b => p a = true → p b = false) : (l.filter p).length ≤ 1 := by
  induction l with
  | nil => simp
  | cons a l ih =>
      obtain ⟨ha, hl⟩ := List.pairwise_cons.mp h
      rw [List.filter_cons]
      split
      · rename_i hpa
        have hnone : l.filter p = [] := by
          rw [List.filter_eq_nil_iff]
          intro b hb
          simp [ha b hb hpa]
        simp [hnone]
      · exact ih hl

end Transition
