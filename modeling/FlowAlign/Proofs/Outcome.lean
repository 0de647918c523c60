import FlowAlign.Logged
import Mathlib.Data.List.Forall2

/-!
Outcomes of computations that may fail. Notes do not influence an outcome, so a logged computation is
followed through its outcome alone.
-/

namespace FlowAlign

namespace Outcome

variable {ε β γ : Type}

@[simp] theorem ok_bind (value : β) (next : β → Except ε γ) :
    (Except.ok value >>= next) = next value :=
  rfl

@[simp] theorem error_bind (fault : ε) (next : β → Except ε γ) :
    (Except.error fault >>= next) = .error fault :=
  rfl

@[simp] theorem pure_eq (value : β) : (pure value : Except ε β) = .ok value :=
  rfl

theorem bind_eq_ok {run : Except ε β} {next : β → Except ε γ} {result : γ}
    (succeeded : (run >>= next) = .ok result) :
    ∃ value, run = .ok value ∧ next value = .ok result := by
  cases run with
  | error fault => simp at succeeded
  | ok value => exact ⟨value, rfl, succeeded⟩

theorem bind_eq_error {run : Except ε β} {next : β → Except ε γ} {fault : ε}
    (failed : (run >>= next) = .error fault) :
    run = .error fault ∨ ∃ value, run = .ok value ∧ next value = .error fault := by
  cases run with
  | error cause => exact Or.inl (by simpa using failed)
  | ok value => exact Or.inr ⟨value, rfl, failed⟩

theorem map_fst_bind (run : Except ε β) (state : γ) :
    (run >>= fun value => Except.ok (value, state)).map Prod.fst = run := by
  cases run <;> rfl

theorem map_eq_error {run : Except ε β} {view : β → γ} {fault : ε}
    (failed : run.map view = .error fault) : run = .error fault := by
  cases run with
  | error cause => simpa [Except.map] using failed
  | ok value => cases failed

theorem eq_ok_of_toOption {run : Except ε β} {value : β} (found : run.toOption = some value) :
    run = .ok value := by
  cases run with
  | error fault => simp [Except.toOption] at found
  | ok result => simpa [Except.toOption] using found

theorem toOption_map_eq_some {run : Except ε β} {view : β → γ} {value : γ}
    (viewed : run.toOption.map view = some value) :
    ∃ result, run = .ok result ∧ view result = value := by
  cases run with
  | error fault => simp [Except.toOption] at viewed
  | ok result => exact ⟨result, rfl, by simpa [Except.toOption] using viewed⟩

theorem mapM_ok {run : β → Except ε γ} {result : β → γ} {items : List β}
    (each : ∀ item ∈ items, run item = .ok (result item)) :
    items.mapM run = .ok (items.map result) := by
  induction items with
  | nil => rfl
  | cons item rest ih =>
      have tail := ih fun other member => each other (List.mem_cons_of_mem _ member)
      rw [List.mapM_cons, each item List.mem_cons_self, tail]
      rfl

theorem mapM_related {run : β → Except ε γ} {good : β → γ → Prop} {items : List β}
    (each : ∀ item ∈ items, ∃ result, run item = .ok result ∧ good item result) :
    ∃ results, items.mapM run = .ok results ∧ List.Forall₂ good items results := by
  induction items with
  | nil => exact ⟨[], rfl, .nil⟩
  | cons item rest ih =>
      obtain ⟨result, first, isGood⟩ := each item List.mem_cons_self
      obtain ⟨results, others, areGood⟩ :=
        ih fun other member => each other (List.mem_cons_of_mem _ member)
      refine ⟨result :: results, ?_, .cons isGood areGood⟩
      rw [List.mapM_cons, first, others]
      rfl

theorem related_of_mapM {run : β → Except ε γ} {items : List β} : ∀ {results : List γ},
    items.mapM run = .ok results →
      List.Forall₂ (fun item result => run item = .ok result) items results := by
  induction items with
  | nil =>
      intro results succeeded
      obtain rfl : [] = results := Except.ok.inj succeeded
      exact .nil
  | cons item rest ih =>
      intro results succeeded
      rw [List.mapM_cons] at succeeded
      obtain ⟨value, first, succeeded⟩ := bind_eq_ok succeeded
      obtain ⟨values, later, succeeded⟩ := bind_eq_ok succeeded
      obtain rfl : value :: values = results := Except.ok.inj succeeded
      exact .cons first (ih later)

theorem mapM_error {run : β → Except ε γ} {items : List β} {fault : ε}
    (failed : items.mapM run = .error fault) : ∃ item ∈ items, run item = .error fault := by
  induction items with
  | nil => cases failed
  | cons item rest ih =>
      rw [List.mapM_cons] at failed
      rcases bind_eq_error failed with first | ⟨value, _, failed⟩
      · exact ⟨item, List.mem_cons_self, first⟩
      · rcases bind_eq_error failed with later | ⟨values, _, failed⟩
        · obtain ⟨other, member, found⟩ := ih later
          exact ⟨other, List.mem_cons_of_mem _ member, found⟩
        · cases failed

end Outcome

namespace Logged

variable {ε β γ : Type}

@[simp] theorem outcome_pure (value : β) : (pure value : Logged ε β).outcome = .ok value :=
  rfl

@[simp] theorem outcome_bind (first : Logged ε β) (next : β → Logged ε γ) :
    (first >>= next).outcome = first.outcome >>= fun value => (next value).outcome := by
  change (first.andThen next).outcome = _
  cases succeeded : first.outcome with
  | error fault => simp only [andThen, succeeded, Outcome.error_bind]
  | ok value => simp only [andThen, succeeded, Outcome.ok_bind]

instance : LawfulMonad (Logged ε) := by
  refine .mk' _ ?_ ?_ ?_
  · intro β run
    change run.andThen (fun value => { notes := [], outcome := .ok value }) = run
    cases run with
    | mk notes outcome => cases outcome <;> simp [andThen]
  · intro β γ value next
    change Logged.andThen { notes := [], outcome := .ok value } next = next value
    simp [andThen]
  · intro β γ δ run next final
    change (run.andThen next).andThen final = run.andThen fun value => (next value).andThen final
    cases run with
    | mk notes outcome =>
        cases outcome with
        | error fault => simp [andThen]
        | ok value =>
            simp only [andThen]
            split <;> simp

theorem outcome_mapM (run : β → Logged ε γ) (items : List β) :
    (items.mapM run).outcome = items.mapM fun item => (run item).outcome := by
  induction items with
  | nil => rfl
  | cons item rest ih => simp only [List.mapM_cons, outcome_bind, outcome_pure, ih]; rfl

theorem ofExcept_ok (value : β) : (ofExcept (.ok value) : Logged ε β) = pure value :=
  rfl

@[simp] theorem outcome_ofExcept (run : Except ε β) : (ofExcept run).outcome = run :=
  rfl

@[simp] theorem outcome_liftM (run : Except ε β) : (liftM run : Logged ε β).outcome = run :=
  rfl

@[simp] theorem outcome_note (left : Note) : (note left : Logged ε Unit).outcome = .ok () :=
  rfl

@[simp] theorem outcome_leave (left : List Note) : (leave left : Logged ε Unit).outcome = .ok () :=
  rfl

@[simp] theorem outcome_fail (fault : ε) : (fail fault : Logged ε β).outcome = .error fault :=
  rfl

@[simp] theorem outcome_attempt (run : Logged ε β) : run.attempt.outcome = .ok run.outcome :=
  rfl

end Logged

end FlowAlign
