import LiteSql.Statement.Params

/-!
# Results and what they are refused for

All that is wrong with an input can be listed in the order in which it is looked for. A
result *reflects* such a list if it is an error for the first item, and a success without
items. A step of writing `Reports` a list if its result reflects it from every counter, so
the ways to put steps together follow from those for results.
-/

namespace LiteSql

/-- The result is an error for the first violation, or there is none and it succeeds. -/
def Reflects {α : Type} (x : Except Error α) : List Error → Prop
  | [] => ∃ a, x = .ok a
  | e :: _ => x = .error e

namespace Reflects

variable {α β : Type}

theorem of_ok {x : Except Error α} {a : α} (h : x = .ok a) : Reflects x [] :=
  ⟨a, h⟩

theorem of_error {x : Except Error α} {e : Error} (h : x = .error e) (es : List Error) :
    Reflects x (e :: es) :=
  h

theorem ok (a : α) : Reflects (.ok a) [] :=
  of_ok rfl

theorem error (e : Error) (es : List Error) : Reflects (.error e : Except Error α) (e :: es) :=
  of_error rfl es

/-- After a failure nothing else is looked for. -/
theorem stop {x : Except Error α} {e : Error} {es : List Error} (h : Reflects x (e :: es))
    (next : α → Except Error β) (es' : List Error) : Reflects (x >>= next) (e :: es') := by
  have hx : x = .error e := h
  rw [hx]
  exact .error e es'

theorem bind {x : Except Error α} {next : α → Except Error β} {es es' : List Error}
    (h : Reflects x es) (hnext : ∀ a, Reflects (next a) es') :
    Reflects (x >>= next) (es ++ es') := by
  cases es with
  | cons e es => exact h.stop next (es ++ es')
  | nil =>
      obtain ⟨a, rfl⟩ := h
      exact hnext a

theorem map {x : Except Error α} {es : List Error} (h : Reflects x es) (f : α → β) :
    Reflects (do let a ← x; return f a) es := by
  have hboth := h.bind fun a => ok (f a)
  rwa [List.append_nil] at hboth

/-- A check before the rest refuses its own violation first. -/
theorem check {p q : Prop} [Decidable p] [Decidable q] (hpq : p ↔ q) {e : Error}
    {x : Except Error α} {es : List Error} (h : Reflects x es) :
    Reflects (if p then .error e else x) ((if q then [e] else []) ++ es) := by
  by_cases hp : p
  · rw [if_pos hp, if_pos (hpq.mp hp)]
    exact .error e es
  · rw [if_neg hp, if_neg (mt hpq.mpr hp)]
    exact h

theorem exists_ok_iff {x : Except Error α} {es : List Error} (h : Reflects x es) :
    (∃ a, x = .ok a) ↔ es = [] := by
  cases es with
  | nil => exact iff_of_true h rfl
  | cons e es =>
      have hx : x = .error e := h
      simp [hx]

theorem eq_error_iff {x : Except Error α} {es : List Error} (h : Reflects x es) (e : Error) :
    x = .error e ↔ es.head? = some e := by
  cases es with
  | nil =>
      obtain ⟨a, rfl⟩ := h
      simp
  | cons e' es =>
      have hx : x = .error e' := h
      simp [hx]

end Reflects

namespace Emit

variable {α β : Type}

/-- What a step gives from a counter: a value with the counter after it, or an error. -/
def result (step : Emit α) (p : Params) : Except Error (α × Params) :=
  match step.run p with
  | .ok a p' => .ok (a, p')
  | .error e _ => .error e

theorem result_bind (step : Emit α) (next : α → Emit β) (p : Params) :
    result (step >>= next) p = step.result p >>= fun r => (next r.1).result r.2 := by
  rw [result, result, EStateM.run_bind]
  cases step.run p with
  | ok a p' => rfl
  | error e p' => rfl

theorem compile_eq_result (step : Emit Text) :
    step.compile = (do let r ← step.result {}; return ⟨String.ofList r.1, r.2.values⟩) := by
  rw [compile, result]
  cases step.run {} with
  | ok s p => rfl
  | error e p => rfl

/-- The step fails with the first of the errors, or succeeds if there is none. -/
def Reports (step : Emit α) (es : List Error) : Prop :=
  ∀ p, Reflects (step.result p) es

namespace Reports

theorem pure (a : α) : Reports (pure a) [] :=
  fun p => .ok (a, p)

theorem throw (e : Error) : Reports (throw e : Emit α) [e] :=
  fun _ => .error e []

theorem stop {step : Emit α} {e : Error} {es : List Error} (h : step.Reports (e :: es))
    (next : α → Emit β) (es' : List Error) : Reports (step >>= next) (e :: es') := by
  intro p
  rw [result_bind]
  exact (h p).stop _ es'

theorem bind {step : Emit α} {next : α → Emit β} {es es' : List Error}
    (h : step.Reports es) (hnext : ∀ a, (next a).Reports es') :
    Reports (step >>= next) (es ++ es') := by
  intro p
  rw [result_bind]
  exact (h p).bind fun r => hnext r.1 r.2

theorem map {step : Emit α} {es : List Error} (h : step.Reports es) (f : α → β) :
    Reports (do let a ← step; return f a) es := by
  have hboth := h.bind fun a => Reports.pure (f a)
  rwa [List.append_nil] at hboth

theorem ofExcept {x : Except Error α} {es : List Error} (h : Reflects x es) :
    Reports (ofExcept x) es := by
  cases es with
  | nil =>
      obtain ⟨a, rfl⟩ := h
      exact .pure a
  | cons e es =>
      have hx : x = .error e := h
      rw [hx]
      exact fun _ => .error e es

theorem refuseIf (condition : Bool) (e : Error) :
    Reports (refuseIf condition e) (if condition then [e] else []) := by
  cases condition with
  | false => exact .pure ()
  | true => exact .throw e

theorem bindValue (v : Value) : (bindValue v).Reports [] :=
  fun _ => .ok _

theorem bindValues (vs : List Value) : (bindValues vs).Reports [] := by
  induction vs with
  | nil => exact .pure []
  | cons v vs ih => exact (bindValue v).bind fun s => ih.map (s :: ·)

theorem forEach {step : α → Emit Text} {violations : α → List Error}
    (h : ∀ a, (step a).Reports (violations a)) (as : List α) :
    (forEach step as).Reports (as.flatMap violations) := by
  induction as with
  | nil => exact .pure []
  | cons a as ih => exact (h a).bind fun s => ih.map (s :: ·)

theorem concat_cons {part : Emit Text} {parts : List (Emit Text)} {es : List Error}
    {ess : List (List Error)} (h₁ : part.Reports es) (h₂ : (concat parts).Reports ess.flatten) :
    (concat (part :: parts)).Reports (es :: ess).flatten :=
  h₁.bind fun s => h₂.map (s ++ ·)

theorem compile {step : Emit Text} {es : List Error} (h : step.Reports es) :
    Reflects step.compile es := by
  rw [compile_eq_result]
  exact (h {}).map _

end Reports

end Emit

end LiteSql
