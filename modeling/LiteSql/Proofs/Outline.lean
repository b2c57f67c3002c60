import LiteSql.Statement.Params

/-!
# Outlines of texts with placeholders

An outline is a text in which values stand where a statement binds them.
`Outline.sql` writes it with placeholders, numbered on from a given number, and
`Outline.values` lists the values in the order of their placeholders. The gaps
of an outline have no numbers, so the same outline describes a text wherever it
stands in a statement.

A step `Writes` an outline when it does so from every counter, and `Binds` the
values of an outline when it either writes one with these values or fails from
every counter. The lemmas on `Binds` follow the ways in which the steps of a
statement are put together.
-/

namespace LiteSql

/-- A text in which values stand where they are bound. -/
inductive Outline
  | text (s : Text)
  | gap (before : Text) (value : Value) (after : Outline)

namespace Outline

def values : Outline → List Value
  | text _ => []
  | gap _ v o => v :: o.values

/-- The text with a placeholder in each gap, numbered on from `i`. -/
def sql (i : Nat) : Outline → Text
  | text s => s
  | gap s _ o => s ++ placeholder (i + 1) ++ o.sql (i + 1)

def after (s : Text) : Outline → Outline
  | text t => text (s ++ t)
  | gap t v o => gap (s ++ t) v o

def append : Outline → Outline → Outline
  | text s, o' => o'.after s
  | gap s v o, o' => gap s v (o.append o')

@[simp] theorem values_after (s : Text) (o : Outline) :
    (o.after s).values = o.values := by
  cases o <;> rfl

@[simp] theorem sql_after (i : Nat) (s : Text) (o : Outline) :
    (o.after s).sql i = s ++ o.sql i := by
  cases o <;> simp [after, sql]

@[simp] theorem values_append (o o' : Outline) :
    (o.append o').values = o.values ++ o'.values := by
  induction o with
  | text s => simp [append, values]
  | gap s v o ih => simp [append, values, ih]

/-- The second part goes on with the number at which the first one ends. -/
@[simp] theorem sql_append (i : Nat) (o o' : Outline) :
    (o.append o').sql i = o.sql i ++ o'.sql (i + o.values.length) := by
  induction o generalizing i with
  | text s => simp [append, sql, values]
  | gap s v o ih =>
      have hcount : i + 1 + o.values.length = i + (o.values.length + 1) := by omega
      simp [append, sql, values, ih, hcount]

def sqls : Nat → List Outline → List Text
  | _, [] => []
  | i, o :: os => o.sql i :: sqls (i + o.values.length) os

@[simp] theorem length_sqls (i : Nat) (os : List Outline) :
    (sqls i os).length = os.length := by
  induction os generalizing i with
  | nil => rfl
  | cons o os ih => simp [sqls, ih]

def between (left right : Text) (o : Outline) : Outline :=
  (o.append (text right)).after left

@[simp] theorem values_between (left right : Text) (o : Outline) :
    (o.between left right).values = o.values := by
  simp [between, values]

@[simp] theorem sql_between (i : Nat) (left right : Text) (o : Outline) :
    (o.between left right).sql i = left ++ (o.sql i ++ right) := by
  simp [between, sql]

def joined (separator : String) : List Outline → Outline
  | [] => text []
  | [o] => o
  | o :: o' :: os => o.append ((joined separator (o' :: os)).after separator.toList)

@[simp] theorem values_joined (separator : String) (os : List Outline) :
    (joined separator os).values = os.flatMap values := by
  induction os using joined.induct with
  | case1 => rfl
  | case2 o => simp [joined]
  | case3 o o' os ih => simp [joined, ih]

@[simp] theorem sql_joined (i : Nat) (separator : String) (os : List Outline) :
    (joined separator os).sql i = Text.joined separator (sqls i os) := by
  induction os using joined.induct generalizing i with
  | case1 => rfl
  | case2 o => simp [joined, sqls, Text.joined]
  | case3 o o' os ih =>
      have hrest := ih (i + o.values.length)
      simp only [Text.joined, sqls] at hrest
      simp [joined, sqls, Text.joined, hrest]

theorem flatMap_values_between (left right : Text) (os : List Outline) :
    (os.map (between left right)).flatMap values = os.flatMap values := by
  simp [List.flatMap_map]

theorem sqls_between (i : Nat) (left right : Text) (os : List Outline) :
    sqls i (os.map (between left right)) =
      (sqls i os).map fun t => left ++ (t ++ right) := by
  induction os generalizing i with
  | nil => rfl
  | cons o os ih => simp [sqls, ih]

end Outline

def Params.add (p : Params) (vs : List Value) : Params :=
  ⟨p.last + vs.length, p.values ++ vs⟩

@[simp] theorem Params.last_add (p : Params) (vs : List Value) :
    (p.add vs).last = p.last + vs.length := rfl

@[simp] theorem Params.add_nil (p : Params) : p.add [] = p := by
  simp [Params.add]

@[simp] theorem Params.add_add (p : Params) (vs ws : List Value) :
    (p.add vs).add ws = p.add (vs ++ ws) := by
  simp [Params.add, Nat.add_assoc]

namespace Emit

/-- The step fails in the same way from every counter. -/
def Fails {α : Type} (step : Emit α) (e : Error) : Prop :=
  ∀ p, ∃ p', step.run p = .error e p'

/-- The step succeeds from every counter, with a result that depends on the
counter only, and binds the given values. -/
def Gives {α : Type} (step : Emit α) (result : Nat → α) (vs : List Value) : Prop :=
  ∀ p, step.run p = .ok (result p.last) (p.add vs)

/-- The step writes an outline, from every counter. -/
def Writes (step : Emit Text) (o : Outline) : Prop :=
  step.Gives (fun i => o.sql i) o.values

def WritesEach (step : Emit (List Text)) (os : List Outline) : Prop :=
  step.Gives (fun i => Outline.sqls i os) (os.flatMap Outline.values)

/-- The step fails, or it writes an outline with the given values. -/
def Binds (step : Emit Text) (vs : List Value) : Prop :=
  (∃ e, step.Fails e) ∨ ∃ o, o.values = vs ∧ step.Writes o

/-- The step fails, or it writes `n` outlines that have the given values
together. -/
def BindsEach (step : Emit (List Text)) (n : Nat) (vs : List Value) : Prop :=
  (∃ e, step.Fails e) ∨
    ∃ os, os.length = n ∧ os.flatMap Outline.values = vs ∧ step.WritesEach os

theorem Fails.bind {α β : Type} {step : Emit α} {e : Error}
    (h : step.Fails e) (next : α → Emit β) : Fails (step >>= next) e := by
  intro p
  obtain ⟨p', hp⟩ := h p
  exact ⟨p', by simp [hp]⟩

theorem Gives.bind_fails {α β : Type} {step : Emit α} {f : Nat → α}
    {vs : List Value} {next : α → Emit β} {e : Error}
    (h : step.Gives f vs) (hnext : ∀ i, (next (f i)).Fails e) :
    Fails (step >>= next) e := by
  intro p
  obtain ⟨p', hp⟩ := hnext p.last (p.add vs)
  exact ⟨p', by simp [h p, hp]⟩

theorem Gives.map {α β : Type} {step : Emit α} {a : Nat → α} {vs : List Value}
    (h : step.Gives a vs) (f : α → β) :
    Gives (do let x ← step; return f x) (fun i => f (a i)) vs := by
  intro p
  rw [EStateM.run_bind, h p]
  rfl

/-- The second step starts at the number at which the first one ends. -/
theorem Gives.map₂ {α β γ : Type} {first : Emit α} {second : Emit β}
    {a : Nat → α} {b : Nat → β} {vs ws : List Value}
    (h₁ : first.Gives a vs) (h₂ : second.Gives b ws) (f : α → β → γ) :
    Gives (do let x ← first; let y ← second; return f x y)
      (fun i => f (a i) (b (i + vs.length))) (vs ++ ws) := by
  intro p
  rw [EStateM.run_bind, h₁ p]
  simp only [EStateM.run_bind, h₂ (p.add vs)]
  simp

theorem Gives.pure {α : Type} (a : α) : Gives (pure a) (fun _ => a) [] := by
  intro p
  simp

theorem Fails.throw {α : Type} (e : Error) : Fails (throw e : Emit α) e :=
  fun p => ⟨p, rfl⟩

theorem Binds.pure (s : Text) : Binds (pure s) [] :=
  .inr ⟨.text s, rfl, Gives.pure s⟩

theorem Binds.throw (e : Error) (vs : List Value) : Binds (throw e) vs :=
  .inl ⟨e, Fails.throw e⟩

theorem Binds.bindValue (v : Value) : Binds (bindValue v) [v] := by
  refine .inr ⟨.gap [] v (.text []), rfl, ?_⟩
  intro p
  simp [Emit.bindValue, Outline.sql, Outline.values, Params.add]

/-- A check before a step only adds a way to fail. -/
theorem Binds.ofExcept {α : Type} {x : Except Error α} {next : α → Emit Text}
    {vs : List Value} (h : ∀ a, x = .ok a → (next a).Binds vs) :
    Binds (ofExcept x >>= next) vs := by
  cases x with
  | error e => exact .inl ⟨e, (Fails.throw e).bind next⟩
  | ok a => exact h a rfl

theorem Binds.ofExcept_text (x : Except Error Text) : Binds (Emit.ofExcept x) [] := by
  cases x with
  | error e => exact Binds.throw e []
  | ok s => exact Binds.pure s

theorem Binds.refuseIf {condition : Bool} {e : Error} {next : Unit → Emit Text}
    {vs : List Value} (h : (next ()).Binds vs) :
    Binds (refuseIf condition e >>= next) vs := by
  cases condition with
  | false => exact h
  | true => exact .inl ⟨e, (Fails.throw e).bind next⟩

theorem Binds.around {step : Emit Text} {vs : List Value} {f : Text → Text}
    (left right : Text) (h : step.Binds vs)
    (hf : ∀ s, f s = left ++ (s ++ right)) :
    Binds (do let s ← step; return f s) vs := by
  rcases h with ⟨e, hfail⟩ | ⟨o, rfl, ho⟩
  · exact .inl ⟨e, hfail.bind _⟩
  · refine .inr ⟨o.between left right, by simp, ?_⟩
    intro p
    simpa [hf] using Gives.map ho f p

/-- Texts around and between the texts of two steps. The second step is
numbered on from the first one. -/
theorem Binds.pair {first second : Emit Text} {vs ws : List Value}
    {f : Text → Text → Text} (left middle right : Text)
    (h₁ : first.Binds vs) (h₂ : second.Binds ws)
    (hf : ∀ s t, f s t = left ++ (s ++ (middle ++ (t ++ right)))) :
    Binds (do let s ← first; let t ← second; return f s t) (vs ++ ws) := by
  rcases h₁ with ⟨e, hfail⟩ | ⟨o₁, rfl, ho₁⟩
  · exact .inl ⟨e, hfail.bind _⟩
  · rcases h₂ with ⟨e, hfail⟩ | ⟨o₂, rfl, ho₂⟩
    · exact .inl ⟨e, ho₁.bind_fails fun _ => hfail.bind _⟩
    · refine .inr ⟨(o₁.append (o₂.between middle right)).after left, by simp, ?_⟩
      intro p
      simpa [hf] using Gives.map₂ ho₁ ho₂ f p

theorem BindsEach.nil : BindsEach (pure []) 0 [] :=
  .inr ⟨[], rfl, rfl, Gives.pure []⟩

theorem BindsEach.cons {first : Emit Text} {rest : Emit (List Text)} {n : Nat}
    {vs ws : List Value} (h₁ : first.Binds vs) (h₂ : rest.BindsEach n ws) :
    BindsEach (do let s ← first; let ts ← rest; return s :: ts) (n + 1) (vs ++ ws) := by
  rcases h₁ with ⟨e, hfail⟩ | ⟨o, rfl, ho⟩
  · exact .inl ⟨e, hfail.bind _⟩
  · rcases h₂ with ⟨e, hfail⟩ | ⟨os, rfl, rfl, hos⟩
    · exact .inl ⟨e, ho.bind_fails fun _ => hfail.bind _⟩
    · refine .inr ⟨o :: os, rfl, rfl, ?_⟩
      intro p
      simpa [Outline.sqls] using Gives.map₂ ho hos List.cons p

/-- The texts of a list, each between `opening` and `closing`, become one text. -/
theorem Binds.joined {step : Emit (List Text)} {n : Nat} {vs : List Value}
    {f : List Text → Text} (separator : String) (left opening closing right : Text)
    (h : step.BindsEach n vs)
    (hf : ∀ ts, ts.length = n → f ts =
      left ++ (Text.joined separator (ts.map fun t => opening ++ (t ++ closing)) ++ right)) :
    Binds (do let ts ← step; return f ts) vs := by
  rcases h with ⟨e, hfail⟩ | ⟨os, hlen, rfl, hos⟩
  · exact .inl ⟨e, hfail.bind _⟩
  · let o := (Outline.joined separator (os.map (Outline.between opening closing))).between left right
    have hvalues : o.values = os.flatMap Outline.values := by
      simp [o, Outline.flatMap_values_between]
    have hsql (i : Nat) : f (Outline.sqls i os) = o.sql i := by
      rw [hf _ (by simp [hlen])]
      simp [o, Outline.sqls_between]
    refine .inr ⟨o, hvalues, ?_⟩
    intro p
    simpa [hsql, hvalues] using Gives.map hos f p

theorem Binds.concat_nil : Binds (concat []) [].flatten :=
  Binds.pure []

theorem Binds.concat_cons {part : Emit Text} {parts : List (Emit Text)}
    {vs : List Value} {vss : List (List Value)}
    (h₁ : part.Binds vs) (h₂ : (concat parts).Binds vss.flatten) :
    Binds (concat (part :: parts)) (vs :: vss).flatten :=
  .pair [] [] [] h₁ h₂ fun s t => by simp

theorem BindsEach.forEach {α : Type} {step : α → Emit Text} {values : α → List Value}
    (h : ∀ a, (step a).Binds (values a)) (as : List α) :
    (forEach step as).BindsEach as.length (as.flatMap values) := by
  induction as with
  | nil => exact .nil
  | cons a as ih => exact .cons (h a) ih

/-- A step that binds values and succeeds from one counter writes an outline
from every counter. -/
theorem Binds.writes_of_ok {step : Emit Text} {vs : List Value} {p p' : Params}
    {s : Text} (h : step.Binds vs) (hok : step.run p = .ok s p') :
    ∃ o, o.values = vs ∧ step.Writes o := by
  rcases h with ⟨e, hfail⟩ | hwrites
  · obtain ⟨p'', hp⟩ := hfail p
    rw [hok] at hp
    cases hp
  · exact hwrites

theorem Binds.writes_of_compile {step : Emit Text} {vs : List Value} {c : Compiled}
    (h : step.Binds vs) (hok : step.compile = .ok c) :
    ∃ o, o.values = vs ∧ step.Writes o ∧ c = ⟨String.ofList (o.sql 0), vs⟩ := by
  rcases h with ⟨e, hfail⟩ | ⟨o, rfl, ho⟩
  · obtain ⟨p', hp⟩ := hfail {}
    simp only [compile, hp] at hok
    cases hok
  · refine ⟨o, rfl, ho, ?_⟩
    simp only [compile, ho {}] at hok
    cases hok
    simp [Params.add]

end Emit

end LiteSql
