import LiteSql.Proofs.Binding

/-!
# A DELETE and the SELECT with the same filters

The filters of a query on one table are written with the quoted name of the table in
a DELETE, and with its handle in a SELECT. Nothing else differs between the two. A
`Stencil` is a text with holes for the name, and a step is `Uniform` if, from one
counter, it fails for all names of the table or writes the same stencil for all of
them. Filling the holes with a name joins the pieces between them by that name.
-/

namespace LiteSql

/-- A text in which `none` stands for the name of a source. -/
abbrev Stencil := List (Option Char)

namespace Stencil

def ofText (s : Text) : Stencil :=
  s.map some

/-- The text with a name in all holes. -/
def fill (name : Text) : Stencil → Text
  | [] => []
  | none :: s => name ++ fill name s
  | some c :: s => c :: fill name s

/-- The texts before, between and after the holes. -/
def pieces : Stencil → List Text
  | [] => [[]]
  | none :: s => [] :: pieces s
  | some c :: s => (pieces s).modifyHead (c :: ·)

def joined (separator : String) (ss : List Stencil) : Stencil :=
  (ofText separator.toList).intercalate ss

@[simp] theorem fill_append (name : Text) (s t : Stencil) :
    fill name (s ++ t) = fill name s ++ fill name t := by
  induction s with
  | nil => rfl
  | cons c s ih => cases c <;> simp [fill, ih]

@[simp] theorem fill_ofText (name s : Text) : fill name (ofText s) = s := by
  induction s with
  | nil => rfl
  | cons c s ih => rw [ofText, List.map_cons, fill, ← ofText, ih]

@[simp] theorem fill_joined (name : Text) (separator : String) (ss : List Stencil) :
    fill name (joined separator ss) = Text.joined separator (ss.map (fill name)) := by
  unfold joined Text.joined
  induction ss with
  | nil => rfl
  | cons s ss ih =>
      cases ss with
      | nil => simp
      | cons t ss =>
          simp only [List.map_cons] at ih ⊢
          simp [List.intercalate_cons_cons, ih]

theorem pieces_ne_nil (s : Stencil) : pieces s ≠ [] := by
  induction s with
  | nil => simp [pieces]
  | cons c s ih =>
      cases c with
      | none => simp [pieces]
      | some c => simpa [pieces] using ih

/-- A filled stencil is its pieces, joined by the name. -/
theorem intercalate_pieces (name : Text) (s : Stencil) :
    name.intercalate (pieces s) = fill name s := by
  induction s with
  | nil => simp [pieces, fill]
  | cons c s ih =>
      obtain ⟨piece, rest, hpieces⟩ := List.exists_cons_of_ne_nil (pieces_ne_nil s)
      rw [hpieces] at ih
      cases c with
      | none =>
          rw [pieces, hpieces, List.intercalate_cons_cons, ih]
          rfl
      | some c =>
          rw [pieces, hpieces, fill, ← ih]
          cases rest <;> simp [List.intercalate_cons_cons]

end Stencil

/-- The names of one table in a statement. -/
structure TableNames where
  name : String
  /-- The text by which expressions reach the table. -/
  handle : Text
  quoted : Text

/-- The table as the only source of a statement. -/
def TableNames.sources (fields : Option (List String)) (n : TableNames) : List NamedSource :=
  [⟨.table n.name fields, n.handle, some n.quoted⟩]

namespace Emit

/-- From one counter, the step fails for all names, with an error in which only the
quoted name differs, or it has a result in which only the handle differs. -/
def Uniform {α β : Type} (view : Text → β → α) (step : TableNames → Emit α) : Prop :=
  ∀ p, (∃ (e : Text → Error) (p' : Params), ∀ n, (step n).run p = .error (e n.quoted) p') ∨
    ∃ (b : β) (p' : Params), ∀ n, (step n).run p = .ok (view n.handle b) p'

/-- The step writes the same stencil for all names. -/
def UniformText (step : TableNames → Emit Text) : Prop :=
  Uniform Stencil.fill step

/-- The step writes the same list of stencils for all names. -/
def UniformTexts (step : TableNames → Emit (List Text)) : Prop :=
  Uniform (fun handle (ss : List Stencil) => ss.map (Stencil.fill handle)) step

section Uniform

variable {α β γ δ : Type} {view : Text → β → α} {view' : Text → δ → γ}

theorem Uniform.pure (b : β) : Uniform view fun n => pure (view n.handle b) :=
  fun p => .inr ⟨b, p, fun _ => rfl⟩

theorem Uniform.throw (e : Text → Error) : Uniform view fun n => throw (e n.quoted) :=
  fun p => .inl ⟨e, p, fun _ => rfl⟩

theorem Uniform.bind {step : TableNames → Emit α} {next : TableNames → α → Emit γ}
    (h : Uniform view step) (hnext : ∀ b, Uniform view' fun n => next n (view n.handle b)) :
    Uniform view' fun n => step n >>= next n := by
  intro p
  rcases h p with ⟨e, p', hfail⟩ | ⟨b, p', hok⟩
  · exact .inl ⟨e, p', fun n => by rw [EStateM.run_bind, hfail n]⟩
  · rcases hnext b p' with ⟨e, p'', hfail⟩ | ⟨c, p'', hok'⟩
    · exact .inl ⟨e, p'', fun n => by rw [EStateM.run_bind, hok n]; exact hfail n⟩
    · exact .inr ⟨c, p'', fun n => by rw [EStateM.run_bind, hok n]; exact hok' n⟩

/-- A function on results that can be read as one on what the results are views of. -/
theorem Uniform.map {step : TableNames → Emit α} {f : TableNames → α → γ} (h : Uniform view step)
    (f' : β → δ) (hf : ∀ n b, f n (view n.handle b) = view' n.handle (f' b)) :
    Uniform view' fun n => do let a ← step n; return f n a := by
  refine h.bind fun b => ?_
  simp only [hf]
  exact .pure (f' b)

end Uniform

namespace UniformText

theorem fill (s : Stencil) : UniformText fun n => pure (Stencil.fill n.handle s) :=
  Uniform.pure s

theorem pure (s : Text) : UniformText fun _ => pure s := by
  have hpure := fill (Stencil.ofText s)
  simp only [Stencil.fill_ofText] at hpure
  exact hpure

theorem bindValue (v : Value) : UniformText fun _ => bindValue v := by
  intro p
  refine .inr ⟨Stencil.ofText (placeholder (p.last + 1)), p.add [v], fun n => ?_⟩
  rw [Stencil.fill_ofText]
  rfl

theorem ofExcept (x : Except Error Text) : UniformText fun _ => ofExcept x := by
  cases x with
  | ok s => exact .pure s
  | error e => exact Uniform.throw fun _ => e

theorem refuseIf {condition : Bool} {e : Error} {next : TableNames → Emit Text}
    (h : UniformText next) : UniformText fun n => refuseIf condition e >>= fun _ => next n := by
  cases condition with
  | false => exact h
  | true => exact Uniform.throw fun _ => e

theorem around {step : TableNames → Emit Text} {f : Text → Text} (left right : Text)
    (h : UniformText step) (hf : ∀ s, f s = left ++ (s ++ right)) :
    UniformText fun n => do let s ← step n; return f s :=
  h.map (fun s => Stencil.ofText left ++ (s ++ Stencil.ofText right)) fun n s => by
    rw [hf, Stencil.fill_append, Stencil.fill_append, Stencil.fill_ofText, Stencil.fill_ofText]

theorem pair {first second : TableNames → Emit Text} {f : Text → Text → Text}
    (left middle right : Text) (h₁ : UniformText first) (h₂ : UniformText second)
    (hf : ∀ s t, f s t = left ++ (s ++ (middle ++ (t ++ right)))) :
    UniformText fun n => do let s ← first n; let t ← second n; return f s t := by
  refine h₁.bind fun s => h₂.map (fun t => Stencil.ofText left ++ (s ++
    (Stencil.ofText middle ++ (t ++ Stencil.ofText right)))) fun n t => ?_
  simp only [hf, Stencil.fill_append, Stencil.fill_ofText]

end UniformText

namespace UniformTexts

theorem nil : UniformTexts fun _ => pure [] :=
  fun p => .inr ⟨[], p, fun _ => rfl⟩

theorem cons {first : TableNames → Emit Text} {rest : TableNames → Emit (List Text)}
    (h₁ : UniformText first) (h₂ : UniformTexts rest) :
    UniformTexts fun n => do let s ← first n; let ts ← rest n; return s :: ts :=
  h₁.bind fun s => h₂.map (s :: ·) fun _ _ => rfl

theorem bindValues (vs : List Value) : UniformTexts fun _ => bindValues vs := by
  induction vs with
  | nil => exact .nil
  | cons v vs ih => exact .cons (.bindValue v) ih

/-- The texts of a list, each between `opening` and `closing`, become one text. -/
theorem joined {step : TableNames → Emit (List Text)} {f : List Text → Text}
    (separator : String) (left opening closing right : Text) (h : UniformTexts step)
    (hf : ∀ ts, f ts =
      left ++ (Text.joined separator (ts.map fun t => opening ++ (t ++ closing)) ++ right)) :
    UniformText fun n => do let ts ← step n; return f ts := by
  refine h.map (fun ss => Stencil.ofText left ++ (Stencil.joined separator
    (ss.map fun s => Stencil.ofText opening ++ (s ++ Stencil.ofText closing)) ++
      Stencil.ofText right)) fun n ss => ?_
  simp [hf, Function.comp_def]

theorem call {step : TableNames → Emit (List Text)} (name : String) (distinct : Bool)
    (h : UniformTexts step) :
    UniformText fun n => do let ts ← step n; return callText name distinct ts := by
  let flag := if distinct then "DISTINCT ".toList else []
  have hcall (ts : List Text) : callText name distinct ts =
      name.toList ++ Text.parenthesized
        (flag ++ if ts.isEmpty && isCount name then ['*'] else Text.joined ", " ts) := rfl
  generalize flag = flag at hcall
  refine h.map (fun ss => Stencil.ofText (name.toList ++ '(' :: flag) ++
    ((if ss.isEmpty && isCount name then Stencil.ofText ['*'] else Stencil.joined ", " ss) ++
      Stencil.ofText [')'])) fun n ss => ?_
  rw [hcall, List.isEmpty_map]
  split <;> simp [Text.parenthesized]

end UniformTexts

end Emit

open Emit

section Expressions

variable (fields : Option (List String))

theorem uniform_sourceAt {γ δ : Type} {view : Text → δ → γ} {next : NamedSource → Emit γ}
    (index : Nat)
    (h : Uniform view fun n => next ⟨.table n.name fields, n.handle, some n.quoted⟩) :
    Uniform view fun n => Emit.ofExcept (sourceAt (n.sources fields) index) >>= next := by
  cases index with
  | zero => exact h
  | succ index => exact Uniform.throw fun _ => .invalid (.danglingSource (index + 1) 1)

theorem uniform_column (column : String) : UniformText fun n =>
    pure (NamedSource.column ⟨.table n.name fields, n.handle, some n.quoted⟩ column) := by
  have hpure := UniformText.fill (none :: Stencil.ofText ('.' :: quoteIdentifier column))
  simp only [Stencil.fill, Stencil.fill_ofText] at hpure
  exact hpure

theorem uniform_row : UniformText fun n =>
    Emit.ofExcept (NamedSource.row ⟨.table n.name fields, n.handle, some n.quoted⟩) := by
  cases fields with
  | none => exact Uniform.throw fun quoted => .schemaRequired quoted
  | some fields =>
      have hpure := UniformText.fill (Stencil.joined ", "
        (fields.map fun field => none :: Stencil.ofText ('.' :: quoteIdentifier field)))
      simp only [Stencil.fill_joined, List.map_map, Function.comp_def, Stencil.fill,
        Stencil.fill_ofText] at hpure
      exact hpure

mutual

theorem Expr.emit_uniform : ∀ e : Expr, UniformText fun n => e.emit (n.sources fields)
  | .field source column => by
      simp only [Expr.emit]
      exact uniform_sourceAt fields source.toNat (uniform_column fields column)
  | .row source => by
      simp only [Expr.emit]
      exact uniform_sourceAt fields source.toNat (uniform_row fields)
  | .literal value => by
      simp only [Expr.emit]
      exact .pure value.literal
  | .param value => by
      simp only [Expr.emit]
      exact .bindValue value
  | .binary op left right => by
      obtain ⟨l, l', hl⟩ := left.asOperand_eq
      obtain ⟨r, r', hr⟩ := right.asOperand_eq
      simp only [Expr.emit]
      exact .pair l (l' ++ ' ' :: (op.symbol.toList ++ ' ' :: r)) r' left.emit_uniform
        right.emit_uniform fun s t => by simp [hl, hr]
  | .not inner => by
      simp only [Expr.emit]
      exact .around "NOT (".toList [')'] inner.emit_uniform fun s => by simp [Text.parenthesized]
  | .isNull inner => by
      obtain ⟨l, l', hl⟩ := inner.asOperand_eq
      simp only [Expr.emit]
      exact .around l (l' ++ " IS NULL".toList) inner.emit_uniform fun s => by simp [hl]
  | .cast inner target => by
      simp only [Expr.emit]
      exact .refuseIf <| .pair "CAST (".toList " AS ".toList [')'] inner.emit_uniform
        (.ofExcept target.castTarget) fun s t => by simp [Text.parenthesized]
  | .isIn left right => by
      obtain ⟨l, l', hl⟩ := left.asOperand_eq
      simp only [Expr.emit]
      exact .pair l (l' ++ " IN (".toList) [')'] left.emit_uniform right.emit_uniform
        fun s t => by simp [hl, Text.parenthesized]
  | .fragment body => by
      simp only [Expr.emit]
      exact body.emit_uniform
  | .call name args distinct => by
      simp only [Expr.emit]
      exact UniformTexts.call name distinct (emitEach_uniform args)

theorem InList.emit_uniform : ∀ l : InList, UniformText fun n => l.emit (n.sources fields)
  | .exprs items => by
      simp only [InList.emit]
      exact UniformTexts.joined ", " [] [] [] [] (emitEach_uniform items) fun ts => by simp
  | .params values => by
      simp only [InList.emit]
      exact UniformTexts.joined ", " [] [] [] [] (.bindValues values) fun ts => by simp
  | .fragment body => by
      simp only [InList.emit]
      exact body.emit_uniform

theorem Fragment.emit_uniform : ∀ b : Fragment, UniformText fun n => b.emit (n.sources fields)
  | .template sql args => by
      simp only [Fragment.emit]
      exact emitSplices_uniform sql sql.toList args
  | .keyword args => by
      simp only [Fragment.emit]
      exact Uniform.throw fun _ => .unsupported .keywordArguments

theorem emitSplices_uniform (template : String) (rest : Text) : ∀ args : List Expr,
    UniformText fun n => emitSplices (n.sources fields) template rest args
  | [] => by
      simp only [emitSplices]
      split
      · exact .pure _
      · exact Uniform.throw fun _ => .invalid (.missingArgument template)
  | arg :: args => by
      simp only [emitSplices]
      split
      · exact Uniform.throw fun _ => .invalid (.surplusArgument template)
      · rename_i before after _
        exact .pair before [] [] arg.emit_uniform (emitSplices_uniform template after args)
          fun s t => by simp

theorem emitEach_uniform : ∀ es : List Expr,
    UniformTexts fun n => emitEach (n.sources fields) es
  | [] => by
      simp only [emitEach]
      exact .nil
  | e :: es => by
      simp only [emitEach]
      exact .cons e.emit_uniform (emitEach_uniform es)

end

theorem filterClause_uniform (keyword : String) (filters : List Expr) :
    UniformText fun n => filterClause keyword (n.sources fields) filters := by
  cases filters with
  | nil => exact .pure []
  | cons e es =>
      exact UniformTexts.joined " AND " (' ' :: (keyword.toList ++ [' '])) ['('] [')'] []
        (emitEach_uniform fields (e :: es)) fun ts => by
          simp [show Text.parenthesized = fun t => '(' :: (t ++ [')']) from rfl]

end Expressions

/-- The query for the rows of a table that the filters admit. -/
def Query.ofFilters (schema : Option String) (name : String) (fields : Option (List String))
    (filters : List Expr) : Query :=
  { schema, source := .table name fields, filters }

section OneTable

variable (schema : Option String) (name : String) (fields : Option (List String))
  (filters : List Expr)

theorem Query.emitDeleteAll_ofFilters :
    (ofFilters schema name fields filters).emitDeleteAll = (do
      let table := QualifiedName.quote ⟨schema, name⟩
      let sql ← filterClause "WHERE" (TableNames.sources fields ⟨name, table, table⟩) filters
      return "DELETE FROM ".toList ++ table ++ sql) := by
  rfl

theorem Query.emitSelect_ofFilters :
    ((ofFilters schema name fields filters).select [.literal (.int 1)]).emitSelect = (do
      let table := QualifiedName.quote ⟨schema, name⟩
      let handle := (Source.table name fields).handle 0
      let sql ← filterClause "WHERE" (TableNames.sources fields ⟨name, handle, table⟩) filters
      return "SELECT 1 FROM ".toList ++ table ++ " AS ".toList ++ handle ++ sql) := by
  let table := QualifiedName.quote ⟨schema, name⟩
  let handle := (Source.table name fields).handle 0
  let sources := TableNames.sources fields ⟨name, handle, table⟩
  have hprojection : projectionClause sources (some [.literal (.int 1)]) = pure ['1'] := rfl
  have hsource : sourceClause sources =
      pure (" FROM ".toList ++ (table ++ " AS ".toList ++ handle)) := rfl
  calc ((ofFilters schema name fields filters).select [.literal (.int 1)]).emitSelect
    _ = (do
          let clauses ← concat [projectionClause sources (some [.literal (.int 1)]),
            sourceClause sources, pure [], filterClause "WHERE" sources filters,
            pure [], pure [], pure [], pure [], pure []]
          return "SELECT ".toList ++ clauses) := rfl
    _ = _ := by simp [concat, hprojection, hsource, sources, table, handle]

end OneTable

/-- The rows of one table that a DELETE removes and the rows that a SELECT shows are
those of one condition: for all names of the table both statements are refused, with
one error, or both are written, with the same parameters and from the same pieces of
text, joined in one by the quoted name of the table and in the other by its handle. -/
theorem compileDeleteAll_matches_select (fields : Option (List String)) (filters : List Expr) :
    (∀ schema name, ∃ e,
      (Query.ofFilters schema name fields filters).compileDeleteAll = .error e ∧
      ((Query.ofFilters schema name fields filters).select [.literal (.int 1)]).compileSelect =
        .error e) ∨
    ∃ (pieces : List Text) (params : List Value), ∀ schema name,
      let table := QualifiedName.quote ⟨schema, name⟩
      let handle := (Source.table name fields).handle 0
      (Query.ofFilters schema name fields filters).compileDeleteAll =
        .ok ⟨String.ofList ("DELETE FROM ".toList ++ table ++ table.intercalate pieces), params⟩ ∧
      ((Query.ofFilters schema name fields filters).select [.literal (.int 1)]).compileSelect =
        .ok ⟨String.ofList ("SELECT 1 FROM ".toList ++ table ++ " AS ".toList ++ handle ++
          handle.intercalate pieces), params⟩ := by
  simp only [Query.compileDeleteAll, Query.compileSelect, Query.emitDeleteAll_ofFilters,
    Query.emitSelect_ofFilters, Emit.compile, EStateM.run_bind]
  rcases filterClause_uniform fields "WHERE" filters {} with ⟨e, p', hfail⟩ | ⟨sql, p', hok⟩
  · left
    intro schema name
    exact ⟨e (QualifiedName.quote ⟨schema, name⟩), by rw [hfail], by rw [hfail]⟩
  · right
    refine ⟨Stencil.pieces sql, p'.values, fun schema name => ?_⟩
    simp only [Stencil.intercalate_pieces]
    exact ⟨by rw [hok]; rfl, by rw [hok]; rfl⟩

/-- A filter that binds a value, on a table with a schema. -/
def Query.ofOneFilter : Query :=
  .ofFilters (some "s") "m" none [.eq (.field 0 "x") (.param (.int 7))]

theorem compileDeleteAll_matches_select_in_sample :
    Query.ofOneFilter.compileDeleteAll =
      .ok ⟨"DELETE FROM \"s\".\"m\" WHERE (\"s\".\"m\".\"x\" = ?1)", [.int 7]⟩ ∧
    (Query.ofOneFilter.select [.literal (.int 1)]).compileSelect =
      .ok ⟨"SELECT 1 FROM \"s\".\"m\" AS m0 WHERE (m0.\"x\" = ?1)", [.int 7]⟩ ∧
    ∃ pieces : List Text,
      let table := QualifiedName.quote ⟨some "s", "m"⟩
      Query.ofOneFilter.compileDeleteAll =
        .ok ⟨String.ofList ("DELETE FROM ".toList ++ table ++ table.intercalate pieces), [.int 7]⟩ ∧
      (Query.ofOneFilter.select [.literal (.int 1)]).compileSelect =
        .ok ⟨String.ofList ("SELECT 1 FROM ".toList ++ table ++ " AS ".toList ++ ['m', '0'] ++
          ['m', '0'].intercalate pieces), [.int 7]⟩ := by
  have hdelete : Query.ofOneFilter.compileDeleteAll =
      .ok ⟨"DELETE FROM \"s\".\"m\" WHERE (\"s\".\"m\".\"x\" = ?1)", [.int 7]⟩ := rfl
  have hselect : (Query.ofOneFilter.select [.literal (.int 1)]).compileSelect =
      .ok ⟨"SELECT 1 FROM \"s\".\"m\" AS m0 WHERE (m0.\"x\" = ?1)", [.int 7]⟩ := rfl
  refine ⟨hdelete, hselect, ?_⟩
  rcases compileDeleteAll_matches_select none [.eq (.field 0 "x") (.param (.int 7))] with
    hfails | ⟨pieces, params, hok⟩
  · obtain ⟨e, he, -⟩ := hfails (some "s") "m"
    cases hdelete.symm.trans he
  · obtain ⟨hdeleted, hselected⟩ := hok (some "s") "m"
    obtain rfl : [.int 7] = params :=
      congrArg Compiled.params (Except.ok.inj (hdelete.symm.trans hdeleted))
    exact ⟨pieces, hdeleted, hselected⟩

end LiteSql
