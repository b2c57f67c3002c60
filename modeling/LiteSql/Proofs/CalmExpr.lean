import LiteSql.Proofs.Nodes
import LiteSql.Proofs.Outcome
import LiteSql.Proofs.VisibleText
import LiteSql.Statement.Expr

/-!
# Calm expressions

The text of an expression is calm, and its placeholders are those of its values,
numbered on from the counter at which it is written. Raw SQL is excluded: fragments,
the names of custom types, and function names that are no words.

A text that may hold a placeholder is separated from what follows it by a text that
does not start with a digit.
-/

namespace LiteSql

def numbersFrom (i n : Nat) : List Text :=
  (List.range' (i + 1) n).map Text.digits

theorem numbersFrom_append (i n m : Nat) :
    numbersFrom i n ++ numbersFrom (i + n) m = numbersFrom i (n + m) := by
  have hstart : i + n + 1 = i + 1 + 1 * n := by omega
  rw [numbersFrom, numbersFrom, ← List.map_append, hstart, List.range'_append, numbersFrom]

/-- A calm text whose placeholders are those of the values, numbered on from `i`. -/
def Contained (i : Nat) (s : Text) (vs : List Value) : Prop :=
  Calm s (numbersFrom i vs.length)

/-- A calm text that ends a placeholder before it. -/
structure Separator (w : Text) : Prop where
  calm : Calm w []
  starts : ∃ c, w.head? = some c ∧ c.isDigit = false

theorem Separator.head?_append {w : Text} (hw : Separator w) (s : Text) :
    ∀ c ∈ (w ++ s).head?, c.isDigit = false := by
  obtain ⟨c, hc, hdigit⟩ := hw.starts
  intro d hd
  rw [List.head?_append, hc] at hd
  cases hd
  exact hdigit

theorem Separator.plain {c : Char} {w : Text} (hw : (c :: w).all isPlainChar)
    (hc : c.isDigit = false) : Separator (c :: w) :=
  ⟨.plain hw, c, rfl, hc⟩

theorem separator_comma : Separator ", ".toList := .plain (by decide) rfl

theorem separator_and : Separator " AND ".toList := .plain (by decide) rfl

theorem separator_close : Separator [')'] := .plain (by decide) rfl

theorem separator_operator (op : BinaryOp) :
    Separator (' ' :: (op.symbol.toList ++ [' '])) := by
  refine ⟨?_, ' ', rfl, rfl⟩
  cases op <;> exact ⟨by decide, by decide, by decide, by decide, by decide, by decide⟩

namespace Contained

theorem of_calm {s : Text} (hs : Calm s []) (i : Nat) : Contained i s [] :=
  hs

theorem append {i : Nat} {s t : Text} {vs ws : List Value} (hs : Contained i s vs)
    (ht : Contained (i + vs.length) t ws) (hhead : ∀ c ∈ t.head?, c.isDigit = false) :
    Contained i (s ++ t) (vs ++ ws) := by
  have hboth := Calm.append hs ht (.inr hhead)
  rwa [numbersFrom_append, ← List.length_append] at hboth

theorem after {i : Nat} {s w : Text} {vs : List Value} (hw : Calm w [])
    (hs : Contained i s vs) : Contained i (w ++ s) vs :=
  hw.append_plain hs

theorem before {i : Nat} {s w : Text} {vs : List Value} (hs : Contained i s vs)
    (hw : Separator w) : Contained i (s ++ w) vs := by
  have hhead := hw.head?_append []
  rw [List.append_nil] at hhead
  have hboth := hs.append (of_calm hw.calm _) hhead
  rwa [List.append_nil] at hboth

theorem separated {i : Nat} {s t w : Text} {vs ws : List Value} (hs : Contained i s vs)
    (hw : Separator w) (ht : Contained (i + vs.length) t ws) :
    Contained i (s ++ (w ++ t)) (vs ++ ws) :=
  hs.append (ht.after hw.calm) (hw.head?_append t)

theorem parenthesized {i : Nat} {s : Text} {vs : List Value} (hs : Contained i s vs) :
    Contained i (Text.parenthesized s) vs := by
  have hopen : Calm ['('] [] := .plain (by decide)
  exact (hs.before separator_close).after hopen

theorem asOperand {i : Nat} {s : Text} {vs : List Value} (hs : Contained i s vs) (e : Expr) :
    Contained i (e.asOperand s) vs := by
  unfold Expr.asOperand
  split
  · exact hs.parenthesized
  · exact hs

theorem placeholder (v : Value) (i : Nat) : Contained i (placeholder (i + 1)) [v] :=
  Calm.placeholder (i + 1)

theorem each_of_calm {f : String → Text} (hf : ∀ name, Calm (f name) []) (names : List String) (i : Nat) :
    Emit.Each (fun _ => Contained) names i (names.map f) [] := by
  induction names with
  | nil => exact .nil i
  | cons name names ih =>
      have hcons : Emit.Each (fun _ => Contained) (name :: names) i
          (f name :: names.map f) ([] ++ []) := .cons (of_calm (hf name) i) ih
      exact hcons

/-- The parts of a list between separators. -/
theorem joined {α : Type} {separator : String} (hw : Separator separator.toList) {as : List α}
    {i : Nat} {ss : List Text} {vs : List Value}
    (hparts : Emit.Each (fun _ => Contained) as i ss vs) :
    Contained i (Text.joined separator ss) vs := by
  unfold Text.joined
  induction hparts with
  | nil i => exact of_calm .nil i
  | @cons a as i s ss vs ws hs hrest ih =>
      cases hrest with
      | nil => simpa using hs
      | cons ht hrest =>
          rw [List.intercalate_cons_cons, List.append_assoc]
          exact hs.separated hw ih

end Contained

/-- A node that brings no raw SQL into the text. -/
def Node.IsPlain : Node → Prop
  | .fragment _ => False
  | .expr (.cast _ target) => ∀ name, target ≠ .custom name
  | .expr (.call name _ _) => ∀ c ∈ name.toList, c.isAlphanum ∨ c = '_'
  | .expr _ => True

theorem Fragment.not_isPlain (body : Fragment) : ¬ ∀ node ∈ body.nodes, node.IsPlain := by
  intro h
  cases body with
  | template sql args => exact h (.fragment (.template sql args)) (by simp [Fragment.nodes])
  | keyword args => exact h (.fragment (.keyword args)) (by simp [Fragment.nodes])

/-- The handle and the name of a source are calm. -/
structure NamedSource.Tidy (s : NamedSource) : Prop where
  handle : Calm s.handle []
  table : ∀ t ∈ s.table, Calm t []

def NamedSource.IsTable (s : NamedSource) : Prop :=
  ∀ body, s.source ≠ .fragment body

theorem Calm.column {s : NamedSource} (hs : s.Tidy) (name : String) : Calm (s.column name) [] := by
  have hpoint : Calm ['.'] [] := .plain (by decide)
  exact hs.handle.append_plain (hpoint.append_plain (.quoteIdentifier name))

theorem Calm.row {s : NamedSource} (hs : s.Tidy) {sql : Text} (hsql : s.row = .ok sql) :
    Calm sql [] := by
  unfold NamedSource.row at hsql
  split at hsql
  · rename_i name fields hsource
    cases hsql
    exact Contained.joined separator_comma (Contained.each_of_calm (fun field => .column hs field) fields 0)
  · cases hsql

theorem mem_of_sourceAt {sources : List NamedSource} {k : Nat} {s : NamedSource}
    (h : sourceAt sources k = .ok s) : s ∈ sources := by
  unfold sourceAt at h
  split at h
  · rename_i hs
    cases h
    exact List.mem_of_getElem? hs
  · cases h

theorem ColumnType.calm_castTarget {type : ColumnType} (h : ∀ name, type ≠ .custom name)
    {sql : Text} (hsql : type.castTarget = .ok sql) : Calm sql [] := by
  cases type with
  | custom name => exact absurd rfl (h name)
  | array item => cases hsql
  | _ =>
      cases hsql
      exact .plain (by decide)

theorem contained_callText {args : List Expr} {i : Nat} {ss : List Text} {vs : List Value}
    {name : String} (hname : ∀ c ∈ name.toList, c.isAlphanum ∨ c = '_') (distinct : Bool)
    (hargs : Emit.Each (fun _ => Contained) args i ss vs) :
    Contained i (callText name distinct ss) vs := by
  have hword : Calm name.toList [] := by
    refine .plain (List.all_eq_true.mpr fun c hc => ?_)
    rcases hname c hc with hletter | rfl
    · exact isPlainChar_of_isAlphanum hletter
    · rfl
  have hflag : Calm (if distinct then "DISTINCT ".toList else []) [] := by
    cases distinct with
    | false => exact .nil
    | true => exact .plain (by decide)
  have hlist : Contained i
      (if ss.isEmpty && isCount name then ['*'] else Text.joined ", " ss) vs := by
    split
    · rename_i hcount
      have hstar : Calm ['*'] [] := .plain (by decide)
      cases hargs with
      | nil => exact .of_calm hstar i
      | cons _ _ => cases hcount
    · exact .joined separator_comma hargs
  exact (hlist.after hflag).parenthesized.after hword

mutual

theorem Expr.emit_contained {sources : List NamedSource} (hsources : ∀ s ∈ sources, s.Tidy) :
    ∀ e : Expr, (∀ node ∈ e.nodes, node.IsPlain) → (e.emit sources).Ensures Contained
  | .field source column, _ => by
      rw [Expr.emit]
      refine .ofExcept_bind fun s hs => .pure fun i => ?_
      exact .of_calm (.column (hsources s (mem_of_sourceAt hs)) column) i
  | .row source, _ => by
      rw [Expr.emit]
      refine .ofExcept_bind fun s hs => .ofExcept fun sql hsql i => ?_
      exact .of_calm (.row (hsources s (mem_of_sourceAt hs)) hsql) i
  | .literal value, _ => by
      rw [Expr.emit]
      exact .pure fun i => .of_calm (.literal value) i
  | .param value, _ => by
      rw [Expr.emit]
      exact .bindValue fun i => .placeholder value i
  | .binary op left right, h => by
      rw [Expr.nodes, List.forall_mem_cons, List.forall_mem_append] at h
      rw [Expr.emit]
      refine (left.emit_contained hsources h.2.1).map₂ (right.emit_contained hsources h.2.2)
        fun i l vs r ws hl hr => ?_
      have hboth := (hl.asOperand left).separated (separator_operator op) (hr.asOperand right)
      simpa using hboth
  | .not inner, h => by
      rw [Expr.nodes, List.forall_mem_cons] at h
      rw [Expr.emit]
      have hword : Calm "NOT ".toList [] := .plain (by decide)
      exact (inner.emit_contained hsources h.2).map fun i s vs hs => hs.parenthesized.after hword
  | .isNull inner, h => by
      rw [Expr.nodes, List.forall_mem_cons] at h
      rw [Expr.emit]
      have hword : Separator " IS NULL".toList := .plain (by decide) rfl
      exact (inner.emit_contained hsources h.2).map fun i s vs hs => (hs.asOperand inner).before hword
  | .cast inner target, h => by
      rw [Expr.nodes, List.forall_mem_cons] at h
      rw [Expr.emit]
      have hcast : Calm "CAST ".toList [] := .plain (by decide)
      have has : Separator " AS ".toList := .plain (by decide) rfl
      have htype : (Emit.ofExcept target.castTarget).Ensures Contained :=
        .ofExcept fun type htype i => .of_calm (ColumnType.calm_castTarget h.1 htype) i
      refine .refuseIf_bind fun _ => (inner.emit_contained hsources h.2).map₂ htype
        fun i s vs type ws hs ht => ?_
      have hboth := (hs.separated has ht).parenthesized.after hcast
      rwa [← List.append_assoc] at hboth
  | .isIn left right, h => by
      rw [Expr.nodes, List.forall_mem_cons, List.forall_mem_append] at h
      rw [Expr.emit]
      have hword : Separator " IN ".toList := .plain (by decide) rfl
      refine (left.emit_contained hsources h.2.1).map₂ (right.emit_contained hsources h.2.2)
        fun i l vs items ws hl hitems => ?_
      have hboth := (hl.asOperand left).separated hword hitems.parenthesized
      rwa [← List.append_assoc] at hboth
  | .fragment body, h => by
      rw [Expr.nodes, List.forall_mem_cons] at h
      exact absurd h.2 body.not_isPlain
  | .call name args distinct, h => by
      rw [Expr.nodes, List.forall_mem_cons] at h
      rw [Expr.emit]
      exact (emitEach_contained hsources args h.2).map fun i ss vs hss =>
        contained_callText h.1 distinct hss

theorem InList.emit_contained {sources : List NamedSource} (hsources : ∀ s ∈ sources, s.Tidy) :
    ∀ l : InList, (∀ node ∈ l.nodes, node.IsPlain) → (l.emit sources).Ensures Contained
  | .exprs items, h => by
      rw [InList.nodes] at h
      rw [InList.emit]
      exact (emitEach_contained hsources items h).map fun i ss vs hss =>
        .joined separator_comma hss
  | .params values, _ => by
      rw [InList.emit]
      exact (Emit.Ensures.bindValues Contained.placeholder values).map fun i ss vs hss =>
        .joined separator_comma hss
  | .fragment body, h => by
      rw [InList.nodes] at h
      exact absurd h body.not_isPlain

theorem emitEach_contained {sources : List NamedSource} (hsources : ∀ s ∈ sources, s.Tidy) :
    ∀ es : List Expr, (∀ node ∈ nodesOfEach es, node.IsPlain) →
      (emitEach sources es).Ensures (Emit.Each (fun _ => Contained) es)
  | [], _ => by
      rw [emitEach]
      exact .each_nil
  | e :: es, h => by
      rw [nodesOfEach, List.forall_mem_append] at h
      rw [emitEach]
      exact .each_cons (e.emit_contained hsources h.1) (emitEach_contained hsources es h.2)

end

theorem emitList_contained {sources : List NamedSource} (hsources : ∀ s ∈ sources, s.Tidy)
    {es : List Expr} (h : ∀ node ∈ nodesOfEach es, node.IsPlain) :
    (emitList sources es).Ensures Contained :=
  (emitEach_contained hsources es h).map fun _ _ _ hss => .joined separator_comma hss

theorem mem_nameSources {schema : Option String} {mode : NameMode} {position : Nat}
    {ss : List Source} {s : NamedSource} (h : s ∈ nameSources schema mode position ss) :
    ∃ source ∈ ss, ∃ k, s = source.named schema mode k := by
  induction ss generalizing position with
  | nil => cases h
  | cons source ss ih =>
      rcases List.mem_cons.mp h with rfl | hmem
      · exact ⟨source, by simp, position, rfl⟩
      · obtain ⟨source', hsource, k, hk⟩ := ih hmem
        exact ⟨source', by simp [hsource], k, hk⟩

theorem Source.exists_letter (source : Source) (position : Nat) :
    ∃ letter, letter.isAlpha ∧ source.handle position = letter :: Text.digits position := by
  cases source with
  | fragment body => exact ⟨'f', rfl, rfl⟩
  | table name fields =>
      refine ⟨_, ?_, rfl⟩
      split
      · split
        · assumption
        · rfl
      · rfl

theorem Calm.handle (source : Source) (position : Nat) : Calm (source.handle position) [] := by
  have hdigits : Calm (Text.digits position) [] := .digits (.digits position)
  obtain ⟨letter, hletter, hhandle⟩ := source.exists_letter position
  have hplain : Calm [letter] [] := by
    refine .plain ?_
    rw [List.all_cons, List.all_nil, Bool.and_true]
    exact isPlainChar_of_isAlphanum (by simp [Char.isAlphanum, hletter])
  rw [hhandle]
  exact hplain.append_plain hdigits

theorem Source.named_tidy (source : Source) (schema : Option String) (mode : NameMode)
    (position : Nat) : (source.named schema mode position).Tidy := by
  have hhandle := Calm.handle source position
  cases source with
  | fragment body =>
      refine ⟨hhandle, fun t ht => ?_⟩
      cases ht
  | table name fields =>
      have htable : Calm (QualifiedName.quote ⟨schema, name⟩) [] := .quote _
      constructor
      · cases mode with
        | select => exact hhandle
        | bulk => exact htable
      · intro t ht
        cases ht
        exact htable

theorem Query.namedSources_tidy (q : Query) (mode : NameMode) :
    ∀ s ∈ q.namedSources mode, s.Tidy := by
  intro s hs
  obtain ⟨source, -, k, rfl⟩ := mem_nameSources hs
  exact source.named_tidy q.schema mode k

end LiteSql
