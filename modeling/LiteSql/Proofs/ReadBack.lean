import LiteSql.Proofs.CalmExpr
import LiteSql.Proofs.ReaderForms
import LiteSql.Proofs.Refusal

/-!
# Expressions are read back

The text of an expression, together with its parameters, spells one tree: the reader
without precedence takes the whole text and gives the tree back. In the tree, literals
and types are known by their text, bound values in a list are placeholders like any
other, and a count without arguments counts rows.

The proof follows the expression. A compound expression is read as an operator with its
operands, all others are read as terms. An operand is a term because it is put in
parentheses unless it is one already.
-/

namespace LiteSql

mutual

/-- The tree that the text of an expression spells. Rows and fragments have none. -/
def Expr.reading? : Expr → Option Reading
  | .field source column => some (.field source.toNat column.toList)
  | .row _ => none
  | .literal value => some (.literal value.literal)
  | .param value => some (.param value)
  | .binary op left right => do
    let l ← left.reading?
    let r ← right.reading?
    return .binary op l r
  | .not inner => do
    let r ← inner.reading?
    return .not r
  | .isNull inner => do
    let r ← inner.reading?
    return .isNull r
  | .cast inner target => do
    let r ← inner.reading?
    let type ← target.castTarget.toOption
    return .cast r type
  | .isIn left right => do
    let l ← left.reading?
    let items ← right.readings?
    return .isIn l items
  | .fragment _ => none
  | .call name args distinct => do
    let rs ← readingsOfEach? args
    return if args.isEmpty && isCount name then .countAll name.toList distinct
      else .call name.toList rs distinct

/-- Bound values are read as placeholders in a list of expressions. -/
def InList.readings? : InList → Option (List Reading)
  | .exprs items => readingsOfEach? items
  | .params values => some (values.map .param)
  | .fragment _ => none

def readingsOfEach? : List Expr → Option (List Reading)
  | [] => some []
  | e :: es => do
    let r ← e.reading?
    let rs ← readingsOfEach? es
    return r :: rs

end

/-- A node whose text can be read back. -/
def Node.IsReadable : Node → Prop
  | .fragment _ => False
  | .expr (.row _) => False
  | .expr (.cast _ target) => ∀ name, target ≠ .custom name
  | .expr (.call name _ _) => Reader.IsName name.toList
  | .expr _ => True

theorem Fragment.not_isReadable (body : Fragment) : ¬ ∀ node ∈ body.nodes, node.IsReadable := by
  intro h
  cases body with
  | template sql args => exact h (.fragment (.template sql args)) (by simp [Fragment.nodes])
  | keyword args => exact h (.fragment (.keyword args)) (by simp [Fragment.nodes])

/-- The values are found under the numbers that follow `i`. -/
def Agrees (values : Nat → Option Value) (i : Nat) (vs : List Value) : Prop :=
  ∀ k v, vs[k]? = some v → values (i + k + 1) = some v

theorem Agrees.append {values : Nat → Option Value} {i : Nat} {vs ws : List Value}
    (h : Agrees values i (vs ++ ws)) : Agrees values i vs ∧ Agrees values (i + vs.length) ws := by
  constructor
  · intro k v hk
    exact h k v (by rw [List.getElem?_append_left (List.getElem?_eq_some_iff.mp hk).1, hk])
  · intro k v hk
    have hshift : (vs ++ ws)[vs.length + k]? = some v := by
      rw [List.getElem?_append_right (by omega), Nat.add_sub_cancel_left, hk]
    have hvalue := h (vs.length + k) v hshift
    rwa [← Nat.add_assoc] at hvalue

/-- The text of an expression is read back: as an operator with its operands if the
expression is compound, and as a term if not. -/
def ReadsBack (e : Expr) (i : Nat) (s : Text) (vs : List Value) : Prop :=
  ∀ values, Agrees values i vs → ∃ r, e.reading? = some r ∧
    if e.isCompound then Reader.ReadsApplied values s r else Reader.ReadsTerm values s r

def ReadsBackItems (l : InList) (i : Nat) (s : Text) (vs : List Value) : Prop :=
  ∀ values, Agrees values i vs → ∃ rs, l.readings? = some rs ∧ Reader.ReadsItems values s rs

namespace ReadsBack

variable {e : Expr} {i : Nat} {s : Text} {vs : List Value} {values : Nat → Option Value}

theorem of_term (he : e.isCompound = false)
    (h : ∀ values, Agrees values i vs → ∃ r, e.reading? = some r ∧ Reader.ReadsTerm values s r) :
    ReadsBack e i s vs := by
  intro values hvalues
  rw [he]
  exact h values hvalues

theorem of_applied (he : e.isCompound = true)
    (h : ∀ values, Agrees values i vs → ∃ r, e.reading? = some r ∧
      Reader.ReadsApplied values s r) : ReadsBack e i s vs := by
  intro values hvalues
  rw [he]
  exact h values hvalues

theorem readsExpr (h : ReadsBack e i s vs) (hvalues : Agrees values i vs) :
    ∃ r, e.reading? = some r ∧ Reader.ReadsExpr values s r := by
  obtain ⟨r, hr, hread⟩ := h values hvalues
  refine ⟨r, hr, ?_⟩
  split at hread
  · exact hread.readsExpr
  · exact hread.readsExpr

/-- An operand is a term: it is one already, or it is put in parentheses. -/
theorem operand (h : ReadsBack e i s vs) (hvalues : Agrees values i vs) :
    ∃ r, e.reading? = some r ∧ Reader.ReadsTerm values (e.asOperand s) r := by
  obtain ⟨r, hr, hread⟩ := h values hvalues
  refine ⟨r, hr, ?_⟩
  unfold Expr.asOperand
  cases he : e.isCompound with
  | true =>
      rw [he, if_pos rfl] at hread
      exact hread.readsExpr.parenthesized
  | false =>
      rw [he] at hread
      exact hread

theorem whole?_eq (h : ReadsBack e i s vs) (hvalues : Agrees values i vs) :
    ∃ r, e.reading? = some r ∧ Reader.whole? values s = some r := by
  obtain ⟨r, hr, hexpr⟩ := h.readsExpr hvalues
  have hread := hexpr (s.length + 1) (by omega) [] .nil
  rw [List.append_nil] at hread
  exact ⟨r, hr, by rw [Reader.whole?, hread]⟩

/-- What follows an operator with its operands is left over. -/
theorem whole?_append_eq_none (h : ReadsBack e i s vs) (hvalues : Agrees values i vs)
    (he : e.isCompound = true) (rest : Text) : Reader.whole? values (s ++ ' ' :: rest) = none := by
  obtain ⟨r, -, hread⟩ := h values hvalues
  rw [he, if_pos rfl] at hread
  have hlength : s.length < (s ++ ' ' :: rest).length + 1 := by
    rw [List.length_append]
    omega
  rw [Reader.whole?, hread _ hlength _ (.blank rest)]

end ReadsBack

example : Reader.whole? (fun _ => none) "1 = 2 AND 3".toList = none := rfl

theorem readsBack_each {α : Type} {f : α → Expr} {as : List α} {i : Nat} {ss : List Text}
    {vs : List Value} (h : Emit.Each (fun a => ReadsBack (f a)) as i ss vs)
    {values : Nat → Option Value} (hvalues : Agrees values i vs) :
    ∃ rs, List.Forall₂ (fun a r => (f a).reading? = some r) as rs ∧
      List.Forall₂ (Reader.ReadsExpr values) ss rs := by
  induction h with
  | nil => exact ⟨[], .nil, .nil⟩
  | cons first rest ih =>
      obtain ⟨hfirst, hrest⟩ := hvalues.append
      obtain ⟨r, hr, hexpr⟩ := first.readsExpr hfirst
      obtain ⟨rs, hrs, hexprs⟩ := ih hrest
      exact ⟨r :: rs, .cons hr hrs, .cons hexpr hexprs⟩

theorem readingsOfEach?_eq {es : List Expr} {rs : List Reading}
    (h : List.Forall₂ (fun e r => e.reading? = some r) es rs) : readingsOfEach? es = some rs := by
  induction h with
  | nil => rfl
  | cons hr _ ih => simp [readingsOfEach?, hr, ih]

theorem readings_of_params {values : List Value} {rs : List Reading}
    (h : List.Forall₂ (fun v r => (Expr.param v).reading? = some r) values rs) :
    values.map Reading.param = rs := by
  induction h with
  | nil => rfl
  | cons hr _ ih =>
      rw [Expr.reading?] at hr
      cases hr
      rw [List.map_cons, ih]

theorem exists_letter_of_sourceAt {q : Query} {k : Nat} {s : NamedSource}
    (h : sourceAt (q.namedSources .select) k = .ok s) :
    ∃ letter, letter.isAlpha ∧ s.handle = letter :: Text.digits k := by
  obtain ⟨source, -, rfl⟩ := exists_source_of_sourceAt h
  cases source with
  | table name fields => exact Source.exists_letter (.table name fields) k
  | fragment body => exact Source.exists_letter (.fragment body) k

theorem ColumnType.isNameChar_castTarget {type : ColumnType} (h : ∀ name, type ≠ .custom name)
    {sql : Text} (hsql : type.castTarget = .ok sql) : ∀ c ∈ sql, Reader.isNameChar c := by
  cases type with
  | custom name => exact absurd rfl (h name)
  | array item => cases hsql
  | _ =>
      cases hsql
      exact List.all_eq_true.mp rfl

theorem readsBack_param (v : Value) (i : Nat) :
    ReadsBack (.param v) i (placeholder (i + 1)) [v] := by
  refine .of_term rfl fun values hvalues => ⟨.param v, by rw [Expr.reading?], ?_⟩
  exact .param (hvalues 0 v rfl)

theorem readsBack_call {args : List Expr} {i : Nat} {ss : List Text} {vs : List Value}
    {name : String} (hname : Reader.IsName name.toList) (distinct : Bool)
    (h : Emit.Each ReadsBack args i ss vs) :
    ReadsBack (.call name args distinct) i (callText name distinct ss) vs := by
  refine .of_term rfl fun values hvalues => ?_
  obtain ⟨rs, hrs, hexprs⟩ := readsBack_each h hvalues
  have hempty : args.isEmpty = ss.isEmpty := by
    cases h with
    | nil => rfl
    | cons _ _ => rfl
  rw [Expr.reading?, readingsOfEach?_eq hrs, hempty, callText]
  cases hcount : ss.isEmpty && isCount name with
  | true =>
      rw [Bool.and_eq_true] at hcount
      refine ⟨.countAll name.toList distinct, rfl, ?_⟩
      exact .call (r := .countAll name.toList) hname
        (fun n _ distinct rest => Reader.arguments?_star values hcount.2 distinct n rest) distinct
  | false =>
      refine ⟨.call name.toList rs distinct, rfl, ?_⟩
      refine .call (r := .call name.toList rs) hname (fun n hn distinct rest => ?_) distinct
      have hitems := Reader.ReadsItems.joined hexprs n hn rest
      simp only [Reader.arguments?, Bool.false_eq_true, if_false, hitems]

mutual

theorem Expr.emit_readsBack (q : Query) :
    ∀ e : Expr, (∀ node ∈ e.nodes, node.IsReadable) →
      (e.emit (q.namedSources .select)).Ensures (ReadsBack e)
  | .field source column, _ => by
      rw [Expr.emit]
      refine .ofExcept_bind fun s hs => .pure fun i => .of_term rfl fun values _ => ?_
      obtain ⟨letter, hletter, hhandle⟩ := exists_letter_of_sourceAt hs
      refine ⟨.field source.toNat column.toList, by rw [Expr.reading?], ?_⟩
      rw [NamedSource.column, hhandle]
      exact .field hletter source.toNat column.toList
  | .row source, h => by
      rw [Expr.nodes, List.forall_mem_cons] at h
      exact h.1.elim
  | .literal value, _ => by
      rw [Expr.emit]
      refine .pure fun i => .of_term rfl fun values _ => ?_
      exact ⟨.literal value.literal, by rw [Expr.reading?], .literal value.literalForm⟩
  | .param value, _ => by
      rw [Expr.emit]
      exact .bindValue (readsBack_param value)
  | .binary op left right, h => by
      rw [Expr.nodes, List.forall_mem_cons, List.forall_mem_append] at h
      rw [Expr.emit]
      refine (left.emit_readsBack q h.2.1).map₂ (right.emit_readsBack q h.2.2)
        fun i l vs r ws hl hr => .of_applied rfl fun values hvalues => ?_
      obtain ⟨hvs, hws⟩ := hvalues.append
      obtain ⟨a, ha, hleft⟩ := hl.operand hvs
      obtain ⟨b, hb, hright⟩ := hr.operand hws
      exact ⟨.binary op a b, by simp [Expr.reading?, ha, hb], hleft.binary op hright⟩
  | .not inner, h => by
      rw [Expr.nodes, List.forall_mem_cons] at h
      rw [Expr.emit]
      refine (inner.emit_readsBack q h.2).map fun i s vs hs => .of_applied rfl
        fun values hvalues => ?_
      obtain ⟨r, hr, hexpr⟩ := hs.readsExpr hvalues
      exact ⟨.not r, by simp [Expr.reading?, hr], hexpr.not⟩
  | .isNull inner, h => by
      rw [Expr.nodes, List.forall_mem_cons] at h
      rw [Expr.emit]
      refine (inner.emit_readsBack q h.2).map fun i s vs hs => .of_applied rfl
        fun values hvalues => ?_
      obtain ⟨r, hr, hterm⟩ := hs.operand hvalues
      exact ⟨.isNull r, by simp [Expr.reading?, hr], hterm.isNull⟩
  | .cast inner target, h => by
      rw [Expr.nodes, List.forall_mem_cons] at h
      rw [Expr.emit]
      -- The type is known by its text; it binds nothing.
      have htype : (Emit.ofExcept target.castTarget).Ensures fun _ type vs =>
          target.castTarget = .ok type ∧ vs = [] :=
        .ofExcept fun type htype _ => ⟨htype, rfl⟩
      refine .refuseIf_bind fun _ => (inner.emit_readsBack q h.2).map₂ htype
        fun i s vs type ws hs ht => .of_term rfl fun values hvalues => ?_
      obtain ⟨r, hr, hexpr⟩ := hs.readsExpr hvalues.append.1
      refine ⟨.cast r type, by simp [Expr.reading?, hr, ht.1, Except.toOption], ?_⟩
      exact .cast hexpr (ColumnType.isNameChar_castTarget h.1 ht.1)
  | .isIn left right, h => by
      rw [Expr.nodes, List.forall_mem_cons, List.forall_mem_append] at h
      rw [Expr.emit]
      refine (left.emit_readsBack q h.2.1).map₂ (right.emit_readsBack q h.2.2)
        fun i l vs items ws hl hitems => .of_applied rfl fun values hvalues => ?_
      obtain ⟨hvs, hws⟩ := hvalues.append
      obtain ⟨a, ha, hleft⟩ := hl.operand hvs
      obtain ⟨rs, hrs, hlist⟩ := hitems values hws
      refine ⟨.isIn a rs, by simp [Expr.reading?, ha, hrs], ?_⟩
      rw [List.append_assoc]
      exact hleft.isIn hlist
  | .fragment body, h => by
      rw [Expr.nodes, List.forall_mem_cons] at h
      exact absurd h.2 body.not_isReadable
  | .call name args distinct, h => by
      rw [Expr.nodes, List.forall_mem_cons] at h
      rw [Expr.emit]
      exact (emitEach_readsBack q args h.2).map fun i ss vs hss => readsBack_call h.1 distinct hss

theorem InList.emit_readsBack (q : Query) :
    ∀ l : InList, (∀ node ∈ l.nodes, node.IsReadable) →
      (l.emit (q.namedSources .select)).Ensures (ReadsBackItems l)
  | .exprs items, h => by
      rw [InList.nodes] at h
      rw [InList.emit]
      refine (emitEach_readsBack q items h).map fun i ss vs hss values hvalues => ?_
      obtain ⟨rs, hrs, hexprs⟩ := readsBack_each hss hvalues
      exact ⟨rs, by rw [InList.readings?, readingsOfEach?_eq hrs], .joined hexprs⟩
  | .params bound, _ => by
      rw [InList.emit]
      refine (Emit.Ensures.bindValues readsBack_param bound).map
        fun i ss vs hss values hvalues => ?_
      obtain ⟨rs, hrs, hexprs⟩ := readsBack_each hss hvalues
      exact ⟨rs, by rw [InList.readings?, readings_of_params hrs], .joined hexprs⟩
  | .fragment body, h => by
      rw [InList.nodes] at h
      exact absurd h body.not_isReadable

theorem emitEach_readsBack (q : Query) :
    ∀ es : List Expr, (∀ node ∈ nodesOfEach es, node.IsReadable) →
      (emitEach (q.namedSources .select) es).Ensures (Emit.Each ReadsBack es)
  | [], _ => by
      rw [emitEach]
      exact .each_nil
  | e :: es, h => by
      rw [nodesOfEach, List.forall_mem_append] at h
      rw [emitEach]
      exact .each_cons (e.emit_readsBack q h.1) (emitEach_readsBack q es h.2)

end

/-- The value of the placeholder `k` among values that are numbered on from `i`. -/
def valueAt (i : Nat) (vs : List Value) (k : Nat) : Option Value :=
  if i < k then vs[k - i - 1]? else none

theorem agrees_valueAt (i : Nat) (vs : List Value) : Agrees (valueAt i vs) i vs := by
  intro k v hk
  have hindex : i + k + 1 - i - 1 = k := by omega
  rw [valueAt, if_pos (by omega), hindex, hk]

theorem agrees_valueAt_append (ps vs : List Value) :
    Agrees (valueAt 0 (ps ++ vs)) ps.length vs := by
  have hboth := (agrees_valueAt 0 (ps ++ vs)).append.2
  rwa [Nat.zero_add] at hboth

theorem Reader.IsName.isAlphanum {name : Text} (hname : IsName name) :
    ∀ c ∈ name, c.isAlphanum ∨ c = '_' := by
  obtain ⟨c, w, rfl, hc, hw⟩ := hname
  rw [List.forall_mem_cons]
  constructor
  · simp only [isNameStart, Bool.or_eq_true, beq_iff_eq] at hc
    rcases hc with hletter | hline
    · exact .inl (by simp [Char.isAlphanum, hletter])
    · exact .inr hline
  · intro d hd
    simpa [isNameChar] using hw d hd

theorem Node.IsReadable.isPlain {node : Node} (h : node.IsReadable) : node.IsPlain := by
  cases node with
  | fragment body => exact h
  | expr e =>
      cases e with
      | cast inner target => exact h
      | call name args distinct => exact h.isAlphanum
      | _ => trivial

/-- A text with a placeholder tells from which number it was written on, so equal
texts with equal values have a common assignment of values. -/
theorem exists_agrees {i j : Nat} {s : Text} {vs : List Value} (hi : Contained i s vs)
    (hj : Contained j s vs) : ∃ values, Agrees values i vs ∧ Agrees values j vs := by
  have hnumbers : numbersFrom i vs.length = numbersFrom j vs.length := by
    rw [← hi.numbers_eq, hj.numbers_eq]
  cases vs with
  | nil =>
      -- Without values nothing is looked up.
      exact ⟨fun _ => none, by simp [Agrees], by simp [Agrees]⟩
  | cons v vs =>
      have hfirst : Text.digits (i + 1) = Text.digits (j + 1) := by
        simpa [numbersFrom, List.range'_succ] using congrArg List.head? hnumbers
      have hij : i + 1 = j + 1 := by
        rw [← ofDigits_digits (i + 1), hfirst, ofDigits_digits]
      obtain rfl : i = j := by omega
      exact ⟨valueAt i (v :: vs), agrees_valueAt i _, agrees_valueAt i _⟩

/-- Text keeps the tree without relying on precedence. The reader takes the whole
text of an expression and gives back its tree, with the values under the numbers of
their placeholders; if every value that was bound before had its number, these are
the places of the values among all parameters. A second operator without parentheses
would be refused. Hence expressions with the same text and the same values have the
same tree. -/
theorem text_reads_back :
    (∀ (q : Query) (e : Expr), (∀ node ∈ e.nodes, node.IsReadable) →
      ∀ (p p' : Params) (s : Text), (e.emit (q.namedSources .select)).run p = .ok s p' →
        ∃ vs r, p' = p.add vs ∧ e.reading? = some r ∧
          Reader.whole? (valueAt p.last vs) s = some r ∧
          (p.last = p.values.length → Reader.whole? (valueAt 0 p'.values) s = some r) ∧
          (e.isCompound = true →
            ∀ rest, Reader.whole? (valueAt p.last vs) (s ++ ' ' :: rest) = none)) ∧
    ∀ (q₁ q₂ : Query) (e₁ e₂ : Expr), (∀ node ∈ e₁.nodes, node.IsReadable) →
      (∀ node ∈ e₂.nodes, node.IsReadable) → ∀ (p₁ p₂ : Params) (s : Text) (vs : List Value),
        (e₁.emit (q₁.namedSources .select)).run p₁ = .ok s (p₁.add vs) →
        (e₂.emit (q₂.namedSources .select)).run p₂ = .ok s (p₂.add vs) →
          e₁.reading? = e₂.reading? := by
  constructor
  · intro q e h p p' s hrun
    obtain ⟨vs, rfl, hback⟩ := e.emit_readsBack q h p s p' hrun
    obtain ⟨r, hr, hread⟩ := hback.whole?_eq (agrees_valueAt p.last vs)
    refine ⟨vs, r, rfl, hr, hread, fun hlast => ?_, fun he rest => ?_⟩
    · rw [hlast] at hback
      obtain ⟨r', hr', hread'⟩ := hback.whole?_eq (agrees_valueAt_append p.values vs)
      rw [hr] at hr'
      cases hr'
      exact hread'
    · exact hback.whole?_append_eq_none (agrees_valueAt p.last vs) he rest
  · intro q₁ q₂ e₁ e₂ h₁ h₂ p₁ p₂ s vs hrun₁ hrun₂
    have hplain₁ := e₁.emit_contained (q₁.namedSources_tidy .select) fun node hnode =>
      (h₁ node hnode).isPlain
    have hplain₂ := e₂.emit_contained (q₂.namedSources_tidy .select) fun node hnode =>
      (h₂ node hnode).isPlain
    obtain ⟨values, hvalues₁, hvalues₂⟩ := exists_agrees (hplain₁.of_add hrun₁)
      (hplain₂.of_add hrun₂)
    obtain ⟨r₁, hr₁, hread₁⟩ := ((e₁.emit_readsBack q₁ h₁).of_add hrun₁).whole?_eq hvalues₁
    obtain ⟨r₂, hr₂, hread₂⟩ := ((e₂.emit_readsBack q₂ h₂).of_add hrun₂).whole?_eq hvalues₂
    rw [hread₁] at hread₂
    rw [hr₁, hr₂, hread₂]

/-- A test with parentheses and operators in a name, and a cast in front of `IN`. -/
def Expr.ofNestedTests (items : InList) : Expr :=
  .and (.not (.isNull (.field 0 "a) AND (b")))
    (.isIn (.binary .sub (.cast (.param (.int 7)) .integer) (.literal (.int (-5)))) items)

theorem Expr.ofNestedTests_isReadable {items : InList}
    (h : ∀ node ∈ items.nodes, node.IsReadable) :
    ∀ node ∈ (Expr.ofNestedTests items).nodes, node.IsReadable := by
  simpa [Expr.ofNestedTests, Expr.and, Expr.nodes, Node.IsReadable] using h

theorem text_reads_back_in_sample :
    ∃ s, s = "(NOT (p0.\"a) AND (b\" IS NULL)) AND ((CAST (?1 AS INTEGER) - -5) IN (?2, ?3))".toList ∧
      ((Expr.ofNestedTests (.params [.int 8, .int 9])).emit
        ((Query.ofTable "posts").namedSources .select)).run {} =
          .ok s (Params.add {} [.int 7, .int 8, .int 9]) ∧
      (∃ r, (Expr.ofNestedTests (.params [.int 8, .int 9])).reading? = some r ∧
        Reader.whole? (valueAt 0 [.int 7, .int 8, .int 9]) s = some r) ∧
      (Expr.ofNestedTests (.params [.int 8, .int 9])).reading? =
        (Expr.ofNestedTests (.exprs [.param (.int 8), .param (.int 9)])).reading? := by
  have hvalues : ∀ node ∈ (Expr.ofNestedTests (.params [.int 8, .int 9])).nodes,
      node.IsReadable := Expr.ofNestedTests_isReadable (by simp [InList.nodes])
  have hexprs : ∀ node ∈ (Expr.ofNestedTests (.exprs [.param (.int 8), .param (.int 9)])).nodes,
      node.IsReadable := Expr.ofNestedTests_isReadable
    (by simp [InList.nodes, nodesOfEach, Expr.nodes, Node.IsReadable])
  refine ⟨_, rfl, rfl, ?_, text_reads_back.2 (.ofTable "posts") (.ofTable "posts") _ _ hvalues hexprs
    {} {} _ [.int 7, .int 8, .int 9] rfl rfl⟩
  obtain ⟨vs, r, -, hr, -, hread, -⟩ :=
    text_reads_back.1 (.ofTable "posts") _ hvalues {} (Params.add {} [.int 7, .int 8, .int 9]) _ rfl
  exact ⟨r, hr, hread rfl⟩

end LiteSql
