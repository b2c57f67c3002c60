import LiteSql.Proofs.Reader

/-!
# Texts that the reader takes

A text is read as a term, as an operator with its operands, as an expression or as a
list *for every rest* that can follow it there: a term ends at a blank, a comma or a
closing parenthesis, and an expression ends where no operator follows. There is one
lemma for each way in which these texts are put together.
-/

namespace LiteSql

namespace Reader

/-- What can follow an expression: the end, a parenthesis, a comma, or the type of
a cast. No operator is among them. -/
inductive EndsExpr : Text → Prop
  | nil : EndsExpr []
  | close (s : Text) : EndsExpr (')' :: s)
  | comma (s : Text) : EndsExpr (',' :: s)
  | type (s : Text) : EndsExpr (" AS ".toList ++ s)

theorem EndsExpr.endsTerm {rest : Text} (h : EndsExpr rest) : EndsTerm rest := by
  cases h with
  | nil => exact .nil
  | close s => exact .close s
  | comma s => exact .comma s
  | type s => exact .blank _

theorem EndsExpr.applied?_eq {rest : Text} (h : EndsExpr rest) (values : Nat → Option Value)
    (inner : Text → Option (Reading × Text)) (left : Reading) :
    applied? values inner left rest = some (left, rest) := by
  cases h <;> rfl

/-- The text is read as a term, whatever follows that ends one. -/
def ReadsTerm (values : Nat → Option Value) (t : Text) (r : Reading) : Prop :=
  ∀ n, t.length ≤ n → ∀ rest, EndsTerm rest →
    term? values (nested? values n) (t ++ rest) = some (r, rest)

/-- The text is read as an expression, whatever follows that ends one. -/
def ReadsExpr (values : Nat → Option Value) (t : Text) (r : Reading) : Prop :=
  ∀ n, t.length < n → ∀ rest, EndsExpr rest → nested? values n (t ++ rest) = some (r, rest)

/-- The text is read as an operator with its operands. This is done even if another
operator follows, which is then left over. -/
def ReadsApplied (values : Nat → Option Value) (t : Text) (r : Reading) : Prop :=
  ∀ n, t.length < n → ∀ rest, EndsTerm rest → nested? values n (t ++ rest) = some (r, rest)

/-- The text is read as a list, up to a closing parenthesis. -/
def ReadsItems (values : Nat → Option Value) (t : Text) (rs : List Reading) : Prop :=
  ∀ n, t.length < n → ∀ rest, items? (nested? values n) (t ++ ')' :: rest) = some (rs, rest)

variable {values : Nat → Option Value}

theorem ReadsApplied.readsExpr {t : Text} {r : Reading} (ht : ReadsApplied values t r) :
    ReadsExpr values t r :=
  fun n hn rest hrest => ht n hn rest hrest.endsTerm

theorem ReadsTerm.nested?_eq {t : Text} {r : Reading} (ht : ReadsTerm values t r) {n : Nat}
    (hn : t.length ≤ n) {rest : Text} (hrest : EndsTerm rest) :
    nested? values (n + 1) (t ++ rest) = applied? values (nested? values n) r rest := by
  rw [nested?, expr?, ht n hn rest hrest]

theorem ReadsTerm.readsExpr {t : Text} {r : Reading} (ht : ReadsTerm values t r) :
    ReadsExpr values t r := by
  intro n hn rest hrest
  obtain ⟨n, rfl⟩ : ∃ m, n = m + 1 := ⟨n - 1, by omega⟩
  rw [ht.nested?_eq (by omega) hrest.endsTerm]
  exact hrest.applied?_eq values (nested? values n) r

/-- A text that starts with a blank is applied to a term. -/
theorem ReadsTerm.applied {t u : Text} {left r : Reading} (ht : ReadsTerm values t left)
    (hu : ∀ n, u.length < n → ∀ rest, EndsTerm rest →
      applied? values (nested? values n) left (' ' :: (u ++ rest)) = some (r, rest)) :
    ReadsApplied values (t ++ ' ' :: u) r := by
  intro n hn rest hrest
  rw [List.length_append, List.length_cons] at hn
  obtain ⟨n, rfl⟩ : ∃ m, n = m + 1 := ⟨n - 1, by omega⟩
  rw [List.append_assoc, List.cons_append, ht.nested?_eq (by omega) (.blank _)]
  exact hu n (by omega) rest hrest

theorem ReadsTerm.isNull {t : Text} {r : Reading} (ht : ReadsTerm values t r) :
    ReadsApplied values (t ++ " IS NULL".toList) (.isNull r) := by
  refine ht.applied (u := "IS NULL".toList) fun n _ rest _ => ?_
  rfl

theorem applied?_operator (values : Nat → Option Value)
    (inner : Text → Option (Reading × Text)) (left : Reading) (op : BinaryOp) (s : Text) :
    applied? values inner left (' ' :: (op.symbol.toList ++ ' ' :: s)) = (do
      let (right, rest) ← term? values inner s
      return (.binary op left right, rest)) := by
  cases op <;> rfl

theorem ReadsTerm.binary {s t : Text} {left right : Reading} (op : BinaryOp)
    (hs : ReadsTerm values s left) (ht : ReadsTerm values t right) :
    ReadsApplied values (s ++ ' ' :: (op.symbol.toList ++ ' ' :: t)) (.binary op left right) := by
  refine hs.applied fun n hn rest hrest => ?_
  have hlength : t.length ≤ n := by
    simp only [List.length_cons, List.length_append] at hn
    omega
  have hright := ht n hlength rest hrest
  have hoperator := applied?_operator values (nested? values n) left op (t ++ rest)
  rw [hright] at hoperator
  simpa using hoperator

theorem ReadsTerm.isIn {s t : Text} {left : Reading} {items : List Reading}
    (hs : ReadsTerm values s left) (ht : ReadsItems values t items) :
    ReadsApplied values (s ++ (" IN ".toList ++ Text.parenthesized t)) (.isIn left items) := by
  refine hs.applied (u := "IN ".toList ++ Text.parenthesized t) fun n hn rest _ => ?_
  have hlength : t.length < n := by
    simp only [Text.parenthesized, List.length_cons, List.length_append] at hn
    omega
  have hitems := ht n hlength rest
  have hsplit : ' ' :: ("IN ".toList ++ Text.parenthesized t ++ rest) =
      " IN (".toList ++ (t ++ ')' :: rest) := by
    simp [Text.parenthesized]
  have hnull : after? " IS NULL".toList (" IN (".toList ++ (t ++ ')' :: rest)) = none := rfl
  rw [hsplit, applied?, hnull]
  simp only [after?_append, hitems]
  rfl

theorem ReadsExpr.closed {t : Text} {r : Reading} (ht : ReadsExpr values t r) {n : Nat}
    (hn : t.length < n) (rest : Text) :
    closed? (nested? values n) (t ++ ')' :: rest) = some (r, rest) := by
  simp [closed?, ht n hn _ (.close rest), after?]

theorem ReadsExpr.parenthesized {t : Text} {r : Reading} (ht : ReadsExpr values t r) :
    ReadsTerm values (Text.parenthesized t) r := by
  intro n hn rest _
  have hlength : t.length < n := by
    simp only [Text.parenthesized, List.length_cons, List.length_append] at hn
    omega
  have hclosed := ht.closed hlength rest
  have hopen : isNameStart '(' = false := rfl
  simpa [Text.parenthesized, term?, hopen] using hclosed

theorem term?_keyword (values : Nat → Option Value) (inner : Text → Option (Reading × Text))
    {word : Text} (hword : word = "NOT".toList ∨ word = "DISTINCT".toList) (s : Text) :
    term? values inner (word ++ ' ' :: s) = none := by
  have hblank : ∀ d ∈ (' ' :: s).head?, isNameChar d = false := forall_head_cons rfl s
  rcases hword with rfl | rfl
  · exact (term?_word (w := "OT".toList) rfl (List.all_eq_true.mp rfl) hblank).trans
      (named?_blank (by decide) (by decide) s)
  · exact (term?_word (w := "ISTINCT".toList) rfl (List.all_eq_true.mp rfl) hblank).trans
      (named?_blank (by decide) (by decide) s)

theorem ReadsExpr.not {t : Text} {r : Reading} (ht : ReadsExpr values t r) :
    ReadsApplied values ("NOT ".toList ++ Text.parenthesized t) (.not r) := by
  intro n hn rest _
  obtain ⟨n, rfl⟩ : ∃ m, n = m + 1 := ⟨n - 1, by omega⟩
  have hlength : t.length < n := by
    simp only [Text.parenthesized, List.length_cons, List.length_append] at hn
    omega
  have hsplit : "NOT ".toList ++ Text.parenthesized t ++ rest =
      "NOT (".toList ++ (t ++ ')' :: rest) := by
    simp [Text.parenthesized]
  have hterm : term? values (nested? values n) ("NOT (".toList ++ (t ++ ')' :: rest)) = none :=
    term?_keyword values _ (.inl rfl) _
  rw [hsplit, nested?, expr?, hterm]
  simp only [after?_append, Option.bind_eq_bind, Option.bind_some, ht.closed hlength rest,
    Option.pure_def]

theorem endsExpr_items (ss : List Text) (rest : Text) :
    EndsExpr (ss.flatMap (", ".toList ++ ·) ++ ')' :: rest) := by
  cases ss with
  | nil => exact .close rest
  | cons s ss => exact .comma _

theorem moreItems?_eq {ss : List Text} {rs : List Reading}
    (hss : List.Forall₂ (ReadsExpr values) ss rs) {n k : Nat}
    (hn : (ss.flatMap (", ".toList ++ ·)).length < n)
    (hk : (ss.flatMap (", ".toList ++ ·)).length < k) (rest : Text) :
    moreItems? (nested? values n) k (ss.flatMap (", ".toList ++ ·) ++ ')' :: rest) =
      some (rs, rest) := by
  -- Every item has a comma before it, so the length of the text bounds their number.
  obtain ⟨k, rfl⟩ : ∃ m, k = m + 1 := ⟨k - 1, by omega⟩
  induction hss generalizing k with
  | nil => simp [moreItems?, after?]
  | @cons s r ss rs hs _ ih =>
      have hlength : ((s :: ss).flatMap (", ".toList ++ ·)).length =
          s.length + (ss.flatMap (", ".toList ++ ·)).length + 2 := by
        simp only [List.flatMap_cons, List.length_append, String.reduceToList, List.length_cons,
          List.length_nil]
        omega
      rw [hlength] at hn hk
      have hread := hs n (by omega) _ (endsExpr_items ss rest)
      obtain ⟨k, rfl⟩ : ∃ m, k = m + 1 := ⟨k - 1, by omega⟩
      have hmore := ih (by omega) k (by omega)
      have hclose : after? [')'] (", ".toList ++ (s ++ (ss.flatMap (", ".toList ++ ·) ++
        ')' :: rest))) = none := rfl
      rw [List.flatMap_cons, List.append_assoc, List.append_assoc, moreItems?, hclose]
      simp only [after?_append, Option.bind_eq_bind, Option.bind_some, hread, hmore, Option.pure_def]

/-- No expression starts with a closing parenthesis or a star. -/
theorem nested?_of_head (values : Nat → Option Value) {c : Char} (hc : c = ')' ∨ c = '*') (n : Nat)
    (s : Text) : nested? values n (c :: s) = none := by
  cases n with
  | zero => rfl
  | succ n =>
      rcases hc with rfl | rfl
      · rfl
      · rfl

theorem ReadsItems.joined {ss : List Text} {rs : List Reading}
    (hss : List.Forall₂ (ReadsExpr values) ss rs) :
    ReadsItems values (Text.joined ", " ss) rs := by
  intro n hn rest
  cases hss with
  | nil =>
      have hnone := nested?_of_head values (.inl rfl) n rest
      simp [items?, Text.joined, hnone, after?]
  | @cons s r ss rs hs hrest =>
      rw [Text.joined_cons] at hn ⊢
      rw [List.length_append] at hn
      have hmore := moreItems?_eq hrest (n := n) (by omega)
        (k := (ss.flatMap (", ".toList ++ ·) ++ ')' :: rest).length) (by simp) rest
      rw [List.append_assoc, items?, hs n (by omega) _ (endsExpr_items ss rest)]
      simp only [hmore, Option.bind_eq_bind, Option.bind_some, Option.pure_def]

/-- An identifier of ASCII characters. -/
def IsName (name : Text) : Prop :=
  ∃ c w, name = c :: w ∧ isNameStart c ∧ ∀ d ∈ w, isNameChar d

theorem IsName.term?_eq {name : Text} (hname : IsName name) (values : Nat → Option Value)
    (inner : Text → Option (Reading × Text)) {rest : Text}
    (hrest : ∀ d ∈ rest.head?, isNameChar d = false) :
    term? values inner (name ++ rest) = named? inner name rest := by
  obtain ⟨c, w, rfl, hc, hw⟩ := hname
  exact term?_word hc hw hrest

/-- A word before a blank starts no list of arguments. -/
theorem arguments?_distinct (values : Nat → Option Value) (name : Text) (n : Nat) (s : Text) :
    arguments? (nested? values n) name false ("DISTINCT ".toList ++ s) = none := by
  have hnone : nested? values n ("DISTINCT ".toList ++ s) = none := by
    cases n with
    | zero => rfl
    | succ n =>
        have hterm : term? values (nested? values n) ("DISTINCT ".toList ++ s) = none :=
          term?_keyword values _ (.inr rfl) s
        rw [nested?, expr?, hterm]
        rfl
  have hclose : after? [')'] ("DISTINCT ".toList ++ s) = none := rfl
  have hstar : after? "*)".toList ("DISTINCT ".toList ++ s) = none := rfl
  simp only [arguments?, items?, hnone, hclose, hstar, Option.bind_eq_bind, Option.bind_none, ite_self]

theorem arguments?_star (values : Nat → Option Value) {name : String} (hname : isCount name)
    (distinct : Bool) (n : Nat) (rest : Text) :
    arguments? (nested? values n) name.toList distinct ("*)".toList ++ rest) =
      some (.countAll name.toList distinct, rest) := by
  have hnone : nested? values n ("*)".toList ++ rest) = none :=
    nested?_of_head values (.inr rfl) n _
  have hclose : after? [')'] ("*)".toList ++ rest) = none := rfl
  simp only [arguments?, items?, hnone, hclose, String.ofList_toList, hname, after?_append,
    Option.bind_eq_bind, Option.bind_none, Option.bind_some, if_true, Option.pure_def]

/-- A call with either list of arguments and with or without the flag. -/
theorem ReadsTerm.call {name : Text} (hname : IsName name) {list : Text} {r : Bool → Reading}
    (hlist : ∀ n, list.length < n → ∀ distinct rest,
      arguments? (nested? values n) name distinct (list ++ ')' :: rest) = some (r distinct, rest))
    (distinct : Bool) :
    ReadsTerm values (name ++ Text.parenthesized
      ((if distinct then "DISTINCT ".toList else []) ++ list)) (r distinct) := by
  intro n hn rest _
  have hlength : list.length < n := by
    simp only [Text.parenthesized, List.length_append, List.length_cons] at hn
    omega
  have hopen : ∀ s : Text, term? values (nested? values n) (name ++ '(' :: s) =
      call? (nested? values n) name s := by
    intro s
    rw [hname.term?_eq values _ (forall_head_cons rfl _)]
    rfl
  rw [List.append_assoc, Text.parenthesized, List.cons_append, hopen, call?]
  cases distinct with
  | false =>
      have hargs := hlist n hlength false rest
      simp [hargs]
  | true =>
      have hargs := hlist n hlength true rest
      have hsplit : (if true then "DISTINCT ".toList else []) ++ list ++ [')'] ++ rest =
          "DISTINCT ".toList ++ (list ++ ')' :: rest) := by
        simp
      rw [hsplit, arguments?_distinct]
      simp only [after?_append, Option.bind_eq_bind, Option.bind_some, hargs]

theorem ReadsTerm.field {letter : Char} (hletter : letter.isAlpha) (k : Nat) (column : Text) :
    ReadsTerm values (letter :: Text.digits k ++ '.' :: Text.quoted '"' column)
      (.field k column) := by
  intro n _ rest hrest
  have hdigits : IsDigits (Text.digits k) := .digits k
  have hname : IsName (letter :: Text.digits k) := by
    refine ⟨letter, _, rfl, by simp [isNameStart, hletter], fun d hd => ?_⟩
    simp [isNameChar, Char.isAlphanum, hdigits.2 d hd]
  have hposition : digits? (Text.digits k) = some (Text.digits k, []) := by
    have hread : digits? (Text.digits k ++ []) = some (Text.digits k, []) :=
      digits?_append hdigits (by simp)
    rwa [List.append_nil] at hread
  have hcolumn : Text.readQuoted '"' (Text.quoted '"' column ++ rest) = .ok (column, rest) :=
    Text.readQuoted_eq_ok_iff.mpr ⟨rfl, hrest.head?_ne .double⟩
  have hpoint : ∀ d ∈ ('.' :: Text.quoted '"' column ++ rest).head?, isNameChar d = false :=
    forall_head_cons rfl _
  rw [List.append_assoc, hname.term?_eq values _ hpoint]
  change field? (letter :: Text.digits k) (Text.quoted '"' column ++ rest) = _
  rw [field?, List.drop_succ_cons, List.drop_zero, hposition, hcolumn]
  simp only [ofDigits_digits]

theorem ReadsTerm.cast {t type : Text} {r : Reading} (ht : ReadsExpr values t r)
    (htype : ∀ c ∈ type, isNameChar c) :
    ReadsTerm values ("CAST ".toList ++ Text.parenthesized (t ++ " AS ".toList ++ type))
      (.cast r type) := by
  intro n hn rest _
  have hlength : t.length < n := by
    simp only [Text.parenthesized, List.length_append, List.length_cons] at hn
    omega
  have hsplit : "CAST ".toList ++ Text.parenthesized (t ++ " AS ".toList ++ type) ++ rest =
      "CAST".toList ++ (" (".toList ++ (t ++ (" AS ".toList ++ (type ++ ')' :: rest)))) := by
    simp [Text.parenthesized]
  have hname : IsName "CAST".toList := ⟨'C', "AST".toList, rfl, rfl, List.all_eq_true.mp rfl⟩
  have hinner := ht n hlength _ (.type (type ++ ')' :: rest))
  obtain ⟨htake, hdrop⟩ := run_append htype (forall_head_cons (c := ')') rfl rest)
  have hblank : ∀ d ∈ (" (".toList ++ (t ++ (" AS ".toList ++ (type ++ ')' :: rest)))).head?,
      isNameChar d = false := forall_head_cons rfl _
  rw [hsplit, hname.term?_eq values _ hblank]
  change cast? (nested? values n) _ = _
  simp only [cast?, after?_append, Option.bind_eq_bind, Option.bind_some, hinner, htake, hdrop]
  rfl

theorem ReadsTerm.null : ReadsTerm values "NULL".toList (.literal "NULL".toList) := by
  intro n _ rest hrest
  have hname : IsName "NULL".toList := ⟨'N', "ULL".toList, rfl, rfl, List.all_eq_true.mp rfl⟩
  rw [hname.term?_eq values _ (hrest.forall_head rfl rfl rfl)]
  cases hrest with
  | nil => rfl
  | blank s => rfl
  | close s => rfl
  | comma s => rfl

theorem ReadsTerm.literal {t : Text} (ht : LiteralForm t) : ReadsTerm values t (.literal t) := by
  cases ht with
  | null => exact .null
  | number m =>
      intro n _ rest hrest
      exact term?_number m hrest
  | string s =>
      intro n _ rest hrest
      have hstring := string?_quoted s hrest
      change (string? (Text.quoted '\'' s ++ rest)).bind _ = _
      rw [hstring]
      rfl
  | blob s =>
      intro n _ rest hrest
      have hstring := string?_quoted s hrest
      change (string? (Text.quoted '\'' s ++ rest)).bind _ = _
      rw [hstring]
      rfl

theorem ReadsTerm.param {k : Nat} {v : Value} (hv : values k = some v) :
    ReadsTerm values (placeholder k) (.param v) := by
  intro n _ rest hrest
  have hend : ∀ c ∈ rest.head?, c.isDigit = false := hrest.forall_head rfl rfl rfl
  have hdigits := digits?_append (.digits k) hend
  change placeholder? values (Text.digits k ++ rest) = _
  simp [placeholder?, hdigits, ofDigits_digits, hv]

end Reader

end LiteSql
