import LiteSql.Proofs.CalmExpr
import LiteSql.Proofs.Refusal

/-!
# Templates and what is spliced into them

The expansion of a template is said place by place: a splice point becomes the text
with its number, the backslash of an escaped question mark is left out, and every
other character stays. `expandFrom` is the same expansion from left to right, with
the character before the current one carried along, so that no place has to be
computed. Writing a fragment succeeds exactly if the splice points are as many as
the arguments and these can be written one after the other, and it gives the
expansion with their texts. Nothing that is spliced in is looked at again.

The text of a bound value is a placeholder, and a template may go on with a digit
right after a splice point. Such digits become part of the placeholder, and nothing
else does.
-/

namespace LiteSql

namespace Template

/-- A question mark with no backslash right before it. -/
def IsSplice (s : Text) (i : Nat) : Prop :=
  s[i]? = some '?' ∧ (s.take i).getLast? ≠ some '\\'

/-- A backslash with a question mark right after it. -/
def IsEscape (s : Text) (i : Nat) : Prop :=
  s[i]? = some '\\' ∧ s[i + 1]? = some '?'

instance (s : Text) (i : Nat) : Decidable (IsSplice s i) :=
  inferInstanceAs (Decidable (_ ∧ _))

instance (s : Text) (i : Nat) : Decidable (IsEscape s i) :=
  inferInstanceAs (Decidable (_ ∧ _))

/-- What stands for the character at place `i`. The splice points before it tell which
of the texts belongs to it, if it is one. -/
def pieceAt (s : Text) (texts : List Text) (i : Nat) : Text :=
  if IsSplice s i then texts.getD (splicesAfter none (s.take i)) []
  else if IsEscape s i then []
  else s[i]?.toList

/-- The template with the texts in its splice points. -/
def expansion (s : Text) (texts : List Text) : Text :=
  (List.range s.length).flatMap (pieceAt s texts)

example : expansion "\\? = ? AND \\\\? < é?\\".toList ["'\\?'".toList, "x".toList] =
    "? = '\\?' AND \\? < éx\\".toList := by
  decide

/-- The expansion of what follows the character `previous`. -/
def expandFrom (previous : Option Char) : Text → List Text → Text
  | [], _ => []
  | c :: rest, texts =>
    if c = '?' ∧ previous ≠ some '\\' then
      texts.headD [] ++ expandFrom (some c) rest texts.tail
    else if c = '\\' ∧ rest.head? = some '?' then expandFrom (some c) rest texts
    else c :: expandFrom (some c) rest texts

/-- Whether the last character counts depends on the one before it. -/
theorem splicesAfter_append_singleton (previous : Option Char) (front : Text) (c : Char) :
    splicesAfter previous (front ++ [c]) = splicesAfter previous front +
      if c = '?' ∧ front.getLast?.or previous ≠ some '\\' then 1 else 0 := by
  induction front generalizing previous with
  | nil =>
      rw [List.nil_append, splicesAfter, splicesAfter, splicesAfter, Nat.add_zero, Nat.zero_add]
      rfl
  | cons d front ih =>
      have hlast : (d :: front).getLast?.or previous = front.getLast?.or (some d) := by
        rw [List.getLast?_cons]
        cases front.getLast? <;> rfl
      rw [List.cons_append, splicesAfter, splicesAfter, ih, hlast, Nat.add_assoc]

theorem pieceAt_append (front : Text) (c : Char) (rest : Text) (texts : List Text) :
    pieceAt (front ++ c :: rest) texts front.length =
      if c = '?' ∧ front.getLast? ≠ some '\\' then
        texts.getD (splicesAfter none front) []
      else if c = '\\' ∧ rest.head? = some '?' then [] else [c] := by
  have hnext : (front ++ c :: rest)[front.length + 1]? = rest.head? := by
    rw [List.getElem?_append_right (by omega)]
    simp [List.head?_eq_getElem?]
  simp [pieceAt, IsSplice, IsEscape, hnext]

/-- The pieces from the end of `front` on. The texts that belong to splice points in
`front` are used up. -/
theorem flatMap_pieceAt (front rest : Text) (texts : List Text) :
    (List.range' front.length rest.length).flatMap (pieceAt (front ++ rest) texts) =
      expandFrom front.getLast? rest (texts.drop (splicesAfter none front)) := by
  induction rest generalizing front with
  | nil => rfl
  | cons c rest ih =>
      have hrest := ih (front ++ [c])
      rw [List.append_assoc, List.singleton_append, List.length_append, List.length_singleton,
        List.getLast?_append, List.getLast?_singleton, Option.some_or,
        splicesAfter_append_singleton, Option.or_none] at hrest
      rw [List.length_cons, List.range'_succ, List.flatMap_cons, hrest, pieceAt_append, expandFrom]
      split
      · rw [List.tail_drop, List.headD_eq_head?_getD, List.head?_drop, List.getD_eq_getElem?_getD]
      · rw [Nat.add_zero]
        split <;> rfl

theorem expansion_eq_expandFrom (s : Text) (texts : List Text) :
    expansion s texts = expandFrom none s texts := by
  rw [expansion, List.range_eq_range']
  exact flatMap_pieceAt [] s texts

/-- A template is expanded up to its first splice point, there, and after it. -/
theorem expandFrom_eq_cut (previous : Option Char) {rest : Text}
    (h : rest.head? = some '?' → previous ≠ some '\\') (texts : List Text) :
    expandFrom previous rest texts = (cut rest).1 ++ (cut rest).2.elim [] fun after =>
      texts.headD [] ++ expandFrom (some '?') after texts.tail := by
  fun_induction cut rest generalizing previous with
  | case1 => rfl
  | case2 rest before after hcut ih =>
      have hrest := ih (some '?') (by simp)
      rw [hcut] at hrest
      simpa [expandFrom] using hrest
  | case3 rest =>
      have hprevious := h rfl
      simp [expandFrom, hprevious]
  | case4 c rest hescape hmark before after hcut ih =>
      have hfollows : ¬ (c = '\\' ∧ rest.head? = some '?') := by
        rintro ⟨rfl, hhead⟩
        obtain ⟨t, rfl⟩ := List.head?_eq_some_iff.mp hhead
        exact hescape t rfl rfl
      have hrest := ih (some c) fun hhead heq => hfollows ⟨Option.some.inj heq, hhead⟩
      have hc : c ≠ '?' := hmark
      rw [hcut] at hrest
      rw [expandFrom, if_neg fun hboth => hc hboth.1, if_neg hfollows, hrest, List.cons_append]

/-- The text with a backslash before each of its question marks. -/
def escaped (s : Text) : Text :=
  s.flatMap fun c => if c = '?' then ['\\', '?'] else [c]

theorem head?_escaped_ne (s : Text) : (escaped s).head? ≠ some '?' := by
  cases s with
  | nil => simp [escaped]
  | cons c s =>
      by_cases hc : c = '?'
      · simp [escaped, hc]
      · simp [escaped, hc]

theorem cut_escaped (s : Text) : cut (escaped s) = (s, none) := by
  induction s with
  | nil => rfl
  | cons c s ih =>
      have hnext := head?_escaped_ne s
      by_cases hc : c = '?'
      · have hshape : escaped (c :: s) = '\\' :: '?' :: escaped s := by simp [escaped, hc]
        rw [hshape, cut, ih, hc]
      · have hshape : escaped (c :: s) = c :: escaped s := by simp [escaped, hc]
        rw [hshape, cut, ih]
        · -- A backslash of the text itself escapes nothing: no question mark follows it.
          rintro t rfl heq
          rw [heq] at hnext
          exact hnext rfl
        · exact hc

end Template

/-- The expressions are written in turn, each from the counter that the one before it
leaves. -/
inductive EmitsInTurn (sources : List NamedSource) :
    Params → List Expr → List Text → Params → Prop
  | nil (p : Params) : EmitsInTurn sources p [] [] p
  | cons {p p' p'' : Params} {e : Expr} {es : List Expr} {s : Text} {ss : List Text}
      (first : (e.emit sources).run p = .ok s p') (rest : EmitsInTurn sources p' es ss p'') :
      EmitsInTurn sources p (e :: es) (s :: ss) p''

theorem Emit.bind_eq_ok_iff {α β : Type} {step : Emit α} {next : α → Emit β} {p p'' : Params}
    {b : β} : (step >>= next).run p = .ok b p'' ↔
      ∃ a p', step.run p = .ok a p' ∧ (next a).run p' = .ok b p'' := by
  rw [EStateM.run_bind]
  cases step.run p with
  | ok a p' => simp
  | error e p' => simp

/-- What is left of a template after `previous`, with the arguments that are left. -/
theorem emitSplices_eq_ok_iff (sources : List NamedSource) (template : String)
    (previous : Option Char) {rest : Text}
    (h : rest.head? = some '?' → previous ≠ some '\\') {args : List Expr} {p p' : Params}
    {out : Text} : (emitSplices sources template rest args).run p = .ok out p' ↔
      Template.splicesAfter previous rest = args.length ∧
        ∃ texts, EmitsInTurn sources p args texts p' ∧
          out = Template.expandFrom previous rest texts := by
  induction args generalizing rest previous p p' out with
  | nil =>
      rw [emitSplices, Template.splicesAfter_eq_cut previous h]
      simp only [Template.expandFrom_eq_cut previous h]
      rcases Template.cut rest with ⟨before, after⟩
      cases after with
      | none =>
          constructor
          · intro hrun
            cases hrun
            exact ⟨rfl, [], .nil _, (List.append_nil _).symm⟩
          · rintro ⟨-, texts, hturn, rfl⟩
            cases hturn
            rw [Option.elim_none, List.append_nil]
            rfl
      | some after =>
          refine iff_of_false ?_ ?_
          · intro hrun
            cases hrun
          · rintro ⟨hcount, -⟩
            cases hcount
  | cons arg args ih =>
      rw [emitSplices, Template.splicesAfter_eq_cut previous h]
      simp only [Template.expandFrom_eq_cut previous h]
      rcases Template.cut rest with ⟨before, after⟩
      cases after with
      | none =>
          refine iff_of_false ?_ ?_
          · intro hrun
            cases hrun
          · rintro ⟨hcount, -⟩
            cases hcount
      | some after =>
          have hafter {q q' : Params} {t : Text} :
              (emitSplices sources template after args).run q = .ok t q' ↔ _ :=
            ih (some '?') (by simp)
          simp only [Emit.bind_eq_ok_iff, hafter, List.length_cons, Nat.add_right_cancel_iff]
          constructor
          · rintro ⟨s, q, hfirst, t, q', ⟨hcount, texts, hturn, rfl⟩, hout⟩
            cases hout
            exact ⟨hcount, s :: texts, .cons hfirst hturn, by simp⟩
          · rintro ⟨hcount, texts, hturn, rfl⟩
            cases hturn with
            | cons hfirst hturn =>
                exact ⟨_, _, hfirst, _, _, ⟨hcount, _, hturn, rfl⟩, by simp⟩

/-- Fragments are expanded as specified. A template with arguments is written if and only
if it has as many question marks without a backslash before them as there are arguments,
and the arguments can be written in turn; the result is its expansion with their texts.
A text whose question marks are all escaped is written as the text itself. -/
theorem template_emit_eq_ok_iff :
    (∀ (sources : List NamedSource) (template : String) (args : List Expr) (p p' : Params)
        (out : Text), ((Fragment.template template args).emit sources).run p = .ok out p' ↔
      Template.spliceCount template = args.length ∧ ∃ texts,
        EmitsInTurn sources p args texts p' ∧ out = Template.expansion template.toList texts) ∧
    ∀ (sources : List NamedSource) (s : String) (p : Params),
      ((Fragment.template (String.ofList (Template.escaped s.toList)) []).emit sources).run p =
        .ok s.toList p := by
  refine ⟨fun sources template args p p' out => ?_, fun sources s p => ?_⟩
  · simp only [Template.expansion_eq_expandFrom]
    rw [Fragment.emit]
    exact emitSplices_eq_ok_iff sources template none (by simp)
  · rw [Fragment.emit, emitSplices, String.toList_ofList, Template.cut_escaped]
    rfl

/-- A placeholder takes in the digits that follow it. -/
theorem placeholderNumbers_placeholder (n : Nat) (t : Text) :
    placeholderNumbers (placeholder n ++ t) =
      (Text.digits n ++ t.takeWhile Char.isDigit) :: placeholderNumbers t := by
  have hdigits : ∀ c ∈ Text.digits n, c.isDigit := (IsDigits.digits n).2
  have hnone : placeholderNumbers (Text.digits n) = [] :=
    placeholderNumbers_eq_nil fun hmem => absurd (hdigits _ hmem) (by decide)
  have hshape : placeholder n ++ t = '?' :: (Text.digits n ++ t) := rfl
  rw [hshape, placeholderNumbers, if_pos rfl, List.takeWhile_append_of_pos hdigits,
    placeholderNumbers_append (.inl hnone), hnone, List.nil_append]

theorem length_placeholderNumbers (s : Text) :
    (placeholderNumbers s).length = s.count '?' := by
  induction s with
  | nil => rfl
  | cons c s ih =>
      rw [placeholderNumbers]
      by_cases hc : c = '?'
      · rw [if_pos hc, List.length_cons, ih, hc, List.count_cons_self]
      · rw [if_neg hc, ih, List.count_cons_of_ne hc]

/-- The placeholders of `n` values after the number `i`. -/
def placeholdersFrom (i n : Nat) : List Text :=
  (List.range' (i + 1) n).map placeholder

theorem placeholdersFrom_succ (i n : Nat) :
    placeholdersFrom i (n + 1) = placeholder (i + 1) :: placeholdersFrom (i + 1) n := by
  rw [placeholdersFrom, List.range'_succ, List.map_cons, placeholdersFrom]

theorem numbersFrom_succ (i n : Nat) :
    numbersFrom i (n + 1) = Text.digits (i + 1) :: numbersFrom (i + 1) n := by
  rw [numbersFrom, List.range'_succ, List.map_cons, numbersFrom]

theorem emitsInTurn_params (sources : List NamedSource) (p : Params) (values : List Value) :
    EmitsInTurn sources p (values.map .param) (placeholdersFrom p.last values.length)
      (p.add values) := by
  induction values generalizing p with
  | nil =>
      rw [Params.add_nil]
      exact .nil p
  | cons v values ih =>
      have hfirst : ((Expr.param v).emit sources).run p =
          .ok (placeholder (p.last + 1)) (p.add [v]) := by
        rw [Expr.emit]
        rfl
      have hrest := ih (p.add [v])
      rw [Params.add_add] at hrest
      rw [List.length_cons, placeholdersFrom_succ]
      exact .cons hfirst hrest

namespace Template

section WithoutEscapes

variable {rest : Text} {previous : Option Char}

theorem expandFrom_cons_of_not_mem {c : Char} (hprevious : previous ≠ some '\\')
    (h : '\\' ∉ c :: rest) (texts : List Text) :
    expandFrom previous (c :: rest) texts =
      if c = '?' then texts.headD [] ++ expandFrom (some c) rest texts.tail
      else c :: expandFrom (some c) rest texts := by
  have hc : c ≠ '\\' := fun heq => h (by simp [heq])
  simp [expandFrom, hprevious, hc]

/-- Without backslashes every question mark is a splice point. -/
theorem splicesAfter_of_not_mem (hprevious : previous ≠ some '\\') (h : '\\' ∉ rest) :
    splicesAfter previous rest = rest.count '?' := by
  induction rest generalizing previous with
  | nil => rfl
  | cons c rest ih =>
      rw [List.mem_cons, not_or] at h
      rw [splicesAfter, ih (by simpa using Ne.symm h.1) h.2, List.count_cons]
      simp [hprevious, Nat.add_comm]

/-- A splice point and what is spliced in start alike, so the digits at the front of a
template are those at the front of its expansion. -/
theorem takeWhile_expandFrom (hprevious : previous ≠ some '\\') (h : '\\' ∉ rest) {i n : Nat}
    (hcount : rest.count '?' = n) :
    (expandFrom previous rest (placeholdersFrom i n)).takeWhile Char.isDigit =
      rest.takeWhile Char.isDigit := by
  induction rest generalizing previous with
  | nil => rfl
  | cons c rest ih =>
      have hc : some c ≠ some '\\' := fun heq => h (by simp [Option.some.inj heq])
      have hrest : '\\' ∉ rest := fun hmem => h (by simp [hmem])
      rw [expandFrom_cons_of_not_mem hprevious h]
      by_cases hmark : c = '?'
      · obtain ⟨m, rfl⟩ : ∃ m, n = m + 1 := ⟨rest.count '?', by simp [← hcount, hmark]⟩
        rw [if_pos hmark, placeholdersFrom_succ, hmark]
        rfl
      · rw [List.count_cons_of_ne hmark] at hcount
        rw [if_neg hmark, List.takeWhile_cons, List.takeWhile_cons, ih hc hrest hcount]

theorem placeholderNumbers_expandFrom (hprevious : previous ≠ some '\\') (h : '\\' ∉ rest)
    {i n : Nat} (hcount : rest.count '?' = n) :
    placeholderNumbers (expandFrom previous rest (placeholdersFrom i n)) =
      List.zipWith (· ++ ·) (numbersFrom i n) (placeholderNumbers rest) := by
  induction rest generalizing previous i n with
  | nil => simp [expandFrom, placeholderNumbers]
  | cons c rest ih =>
      have hc : some c ≠ some '\\' := fun heq => h (by simp [Option.some.inj heq])
      have hrest : '\\' ∉ rest := fun hmem => h (by simp [hmem])
      rw [expandFrom_cons_of_not_mem hprevious h, placeholderNumbers]
      by_cases hmark : c = '?'
      · obtain ⟨m, rfl⟩ : ∃ m, n = m + 1 := ⟨rest.count '?', by simp [← hcount, hmark]⟩
        have hcount' : rest.count '?' = m := by simpa [hmark] using hcount
        rw [if_pos hmark, if_pos hmark, placeholdersFrom_succ, List.headD_cons, List.tail_cons,
          placeholderNumbers_placeholder, takeWhile_expandFrom hc hrest hcount',
          ih hc hrest hcount', numbersFrom_succ, List.zipWith_cons_cons]
      · rw [List.count_cons_of_ne hmark] at hcount
        rw [if_neg hmark, if_neg hmark, placeholderNumbers, if_neg hmark, ih hc hrest hcount]

end WithoutEscapes

end Template

theorem zipWith_append_eq_left_iff {ns ds : List Text} (h : ds.length = ns.length) :
    List.zipWith (· ++ ·) ns ds = ns ↔ ∀ d ∈ ds, d = [] := by
  induction ns generalizing ds with
  | nil => simp [List.length_eq_zero_iff.mp h]
  | cons n ns ih =>
      obtain ⟨d, ds, rfl⟩ := List.exists_cons_of_length_eq_add_one h
      simp [ih (by simpa using h)]

/-- Bound values keep their numbers in a template up to the digits that follow them. In a
template without backslashes, with a value for every question mark, the placeholder of a
value has the number of the value followed by the digits that stand after its question
mark. So the placeholders are those of the values if and only if no question mark of the
template is followed by a digit. -/
theorem spliced_numbers_iff {template : String} {values : List Value}
    (hescape : '\\' ∉ template.toList) (hcount : template.toList.count '?' = values.length)
    (sources : List NamedSource) (p : Params) :
    ∃ out, ((Fragment.template template (values.map .param)).emit sources).run p =
        .ok out (p.add values) ∧
      placeholderNumbers out = List.zipWith (· ++ ·) (numbersFrom p.last values.length)
        (placeholderNumbers template.toList) ∧
      (placeholderNumbers out = numbersFrom p.last values.length ↔
        ∀ digits ∈ placeholderNumbers template.toList, digits = []) := by
  have hnumbers : placeholderNumbers (Template.expandFrom none template.toList
      (placeholdersFrom p.last values.length)) = _ :=
    Template.placeholderNumbers_expandFrom (by simp) hescape hcount
  have hlength : (placeholderNumbers template.toList).length =
      (numbersFrom p.last values.length).length := by
    simp [length_placeholderNumbers, hcount, numbersFrom]
  refine ⟨_, (emitSplices_eq_ok_iff sources template none (by simp)).mpr
    ⟨?_, _, emitsInTurn_params sources p values, rfl⟩, hnumbers, ?_⟩
  · rw [Template.splicesAfter_of_not_mem (by simp) hescape, hcount, List.length_map]
  · rw [hnumbers, zipWith_append_eq_left_iff hlength]

/-- Digits before a splice point do no harm. -/
theorem spliced_numbers_in_sample :
    ∃ out, ((Fragment.template "10*?+?<2?" [.param .null, .param .null, .param .null]).emit
        []).run ⟨8, []⟩ = .ok out ⟨11, [.null, .null, .null]⟩ ∧
      placeholderNumbers out = ["9".toList, "10".toList, "11".toList] := by
  have hescape : '\\' ∉ "10*?+?<2?".toList := by decide
  have hcount : "10*?+?<2?".toList.count '?' = [Value.null, .null, .null].length := by decide
  obtain ⟨out, hrun, -, hiff⟩ := spliced_numbers_iff hescape hcount [] ⟨8, []⟩
  exact ⟨out, hrun, hiff.mpr (by decide)⟩

/-- A template that is written with a number of its own binds another placeholder. -/
theorem spliced_number_takes_digit :
    ∃ out, ((Fragment.template "abs(?1)" [.param (.int 7)]).emit []).run {} =
        .ok out ⟨1, [.int 7]⟩ ∧ out = "abs(?11)".toList ∧
      placeholderNumbers out = ["11".toList] ∧ placeholderNumbers out ≠ numbersFrom 0 1 :=
  ⟨_, rfl, rfl, by decide, by decide⟩

end LiteSql
