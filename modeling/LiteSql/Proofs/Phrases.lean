import LiteSql.Proofs.CalmExpr
import LiteSql.Proofs.Nesting
import LiteSql.Proofs.Refusal

/-!
# The words of expressions

The words of an expression are none of the keywords with which clauses start, so
clauses can be told apart from the expressions in them. An expression is also an item
of a list: it brings a word to every place between its commas. The only exception is
the row of a table without fields, which has no text at all.

A distinct call is empty if and only if all of its arguments are such rows, or if it
has none.
-/

namespace LiteSql

def clauseKeywords : List Text :=
  ["SELECT".toList, "DISTINCT".toList, "FROM".toList, "WHERE".toList, "GROUP".toList,
    "HAVING".toList, "ORDER".toList, "LIMIT".toList, "OFFSET".toList]

/-- Whether every item of a list with commas has a word. `filled` says whether the current
item has one. -/
def filledItems : Bool → List Text → Bool
  | filled, [] => filled
  | filled, w :: ws =>
    if w = [','] then filled && filledItems false ws else filledItems true ws

/-- Whether an expression is the row of a table without fields. -/
def Expr.isEmptyRow (sources : List Source) : Expr → Bool
  | .row k =>
    match sources[k.toNat]? with
    | some (.table _ (some [])) => true
    | _ => false
  | _ => false

/-- Whether a node is a distinct call whose arguments have no text. -/
def Node.isEmptyCall (sources : List Source) : Node → Bool
  | .expr (.call _ args true) => args.all (Expr.isEmptyRow sources)
  | _ => false

/-- A node that writes no raw SQL other than the name of a function, which is one word, or
of a type, which leaves nothing open and has no empty distinct call in it. -/
def Node.KeepsWords : Node → Prop
  | .fragment _ => False
  | .expr (.cast _ (.custom name)) => ∃ ws, Framed (Text.upperCase name.toList) ws 0
  | .expr (.call name _ _) => IsOneWord name.toList
  | .expr _ => True

theorem Fragment.not_keepsWords (body : Fragment) : ¬ ∀ node ∈ body.nodes, node.KeepsWords := by
  intro h
  cases body with
  | template sql args => exact h (.fragment (.template sql args)) (by simp [Fragment.nodes])
  | keyword args => exact h (.fragment (.keyword args)) (by simp [Fragment.nodes])

theorem not_keyword_of_mem {w : Text} {c : Char} (hc : c ∈ w) (hupper : c.isUpper = false) :
    w ∉ clauseKeywords := by
  have hall : clauseKeywords.all (·.all Char.isUpper) := by decide
  intro hw
  rw [List.all_eq_true.mp (List.all_eq_true.mp hall w hw) c hc] at hupper
  cases hupper

/-- The visible text starts with an expression, whatever follows it. -/
def Starts (v : Text) : Prop :=
  ∀ t, listsNothing (v ++ t) = false

namespace Starts

theorem append {v : Text} (hv : Starts v) (w : Text) : Starts (v ++ w) := by
  intro t
  rw [List.append_assoc]
  exact hv (w ++ t)

theorem gap {v : Text} (hv : Starts v) {c : Char} (hc : isGap c) : Starts (c :: v) := by
  intro t
  have ht := hv t
  unfold listsNothing at ht ⊢
  rwa [List.cons_append, List.dropWhile_cons_of_pos hc]

/-- A word starts an expression unless it is a star at the end of a list. -/
theorem word {w : Text} (hne : w ≠ []) (hw : Avoids "(), ".toList w) {d : Char}
    (hd : d ≠ ')') : Starts (w ++ [d]) := by
  intro t
  obtain ⟨c, w, rfl⟩ := List.exists_cons_of_ne_nil hne
  have hne {d : Char} : d ∈ "(), ".toList → c ≠ d := hw.ne List.mem_cons_self
  have hcomma : c ≠ ',' := hne (by decide)
  have hblank : c ≠ ' ' := hne (by decide)
  have hclose : c ≠ ')' := hne (by decide)
  have hgap : ¬ isGap c := by simp [isGap, hcomma, hblank]
  have hnext : (w ++ [d] ++ t).head? ≠ some ')' := by
    cases w with
    | nil => simpa using hd
    | cons e w =>
        rintro heq
        cases heq
        exact hw.tail ')' (by simp) (by decide)
  unfold listsNothing
  rw [List.cons_append, List.cons_append, List.dropWhile_cons_of_neg hgap]
  generalize w ++ [d] ++ t = rest at hnext ⊢
  simp [hclose, hnext]

end Starts

theorem filledItems_true {ws : List Text} (h : filledItems false ws) : filledItems true ws := by
  cases ws with
  | nil => cases h
  | cons w ws =>
      rw [filledItems] at h ⊢
      split at h
      · cases h
      · rename_i hw
        rwa [if_neg hw]

theorem filledItems_append {b : Bool} {ws : List Text} (h : filledItems b ws) (us : List Text) :
    filledItems b (ws ++ us) = filledItems true us := by
  induction ws generalizing b with
  | nil =>
      cases h
      rfl
  | cons w ws ih =>
      rw [filledItems] at h
      rw [List.cons_append, filledItems]
      split at h
      · rw [Bool.and_eq_true] at h
        rw [if_pos ‹_›, ih h.2, h.1, Bool.true_and]
      · rw [if_neg ‹_›, ih h]

/-- A text that is closed and shows no gap, parenthesis or star. -/
structure Compact (s : Text) : Prop where
  closed : quoteAfter none s = none
  avoids : Avoids "(), *".toList (visible none s)

namespace Compact

theorem visible_append {s : Text} (hs : Compact s) (t : Text) :
    visible none (s ++ t) = visible none s ++ visible none t := by
  rw [LiteSql.visible_append, hs.closed]

theorem append {s t : Text} (hs : Compact s) (ht : Compact t) : Compact (s ++ t) := by
  constructor
  · rw [quoteAfter_append, hs.closed, ht.closed]
  · rw [hs.visible_append]
    exact hs.avoids.append ht.avoids

/-- A text without quotes. -/
theorem plain {s : Text} (h : Avoids "(), *'\"".toList s) : Compact s := by
  obtain ⟨hvisible, hclosed⟩ := (h.part (by decide)).visible_eq
  refine ⟨hclosed, ?_⟩
  rw [hvisible]
  exact h.part (by decide)

theorem quoted (mark : QuoteMark) (s : Text) : Compact (Text.quoted mark.char s) := by
  obtain ⟨hvisible, hclosed⟩ := visible_quoted mark s
  refine ⟨hclosed, fun c hc => ?_⟩
  rw [hvisible c hc]
  cases mark <;> decide

theorem quoteIdentifier (name : String) : Compact (quoteIdentifier name) :=
  quoted .double name.toList

theorem quote (name : QualifiedName) : Compact name.quote := by
  unfold QualifiedName.quote
  split
  · have hpoint : Compact ['.'] := plain (by decide)
    exact (quoteIdentifier _).append (hpoint.append (quoteIdentifier _))
  · exact quoteIdentifier _

theorem digits {s : Text} (hs : IsDigits s) : Compact s :=
  plain (.of_class (by decide) hs.2)

theorem number (n : Numeral) : Compact n.text :=
  plain (.of_class (by decide) fun _ => Numeral.isNumberChar_of_mem)

end Compact

theorem IsUnbroken.number (n : Numeral) : IsUnbroken n.text :=
  .of_class (by decide) fun _ => Numeral.isNumberChar_of_mem

theorem isUpper_eq_false_of_isDigit {c : Char} (hc : c.isDigit) : c.isUpper = false := by
  by_contra hupper
  have hletter : 'A'.val ≤ c.val ∧ c.val ≤ 'Z'.val :=
    of_decide_eq_true (Bool.eq_true_of_not_eq_false hupper)
  have hdigit : c.val ≤ '9'.val := of_decide_eq_true (Bool.and_eq_true_iff.mp hc).2
  exact absurd (UInt32.le_trans hletter.1 hdigit) (by decide)

/-- A text without the keywords of clauses. -/
structure Phrase (s : Text) (n : Nat) : Prop where
  framed : Framed s (outerWords s) n
  no_keyword : ∀ w ∈ outerWords s, w ∉ clauseKeywords

/-- The text of one item of a list. -/
structure Item (s : Text) (n : Nat) (empty : Bool) : Prop extends Phrase s n where
  shape : if empty then s = [] else filledItems false (outerWords s) ∧ Starts (visible none s)

namespace Phrase

theorem of_framed {s : Text} {ws : List Text} {n : Nat} (hs : Framed s ws n)
    (h : ∀ w ∈ ws, w ∉ clauseKeywords) : Phrase s n := by
  obtain rfl := hs.words_eq
  exact ⟨hs, h⟩

theorem nil : Phrase [] 0 :=
  of_framed .nil (by simp)

theorem word {s : Text} (hne : s ≠ []) (hs : IsUnbroken s) (hkeyword : s ∉ clauseKeywords) :
    Phrase s 0 :=
  of_framed (.word hne hs) (by simpa using hkeyword)

/-- A text that goes on after a blank. -/
theorem blank {s t : Text} {n m : Nat} (hs : Phrase s n) (ht : Phrase t m) :
    Phrase (s ++ ' ' :: t) (n + m) := by
  refine of_framed ((Frames.blank ht.framed).after hs.framed) ?_
  rw [List.forall_mem_append]
  exact ⟨hs.no_keyword, ht.no_keyword⟩

/-- A list that goes on after a comma. -/
theorem comma {s t : Text} {n m : Nat} (hs : Phrase s n) (ht : Phrase t m) :
    Phrase (s ++ (", ".toList ++ t)) (n + m) := by
  refine of_framed ((Frames.comma ht.framed.blank).after hs.framed) ?_
  rw [List.forall_mem_append, List.forall_mem_cons]
  exact ⟨hs.no_keyword, not_keyword_of_mem (List.mem_singleton_self ',') rfl, ht.no_keyword⟩

theorem head?_ne {s : Text} {n : Nat} (hs : Phrase s n) :
    (outerWords s).head? ≠ some "DISTINCT".toList := by
  intro hhead
  exact hs.no_keyword _ (List.mem_of_head? hhead) (by decide)

/-- With what follows it, a text starts with the keyword only if what follows does. -/
theorem head?_append_ne {s : Text} {n : Nat} (hs : Phrase s n) {ws : List Text}
    (hws : ws.head? ≠ some "DISTINCT".toList) :
    (outerWords s ++ ws).head? ≠ some "DISTINCT".toList := by
  rw [List.head?_append]
  cases hfirst : (outerWords s).head? with
  | none => exact hws
  | some w =>
      rw [Option.some_or, ← hfirst]
      exact hs.head?_ne

end Phrase

namespace Item

theorem of_framed {s : Text} {ws : List Text} {n : Nat} (hs : Framed s ws n)
    (h : ∀ w ∈ ws, w ∉ clauseKeywords) (hfilled : filledItems false ws)
    (hstarts : Starts (visible none s)) : Item s n false := by
  obtain rfl := hs.words_eq
  exact ⟨⟨hs, h⟩, hfilled, hstarts⟩

theorem nil : Item [] 0 true :=
  ⟨.nil, rfl⟩

theorem filled {s : Text} {n : Nat} (hs : Item s n false) :
    filledItems false (outerWords s) ∧ Starts (visible none s) :=
  hs.shape

theorem eq_nil {s : Text} {n : Nat} (hs : Item s n true) : s = [] :=
  hs.shape

/-- A single word. -/
theorem single {s : Text} (hs : Compact s) (hne : s ≠ [])
    (hkeyword : visible none s ∉ clauseKeywords) : Item s 0 false := by
  have hframed : Framed s [visible none s] 0 :=
    .single hne ⟨hs.closed, hs.avoids.part (by decide)⟩
  have hfilled : filledItems false [visible none s] := by
    have hcomma : visible none s ≠ [','] := fun heq =>
      hs.avoids.ne (c := ',') (by rw [heq]; exact List.mem_singleton_self ',') (by decide) rfl
    rw [filledItems, if_neg hcomma, filledItems]
  refine of_framed hframed (by simpa using hkeyword) hfilled fun t => ?_
  obtain ⟨c, v, hv⟩ : ∃ c v, visible none s = c :: v := by
    obtain ⟨c, s, rfl⟩ := List.exists_cons_of_ne_nil hne
    exact ⟨c, _, rfl⟩
  have hchar {d : Char} : d ∈ "(), *".toList → c ≠ d := hs.avoids.ne (by simp [hv])
  have hgap : ¬ isGap c := by
    simp [isGap, hchar (d := ',') (by decide), hchar (d := ' ') (by decide)]
  unfold listsNothing
  rw [hv, List.cons_append, List.dropWhile_cons_of_neg hgap]
  simp [hchar (d := ')') (by decide), hchar (d := '*') (by decide)]

/-- A group in parentheses, with a name before it or without one. -/
theorem call {name : Text} (hname : IsOneWord name) {s : Text} {ws : List Text} {n : Nat}
    (hs : Framed s ws n) :
    Item (name ++ Text.parenthesized s)
      ((if opensEmpty (visible none s ++ [')']) then 1 else 0) + n) false := by
  have hmem : '(' ∈ visible none name ++ ['(', ')'] := by simp
  have hkeyword : visible none name ++ ['(', ')'] ∉ clauseKeywords := not_keyword_of_mem hmem rfl
  have hcomma : visible none name ++ ['(', ')'] ≠ [','] := fun heq => by
    rw [heq] at hmem
    exact absurd hmem (by decide)
  have hfilled : filledItems false [visible none name ++ ['(', ')']] := by
    rw [filledItems, if_neg hcomma, filledItems]
  refine of_framed (hs.call hname) (by simpa using hkeyword) hfilled ?_
  have havoids := hname.avoids
  rw [hs.visible_call hname]
  cases hv : visible none name with
  | nil => exact fun t => rfl
  | cons c v =>
      rw [hv] at havoids
      have hword : Starts (c :: v ++ ['(']) := .word (List.cons_ne_nil c v) havoids (by decide)
      have hstarts := hword.append (visible none s ++ [')'])
      rwa [List.append_assoc] at hstarts

theorem group {s : Text} {ws : List Text} {n : Nat} (hs : Framed s ws n)
    (hhead : ws.head? ≠ some "DISTINCT".toList) : Item (Text.parenthesized s) n false := by
  have hname : IsOneWord [] := ⟨rfl, by decide⟩
  have hitem := call hname hs
  rwa [hs.opensEmpty_eq_false hhead, if_neg (by decide), Nat.zero_add] at hitem

/-- A word before an expression, which may be missing. -/
theorem led {t w : Text} {n : Nat} {b : Bool} (ht : Item t n b) (hne : w ≠ []) (hw : IsUnbroken w)
    (hkeyword : w ∉ clauseKeywords) : Item (w ++ ' ' :: t) n false := by
  have hframed : Framed (w ++ ' ' :: t) ([w] ++ outerWords t) (0 + n) :=
    (Frames.blank ht.framed).after (.word hne hw)
  rw [Nat.zero_add] at hframed
  have hcomma : w ≠ [','] := by
    rintro rfl
    exact absurd hw (by decide)
  have htail : filledItems true (outerWords t) := by
    cases b with
    | true =>
        rw [ht.eq_nil]
        rfl
    | false => exact filledItems_true ht.filled.1
  have hvisible : visible none (w ++ ' ' :: t) = w ++ [' '] ++ visible none t := by
    rw [visible_append, hw.visible_eq.1, hw.visible_eq.2, List.append_assoc]
    rfl
  refine of_framed hframed ?_ ?_ ?_
  · rw [List.forall_mem_append, List.forall_mem_singleton]
    exact ⟨hkeyword, ht.no_keyword⟩
  · rwa [List.singleton_append, filledItems, if_neg hcomma]
  · rw [hvisible]
    exact (Starts.word hne (hw.part (by decide)) (by decide)).append (visible none t)

/-- An expression that goes on after a blank; its first part may be missing. -/
theorem after {s t : Text} {n m : Nat} {b : Bool} (hs : Item s n b) (ht : Item t m false) :
    Item (s ++ ' ' :: t) (n + m) false := by
  obtain ⟨hfilled, hstarts⟩ := ht.filled
  have hvisible : visible none (s ++ ' ' :: t) = visible none s ++ ' ' :: visible none t := by
    rw [visible_append, hs.framed.closed]
    rfl
  refine of_framed ((Frames.blank ht.framed).after hs.framed) ?_ ?_ ?_
  · rw [List.forall_mem_append]
    exact ⟨hs.no_keyword, ht.no_keyword⟩
  · cases b with
    | true =>
        rw [hs.eq_nil]
        exact hfilled
    | false =>
        rw [filledItems_append hs.filled.1]
        exact filledItems_true hfilled
  · rw [hvisible]
    cases b with
    | true =>
        rw [hs.eq_nil]
        exact hstarts.gap rfl
    | false => exact hs.filled.2.append _

/-- The row of a table without fields is no compound expression. -/
theorem asOperand {e : Expr} {sources : List Source} {s : Text} {n : Nat}
    (hs : Item s n (e.isEmptyRow sources)) : Item (e.asOperand s) n (e.isEmptyRow sources) := by
  unfold Expr.asOperand
  split
  · rename_i hcompound
    have hrow : e.isEmptyRow sources = false := by
      cases e <;> first | rfl | cases hcompound
    rw [hrow]
    exact group hs.framed hs.head?_ne
  · exact hs

end Item

/-- The text of a list of items. -/
structure Items (s : Text) (n : Nat) (empties : List Bool) : Prop extends Phrase s n where
  filled : empties ≠ [] → filledItems false (outerWords s) = empties.all (!·)
  lists : if empties.all (·) then (∀ c ∈ visible none s, isGap c) else Starts (visible none s)

namespace Items

theorem nil : Items [] 0 [] :=
  ⟨.nil, fun hne => absurd rfl hne, by simp [visible]⟩

theorem single {s : Text} {n : Nat} {b : Bool} (hs : Item s n b) : Items s n [b] := by
  refine ⟨hs.toPhrase, fun _ => ?_, ?_⟩
  · cases b with
    | true =>
        rw [hs.eq_nil]
        rfl
    | false => simpa using hs.filled.1
  · cases b with
    | true =>
        rw [hs.eq_nil]
        simp [visible]
    | false => simpa using hs.filled.2

theorem cons {s t : Text} {n m : Nat} {b : Bool} {bs : List Bool} (hs : Item s n b)
    (ht : Items t m bs) (hne : bs ≠ []) : Items (s ++ (", ".toList ++ t)) (n + m) (b :: bs) := by
  have hwords : outerWords (s ++ (", ".toList ++ t)) = outerWords s ++ [','] :: outerWords t :=
    ((Frames.comma ht.framed.blank).after hs.framed).words_eq
  have hvisible : visible none (s ++ (", ".toList ++ t)) =
      visible none s ++ ',' :: ' ' :: visible none t := by
    rw [visible_append, hs.framed.closed]
    rfl
  refine ⟨hs.toPhrase.comma ht.toPhrase, fun _ => ?_, ?_⟩
  · rw [hwords, List.all_cons, ← ht.filled hne]
    cases b with
    | true =>
        rw [hs.eq_nil]
        rfl
    | false =>
        rw [filledItems_append hs.filled.1]
        rfl
  · rw [hvisible]
    have hlists := ht.lists
    cases b with
    | true =>
        rw [hs.eq_nil]
        cases hall : bs.all (·) with
        | true =>
            simp only [hall, if_true] at hlists
            simpa [hall, visible, isGap] using hlists
        | false =>
            simp only [hall, Bool.false_eq_true, if_false] at hlists
            simpa [hall, visible] using (hlists.gap (c := ' ') rfl).gap (c := ',') rfl
    | false => simpa using hs.filled.2.append _

theorem joined {α : Type} {count : α → Nat} {empty : α → Bool} {as : List α} {i : Nat}
    {ss : List Text} {vs : List Value}
    (h : Emit.Each (fun a _ s _ => Item s (count a) (empty a)) as i ss vs) :
    Items (Text.joined ", " ss) ((as.map count).sum) (as.map empty) := by
  unfold Text.joined
  induction h with
  | nil i => exact .nil
  | @cons a as i s ss vs ws hs hrest ih =>
      cases hrest with
      | nil => simpa using single hs
      | cons ht hrest =>
          rw [List.intercalate_cons_cons, List.append_assoc]
          exact .cons hs ih (by simp)

/-- A list in which every item has a text is an item itself. -/
theorem item {s : Text} {n : Nat} {bs : List Bool} (hs : Items s n bs) (hne : bs ≠ [])
    (hall : bs.all (!·)) : Item s n false := by
  obtain ⟨b, bs, rfl⟩ := List.exists_cons_of_ne_nil hne
  have hfirst : b = false := by simpa using (List.all_eq_true.mp hall) b (by simp)
  have hlists := hs.lists
  rw [hfirst, List.all_cons, Bool.false_and, if_neg (by decide)] at hlists
  exact ⟨hs.toPhrase, (hs.filled hne).trans hall, hlists⟩

theorem listsNothing_eq {s : Text} {n : Nat} {bs : List Bool} (hs : Items s n bs) :
    listsNothing (visible none s ++ [')']) = bs.all (·) := by
  have hlists := hs.lists
  cases hall : bs.all (·) with
  | true =>
      rw [hall, if_pos rfl] at hlists
      have hdrop : (visible none s).dropWhile isGap = [] := List.dropWhile_eq_nil_iff.mpr hlists
      rw [listsNothing, List.dropWhile_append, hdrop]
      rfl
  | false =>
      rw [hall, if_neg (by decide)] at hlists
      exact hlists [')']

end Items

namespace Item

theorem literalForm {s : Text} (hs : LiteralForm s) : Item s 0 false := by
  cases hs with
  | null => exact single (.plain (by decide)) (by decide) (by decide)
  | number n =>
      obtain ⟨hne, hdigits⟩ := n.whole_digits
      obtain ⟨c, hc⟩ := List.exists_mem_of_ne_nil _ hne
      have hmem : c ∈ n.text := by simp [Numeral.text, hc]
      refine single (.number n) (List.ne_nil_of_mem hmem) ?_
      rw [(IsUnbroken.number n).visible_eq.1]
      exact not_keyword_of_mem hmem (isUpper_eq_false_of_isDigit (hdigits c hc))
  | string s =>
      exact single (.quoted .single s) (by simp [Text.quoted])
        (not_keyword_of_mem (c := '\'') (by simp [Text.quoted, visible]) rfl)
  | blob s =>
      have hletter : Compact ['X'] := .plain (by decide)
      have hmem : '\'' ∈ visible none (['X'] ++ Text.quoted '\'' s) := by
        rw [hletter.visible_append]
        simp [Text.quoted, visible]
      exact single (hletter.append (.quoted .single s)) (by simp) (not_keyword_of_mem hmem rfl)

theorem literal (v : Value) : Item v.literal 0 false :=
  literalForm v.literalForm

theorem placeholder (n : Nat) : Item (placeholder n) 0 false := by
  have hmark : Compact ['?'] := .plain (by decide)
  have hmem : '?' ∈ visible none (['?'] ++ Text.digits n) := by
    rw [hmark.visible_append]
    exact List.mem_append_left _ (List.mem_singleton_self '?')
  exact single (hmark.append (.digits (.digits n))) (List.cons_ne_nil _ _)
    (not_keyword_of_mem hmem rfl)

end Item

/-- A handle is a letter and a number. -/
def IsHandle (s : Text) : Prop :=
  ∃ letter k, letter.isAlpha ∧ s = letter :: Text.digits k

namespace IsHandle

theorem isAlphanum_of_mem {s : Text} (hs : IsHandle s) {c : Char} (hc : c ∈ s) : c.isAlphanum := by
  obtain ⟨letter, k, hletter, rfl⟩ := hs
  rcases List.mem_cons.mp hc with rfl | hmem
  · simp [Char.isAlphanum, hletter]
  · simp [Char.isAlphanum, (IsDigits.digits k).2 c hmem]

theorem compact {s : Text} (hs : IsHandle s) : Compact s :=
  .plain (.of_class (by decide) fun _ => hs.isAlphanum_of_mem)

theorem isUnbroken {s : Text} (hs : IsHandle s) : IsUnbroken s :=
  .of_class (by decide) fun _ => hs.isAlphanum_of_mem

end IsHandle

theorem Item.column {s : NamedSource} (hs : IsHandle s.handle) (name : String) :
    Item (s.column name) 0 false := by
  have hpoint : Compact ['.'] := .plain (by decide)
  have hmem : '.' ∈ visible none (s.handle ++ (['.'] ++ quoteIdentifier name)) := by
    rw [hs.compact.visible_append, hpoint.visible_append]
    simp [visible]
  exact single (hs.compact.append (hpoint.append (.quoteIdentifier name)))
    (by simp [NamedSource.column]) (not_keyword_of_mem hmem rfl)

theorem Item.handle {s : Text} (hs : IsHandle s) : Item s 0 false := by
  obtain ⟨letter, k, -, heq⟩ := id hs
  obtain ⟨hne, hdigits⟩ := IsDigits.digits k
  obtain ⟨c, hc⟩ := List.exists_mem_of_ne_nil _ hne
  have hmem : c ∈ s := by simp [heq, hc]
  refine single hs.compact (List.ne_nil_of_mem hmem) ?_
  rw [hs.isUnbroken.visible_eq.1]
  exact not_keyword_of_mem hmem (isUpper_eq_false_of_isDigit (hdigits c hc))

theorem Item.quote (name : QualifiedName) : Item name.quote 0 false := by
  have hmem : '"' ∈ visible none name.quote := by
    unfold QualifiedName.quote
    split <;> simp [quoteIdentifier, Text.quoted, visible]
  refine single (.quote name) (fun hnil => ?_) (not_keyword_of_mem hmem rfl)
  rw [hnil] at hmem
  cases hmem

section Expressions

variable {q : Query}

/-- The source that is found, its handle and its name. -/
theorem sourceAt_select {k : Nat} {s : NamedSource}
    (h : sourceAt (q.namedSources .select) k = .ok s) :
    q.sources[k]? = some s.source ∧ IsHandle s.handle ∧
      ∀ t ∈ s.table, ∃ name : QualifiedName, t = name.quote := by
  obtain ⟨source, hsource, rfl⟩ := exists_source_of_sourceAt h
  obtain ⟨letter, hletter, hhandle⟩ := source.exists_letter k
  cases source with
  | table name fields =>
      refine ⟨hsource, ⟨letter, k, hletter, hhandle⟩, fun t ht => ?_⟩
      cases ht
      exact ⟨_, rfl⟩
  | fragment body =>
      refine ⟨hsource, ⟨letter, k, hletter, hhandle⟩, fun t ht => ?_⟩
      cases ht

/-- The text of an expression of the query. -/
def Expr.IsItem (q : Query) (e : Expr) (s : Text) : Prop :=
  Item s (e.nodes.countP (Node.isEmptyCall q.sources)) (e.isEmptyRow q.sources)

theorem sum_countP_nodes (p : Node → Bool) (es : List Expr) :
    (es.map fun e => e.nodes.countP p).sum = (nodesOfEach es).countP p := by
  induction es with
  | nil => rfl
  | cons e es ih => rw [List.map_cons, List.sum_cons, ih, nodesOfEach, List.countP_append]

theorem Items.of_each {es : List Expr} {i : Nat} {ss : List Text} {vs : List Value}
    (h : Emit.Each (fun e _ s _ => e.IsItem q s) es i ss vs) :
    Items (Text.joined ", " ss) ((nodesOfEach es).countP (Node.isEmptyCall q.sources))
      (es.map (Expr.isEmptyRow q.sources)) := by
  rw [← sum_countP_nodes]
  exact .joined h

theorem Item.row {k : UInt64} {s : NamedSource}
    (hs : sourceAt (q.namedSources .select) k.toNat = .ok s) {sql : Text}
    (hsql : s.row = .ok sql) : (Expr.row k).IsItem q sql := by
  obtain ⟨hsource, hhandle, -⟩ := sourceAt_select hs
  have hcolumns (fields : List String) :
      Emit.Each (fun _ _ s _ => Item s 0 false) fields 0 (fields.map s.column) [] := by
    induction fields with
    | nil => exact .nil 0
    | cons field fields ih =>
        have hcons : Emit.Each (fun _ _ s _ => Item s 0 false) (field :: fields) 0
            (s.column field :: fields.map s.column) ([] ++ []) := .cons (.column hhandle field) ih
        exact hcons
  unfold NamedSource.row at hsql
  split at hsql
  · rename_i name fields htable
    cases hsql
    rw [htable] at hsource
    cases fields with
    | nil =>
        have hempty : (Expr.row k).isEmptyRow q.sources = true := by
          simp [Expr.isEmptyRow, hsource]
        rw [Expr.IsItem, hempty]
        exact .nil
    | cons field fields =>
        have hempty : (Expr.row k).isEmptyRow q.sources = false := by
          simp [Expr.isEmptyRow, hsource]
        have hitems := (Items.joined (hcolumns (field :: fields))).item (by simp) (by simp)
        rw [Expr.IsItem, hempty]
        simpa [Expr.nodes, Node.isEmptyCall] using hitems
  · cases hsql

/-- The list of arguments of a call. -/
theorem argumentList (name : String) {args : List Expr} {i : Nat} {ss : List Text} {vs : List Value}
    (h : Emit.Each (fun e _ s _ => e.IsItem q s) args i ss vs) :
    Phrase (if ss.isEmpty && isCount name then ['*'] else Text.joined ", " ss)
        ((nodesOfEach args).countP (Node.isEmptyCall q.sources)) ∧
      listsNothing (visible none (if ss.isEmpty && isCount name then ['*'] else
        Text.joined ", " ss) ++ [')']) = args.all (Expr.isEmptyRow q.sources) := by
  split
  · rename_i hcount
    cases h with
    | nil => exact ⟨.word (by decide) (by decide) (by decide), rfl⟩
    | cons _ _ => cases hcount
  · have hitems := Items.of_each h
    refine ⟨hitems.toPhrase, ?_⟩
    rw [hitems.listsNothing_eq, List.all_map]
    rfl

theorem Item.callText {name : String} (hname : IsOneWord name.toList) (distinct : Bool)
    {args : List Expr} {i : Nat} {ss : List Text} {vs : List Value}
    (h : Emit.Each (fun e _ s _ => e.IsItem q s) args i ss vs) :
    (Expr.call name args distinct).IsItem q (callText name distinct ss) := by
  obtain ⟨hlist, hnothing⟩ := argumentList name h
  unfold LiteSql.callText
  dsimp only
  generalize (if ss.isEmpty && isCount name then ['*'] else Text.joined ", " ss) = list at *
  rw [Expr.IsItem, Expr.nodes, List.countP_cons, Nat.add_comm]
  cases distinct with
  | false =>
      have hitem := Item.call hname hlist.framed
      rwa [hlist.framed.opensEmpty_eq_false hlist.head?_ne] at hitem
  | true =>
      have hword : Framed "DISTINCT".toList ["DISTINCT".toList] 0 := .word (by decide) (by decide)
      have hframed : Framed ("DISTINCT ".toList ++ list) _ _ :=
        (Frames.blank hlist.framed).after hword
      have hvisible : visible none ("DISTINCT ".toList ++ list) =
          "DISTINCT ".toList ++ visible none list := rfl
      have hitem := Item.call hname hframed
      rw [hvisible, List.append_assoc, opensEmpty_distinct, hnothing, Nat.zero_add] at hitem
      exact hitem

theorem Framed.castTarget {target : ColumnType} {e : Expr}
    (h : (Node.expr (.cast e target)).KeepsWords) {sql : Text}
    (hsql : target.castTarget = .ok sql) : Framed sql (outerWords sql) 0 := by
  cases target with
  | array item => cases hsql
  | custom name =>
      cases hsql
      obtain ⟨ws, hws⟩ := h
      rwa [hws.words_eq]
  | _ =>
      cases hsql
      exact .plain (by decide)

/-- The operand of a cast and its type. -/
theorem Item.cast {s type : Text} {n : Nat} {b : Bool} (hs : Item s n b)
    (htype : Framed type (outerWords type) 0) :
    Item ("CAST ".toList ++ Text.parenthesized (s ++ " AS ".toList ++ type)) n false := by
  have has : Framed ("AS".toList ++ ' ' :: type) _ _ :=
    (Frames.blank htype).after (.word (by decide) (by decide))
  have hinner : Framed (s ++ ' ' :: ("AS".toList ++ ' ' :: type)) _ _ :=
    (Frames.blank has).after hs.framed
  have hgroup := (Item.group hinner (hs.head?_append_ne (by simp))).led (w := "CAST".toList)
    (by decide) (by decide) (by decide)
  rw [List.append_assoc]
  exact hgroup

theorem BinaryOp.symbol_ne_nil (op : BinaryOp) : op.symbol.toList ≠ [] := by
  cases op <;> decide

theorem BinaryOp.isUnbroken_symbol (op : BinaryOp) : IsUnbroken op.symbol.toList := by
  cases op <;> decide

theorem BinaryOp.symbol_not_keyword (op : BinaryOp) : op.symbol.toList ∉ clauseKeywords := by
  cases op <;> decide

mutual

theorem Expr.emit_isItem : ∀ e : Expr, (∀ node ∈ e.nodes, node.KeepsWords) →
    (e.emit (q.namedSources .select)).Ensures fun _ s _ => e.IsItem q s
  | .field source column, _ => by
      rw [Expr.emit]
      exact .ofExcept_bind fun s hs => .pure fun _ => .column (sourceAt_select hs).2.1 column
  | .row source, _ => by
      rw [Expr.emit]
      exact .ofExcept_bind fun s hs => .ofExcept fun sql hsql _ => .row hs hsql
  | .literal value, _ => by
      rw [Expr.emit]
      exact .pure fun _ => .literal value
  | .param value, _ => by
      rw [Expr.emit]
      exact .bindValue fun i => .placeholder (i + 1)
  | .binary op left right, h => by
      rw [Expr.nodes, List.forall_mem_cons, List.forall_mem_append] at h
      rw [Expr.emit]
      refine (left.emit_isItem h.2.1).map₂ (right.emit_isItem h.2.2) fun _ l _ r _ hl hr => ?_
      rw [Expr.IsItem, Expr.nodes, List.countP_cons_of_neg (by simp [Node.isEmptyCall]),
        List.countP_append]
      exact hl.asOperand.after (hr.asOperand.led op.symbol_ne_nil op.isUnbroken_symbol
        op.symbol_not_keyword)
  | .not inner, h => by
      rw [Expr.nodes, List.forall_mem_cons] at h
      rw [Expr.emit]
      refine (inner.emit_isItem h.2).map fun _ s _ hs => ?_
      rw [Expr.IsItem, Expr.nodes, List.countP_cons_of_neg (by simp [Node.isEmptyCall])]
      exact (Item.group hs.framed hs.head?_ne).led (w := "NOT".toList) (by decide) (by decide)
        (by decide)
  | .isNull inner, h => by
      rw [Expr.nodes, List.forall_mem_cons] at h
      rw [Expr.emit]
      refine (inner.emit_isItem h.2).map fun _ s _ hs => ?_
      have hnull : Item "NULL".toList 0 false := .literal .null
      rw [Expr.IsItem, Expr.nodes, List.countP_cons_of_neg (by simp [Node.isEmptyCall])]
      exact hs.asOperand.after (hnull.led (w := "IS".toList) (by decide) (by decide) (by decide))
  | .cast inner target, h => by
      rw [Expr.nodes, List.forall_mem_cons] at h
      rw [Expr.emit]
      have htype : (Emit.ofExcept target.castTarget).Ensures fun _ s _ =>
          Framed s (outerWords s) 0 := .ofExcept fun type htype _ => .castTarget h.1 htype
      refine .refuseIf_bind fun _ => (inner.emit_isItem h.2).map₂ htype fun _ s _ type _ hs ht => ?_
      rw [Expr.IsItem, Expr.nodes, List.countP_cons_of_neg (by simp [Node.isEmptyCall])]
      exact hs.cast ht
  | .isIn left right, h => by
      rw [Expr.nodes, List.forall_mem_cons, List.forall_mem_append] at h
      rw [Expr.emit]
      refine (left.emit_isItem h.2.1).map₂ (right.emit_phrase h.2.2)
        fun _ l _ items _ hl hitems => ?_
      have hgroup := Item.group hitems.framed hitems.head?_ne
      rw [Expr.IsItem, Expr.nodes, List.countP_cons_of_neg (by simp [Node.isEmptyCall]),
        List.countP_append, List.append_assoc]
      exact hl.asOperand.after (hgroup.led (w := "IN".toList) (by decide) (by decide) (by decide))
  | .fragment body, h => by
      rw [Expr.nodes, List.forall_mem_cons] at h
      exact absurd h.2 body.not_keepsWords
  | .call name args distinct, h => by
      rw [Expr.nodes, List.forall_mem_cons] at h
      rw [Expr.emit]
      exact (emitEach_isItem args h.2).map fun _ ss _ hss => .callText h.1 distinct hss

theorem InList.emit_phrase : ∀ l : InList, (∀ node ∈ l.nodes, node.KeepsWords) →
    (l.emit (q.namedSources .select)).Ensures fun _ s _ =>
      Phrase s (l.nodes.countP (Node.isEmptyCall q.sources))
  | .exprs items, h => by
      rw [InList.nodes] at h ⊢
      rw [InList.emit]
      exact (emitEach_isItem items h).map fun _ ss _ hss => (Items.of_each hss).toPhrase
  | .params values, _ => by
      rw [InList.nodes, InList.emit]
      have hvalues : (Emit.bindValues values).Ensures
          (Emit.Each (fun _ _ s _ => Item s 0 false) values) :=
        .bindValues (fun _ i => .placeholder (i + 1)) values
      refine hvalues.map fun _ ss _ hss => ?_
      simpa using (Items.joined hss).toPhrase
  | .fragment body, h => by
      rw [InList.nodes] at h
      exact absurd h body.not_keepsWords

theorem emitEach_isItem : ∀ es : List Expr, (∀ node ∈ nodesOfEach es, node.KeepsWords) →
    (emitEach (q.namedSources .select) es).Ensures (Emit.Each (fun e _ s _ => e.IsItem q s) es)
  | [], _ => by
      rw [emitEach]
      exact .each_nil
  | e :: es, h => by
      rw [nodesOfEach, List.forall_mem_append] at h
      rw [emitEach]
      exact .each_cons (e.emit_isItem h.1) (emitEach_isItem es h.2)

end

end Expressions

end LiteSql
