import LiteSql.Proofs.VisibleText

/-!
# Parentheses and words

The outer text is what is left of a visible text when every group in parentheses is
reduced to its two parentheses. It is read as words, which end at blanks, and commas.
The arguments of a call are such a group, so the word of a call is its name and the
two parentheses.

A call is written with `DISTINCT` at the start of its group. It is empty if no
expression follows before the end of the group: nothing but commas and blanks, or a
single star.

All of this can be put together from parts, as long as the parentheses match in each
part and a blank or a comma stands between words.
-/

namespace LiteSql

/-- The text outside of parentheses, with the outermost parentheses themselves. `depth`
counts the open ones. -/
def outerText : Nat → Text → Text
  | _, [] => []
  | 0, c :: s => c :: outerText (if c = '(' then 1 else 0) s
  | depth + 1, c :: s =>
    if c = '(' then outerText (depth + 2) s
    else if c = ')' then
      if depth = 0 then c :: outerText 0 s else outerText depth s
    else outerText (depth + 1) s

/-- The word that ends, if there is one. -/
def endedWord (current : Text) : List Text :=
  if current = [] then [] else [current]

/-- Words and commas in order. `current` is what was read of the current word. -/
def wordsFrom : Text → Text → List Text
  | current, [] => endedWord current
  | current, c :: s =>
    if c = ' ' then endedWord current ++ wordsFrom [] s
    else if c = ',' then endedWord current ++ [c] :: wordsFrom [] s
    else wordsFrom (current ++ [c]) s

/-- The words of a text outside of quotes and parentheses. -/
def outerWords (sql : Text) : List Text :=
  wordsFrom [] (outerText 0 (visible none sql))

/-- The characters between items. -/
def isGap (c : Char) : Bool :=
  c == ',' || c == ' '

/-- Whether a list of arguments, as far as it is visible, ends before an expression. -/
def listsNothing (s : Text) : Bool :=
  match s.dropWhile isGap with
  | c :: rest => c == ')' || c == '*' && rest.head? == some ')'
  | [] => false

/-- Whether a visible text goes on with a distinct list without an expression. -/
def opensEmpty (s : Text) : Bool :=
  "DISTINCT ".toList.isPrefixOf s && listsNothing (s.drop 9)

/-- How many empty distinct calls are visible. -/
def emptyCalls : Text → Nat
  | [] => 0
  | c :: s => (if c = '(' ∧ opensEmpty s then 1 else 0) + emptyCalls s

example : outerWords "SELECT f(DISTINCT a, g(1)), \"b, c\" FROM t".toList =
    ["SELECT".toList, "f()".toList, ",".toList, "\"".toList, "FROM".toList, "t".toList] := by
  decide

/-- None of the marks is in the text. -/
def Avoids (marks s : Text) : Prop :=
  ∀ c ∈ s, c ∉ marks

instance (marks s : Text) : Decidable (Avoids marks s) :=
  List.decidableBAll (· ∉ marks) s

namespace Avoids

variable {marks s : Text}

theorem ne (h : Avoids marks s) {c d : Char} (hc : c ∈ s) (hd : d ∈ marks) : c ≠ d :=
  (ne_of_mem_of_not_mem hd (h c hc)).symm

theorem tail {c : Char} (h : Avoids marks (c :: s)) : Avoids marks s :=
  fun d hd => h d (List.mem_cons_of_mem c hd)

theorem append {t : Text} (hs : Avoids marks s) (ht : Avoids marks t) : Avoids marks (s ++ t) :=
  List.forall_mem_append.mpr ⟨hs, ht⟩

theorem part {others : Text} (h : Avoids marks s) (hothers : others.all marks.contains) :
    Avoids others s := by
  intro c hc hmem
  exact h c hc (List.contains_iff_mem.mp (List.all_eq_true.mp hothers c hmem))

/-- The characters of a class are none of the marks outside of it. -/
theorem of_class {p : Char → Bool} (hmarks : marks.all (!p ·)) (hs : ∀ c ∈ s, p c) :
    Avoids marks s := by
  intro c hc hmem
  have hnone := List.all_eq_true.mp hmarks c hmem
  rw [hs c hc] at hnone
  cases hnone

/-- Without quotes all of a text is visible. -/
theorem visible_eq (h : Avoids "'\"".toList s) :
    visible none s = s ∧ quoteAfter none s = none := by
  refine visible_of_no_mark fun c hc => ?_
  have hsingle : c ≠ '\'' := h.ne hc (by decide)
  have hdouble : c ≠ '"' := h.ne hc (by decide)
  simp [quoteMark?, hsingle, hdouble]

end Avoids

/-- A visible text in which parentheses match. -/
inductive Nested : Text → Prop
  | nil : Nested []
  | char {c : Char} {s : Text} (hopen : c ≠ '(') (hclose : c ≠ ')') (hs : Nested s) :
      Nested (c :: s)
  | group {s t : Text} (hs : Nested s) (ht : Nested t) : Nested ('(' :: (s ++ ')' :: t))

namespace Nested

theorem append {s t : Text} (hs : Nested s) (ht : Nested t) : Nested (s ++ t) := by
  induction hs with
  | nil => exact ht
  | char hopen hclose _ ih => exact .char hopen hclose ih
  | group hs _ _ ih =>
      rw [List.cons_append, List.append_assoc, List.cons_append]
      exact .group hs ih

theorem of_avoids {s : Text} (h : Avoids "()".toList s) : Nested s := by
  induction s with
  | nil => exact .nil
  | cons c s ih =>
      have hne {d : Char} : d ∈ "()".toList → c ≠ d := h.ne List.mem_cons_self
      exact .char (hne (by decide)) (hne (by decide)) (ih h.tail)

theorem parenthesized {s : Text} (hs : Nested s) : Nested ('(' :: (s ++ [')'])) :=
  .group hs .nil

/-- Inside of a group nothing is kept. -/
theorem outerText_succ {s : Text} (hs : Nested s) (depth : Nat) (t : Text) :
    outerText (depth + 1) (s ++ t) = outerText (depth + 1) t := by
  induction hs generalizing depth t with
  | nil => rfl
  | char hopen hclose _ ih => rw [List.cons_append, outerText, if_neg hopen, if_neg hclose, ih]
  | group _ _ ihs iht =>
      rw [List.cons_append, outerText, if_pos rfl, List.append_assoc, ihs, List.cons_append,
        outerText, if_neg (by decide), if_pos rfl, if_neg (Nat.succ_ne_zero depth), iht]

theorem outerText_group {s : Text} (hs : Nested s) (t : Text) :
    outerText 0 ('(' :: (s ++ ')' :: t)) = '(' :: ')' :: outerText 0 t := by
  rw [outerText, if_pos rfl, hs.outerText_succ, outerText, if_neg (by decide), if_pos rfl,
    if_pos rfl]

theorem outerText_append {s : Text} (hs : Nested s) (t : Text) :
    outerText 0 (s ++ t) = outerText 0 s ++ outerText 0 t := by
  induction hs with
  | nil => rfl
  | char hopen _ _ ih =>
      rw [List.cons_append, outerText, outerText, if_neg hopen, ih, List.cons_append]
  | group hs _ _ ih =>
      rw [List.cons_append, List.append_assoc, List.cons_append, hs.outerText_group,
        hs.outerText_group, ih]
      rfl

end Nested

theorem outerText_of_not_mem {s : Text} (h : '(' ∉ s) : outerText 0 s = s := by
  induction s with
  | nil => rfl
  | cons c s ih =>
      rw [List.mem_cons, not_or] at h
      rw [outerText, if_neg fun heq => h.1 heq.symm, ih h.2]

theorem wordsFrom_append {c : Char} (hc : c = ' ' ∨ c = ',') (current s t : Text) :
    wordsFrom current (s ++ c :: t) = wordsFrom current s ++ wordsFrom [] (c :: t) := by
  have hnone : endedWord [] = [] := rfl
  induction s generalizing current with
  | nil => rcases hc with rfl | rfl <;> simp [wordsFrom, hnone]
  | cons d s ih =>
      rw [List.cons_append, wordsFrom, wordsFrom, ih, ih]
      split
      · rw [List.append_assoc]
      · split
        · rw [List.append_assoc, List.cons_append]
        · rfl

theorem wordsFrom_of_avoids {s : Text} (h : Avoids ", ".toList s) (current : Text) :
    wordsFrom current s = endedWord (current ++ s) := by
  induction s generalizing current with
  | nil => rw [wordsFrom, List.append_nil]
  | cons c s ih =>
      have hne {d : Char} : d ∈ ", ".toList → c ≠ d := h.ne List.mem_cons_self
      rw [wordsFrom, if_neg (hne (by decide)), if_neg (hne (by decide)), ih h.tail,
        List.append_assoc, List.singleton_append]

section Groups

theorem isPrefixOf_append_of_not_mem {p : Text} {c : Char} (h : c ∉ p) (s t : Text) :
    p.isPrefixOf (s ++ c :: t) = p.isPrefixOf s := by
  induction p generalizing s with
  | nil => simp
  | cons a p ih =>
      rw [List.mem_cons, not_or] at h
      cases s with
      | nil => simp [List.isPrefixOf, Ne.symm h.1]
      | cons b s => rw [List.cons_append, List.isPrefixOf, List.isPrefixOf, ih h.2]

theorem listsNothing_append_close (s t : Text) :
    listsNothing (s ++ ')' :: t) = listsNothing (s ++ [')']) := by
  have hdrop (u : Text) :
      (s ++ ')' :: u).dropWhile isGap = s.dropWhile isGap ++ ')' :: u := by
    rw [List.dropWhile_append]
    split
    · rename_i hempty
      rw [List.isEmpty_iff.mp hempty]
      rfl
    · rfl
  unfold listsNothing
  rw [hdrop, hdrop]
  match s.dropWhile isGap with
  | [] => rfl
  | [c] => rfl
  | c :: d :: rest => rfl

theorem opensEmpty_append_close (s t : Text) :
    opensEmpty (s ++ ')' :: t) = opensEmpty (s ++ [')']) := by
  have hclose : ')' ∉ "DISTINCT ".toList := by decide
  unfold opensEmpty
  rw [isPrefixOf_append_of_not_mem hclose, isPrefixOf_append_of_not_mem hclose]
  cases hprefix : "DISTINCT ".toList.isPrefixOf s with
  | false => rfl
  | true =>
      obtain ⟨rest, rfl⟩ := List.isPrefixOf_iff_prefix.mp hprefix
      rw [List.append_assoc, List.append_assoc]
      exact congrArg (true && ·) (listsNothing_append_close rest t)

theorem opensEmpty_distinct (s : Text) : opensEmpty ("DISTINCT ".toList ++ s) = listsNothing s := by
  have hprefix : "DISTINCT ".toList.isPrefixOf ("DISTINCT ".toList ++ s) :=
    List.isPrefixOf_iff_prefix.mpr (List.prefix_append _ s)
  rw [opensEmpty, hprefix, Bool.true_and]
  rfl

theorem emptyCalls_group {s : Text} (t : Text)
    (hs : ∀ u, emptyCalls (s ++ u) = emptyCalls s + emptyCalls u) :
    emptyCalls ('(' :: (s ++ ')' :: t)) =
      (if opensEmpty (s ++ [')']) then 1 else 0) + emptyCalls s + emptyCalls t := by
  have hclose : emptyCalls (')' :: t) = emptyCalls t := by
    rw [emptyCalls, if_neg (by simp), Nat.zero_add]
  rw [emptyCalls, opensEmpty_append_close, hs, hclose, Nat.add_assoc]
  simp

theorem Nested.emptyCalls_append {s : Text} (hs : Nested s) (t : Text) :
    emptyCalls (s ++ t) = emptyCalls s + emptyCalls t := by
  induction hs generalizing t with
  | nil => rw [List.nil_append, emptyCalls, Nat.zero_add]
  | char hopen _ _ ih =>
      rw [List.cons_append, emptyCalls, emptyCalls, ih, if_neg fun h => hopen h.1,
        if_neg fun h => hopen h.1, Nat.zero_add, Nat.zero_add]
  | group _ _ ihs iht =>
      rw [List.cons_append, List.append_assoc, List.cons_append, emptyCalls_group _ ihs,
        emptyCalls_group _ ihs, iht]
      simp only [Nat.add_assoc]

theorem emptyCalls_of_not_mem {s : Text} (h : '(' ∉ s) : emptyCalls s = 0 := by
  induction s with
  | nil => rfl
  | cons c s ih =>
      rw [List.mem_cons, not_or] at h
      rw [emptyCalls, if_neg fun hboth => h.1 hboth.1.symm, ih h.2]

end Groups

/-- A text without quotes, parentheses, commas and blanks. -/
abbrev IsUnbroken (s : Text) : Prop :=
  Avoids "'\"(), ".toList s

theorem IsUnbroken.visible_eq {s : Text} (hs : IsUnbroken s) :
    visible none s = s ∧ quoteAfter none s = none :=
  (hs.part (by decide)).visible_eq

/-- A text that is one word: its quotes are closed, and outside of them are no
parentheses, commas and blanks. -/
structure IsOneWord (s : Text) : Prop where
  closed : quoteAfter none s = none
  avoids : Avoids "(), ".toList (visible none s)

theorem IsUnbroken.isOneWord {s : Text} (hs : IsUnbroken s) : IsOneWord s := by
  obtain ⟨hvisible, hclosed⟩ := hs.visible_eq
  refine ⟨hclosed, ?_⟩
  rw [hvisible]
  exact hs.part (by decide)

/-- The words and the number of empty distinct calls of a text whose quotes and
parentheses are closed. -/
structure Framed (s : Text) (ws : List Text) (n : Nat) : Prop where
  closed : quoteAfter none s = none
  nested : Nested (visible none s)
  words_eq : outerWords s = ws
  calls_eq : emptyCalls (visible none s) = n

namespace Framed

theorem nil : Framed [] [] 0 :=
  ⟨rfl, .nil, rfl, rfl⟩

theorem single {s : Text} (hne : s ≠ []) (hs : IsOneWord s) : Framed s [visible none s] 0 := by
  have hopen : '(' ∉ visible none s := fun hmem => hs.avoids.ne hmem (by decide) rfl
  have hword : visible none s ≠ [] := by
    obtain ⟨c, s, rfl⟩ := List.exists_cons_of_ne_nil hne
    simp [visible]
  refine ⟨hs.closed, .of_avoids (hs.avoids.part (by decide)), ?_, emptyCalls_of_not_mem hopen⟩
  rw [outerWords, outerText_of_not_mem hopen, wordsFrom_of_avoids (hs.avoids.part (by decide)),
    List.nil_append, endedWord, if_neg hword]

theorem word {s : Text} (hne : s ≠ []) (hs : IsUnbroken s) : Framed s [s] 0 := by
  have hsingle := single hne hs.isOneWord
  rwa [hs.visible_eq.1] at hsingle

/-- A text without quotes and parentheses. -/
theorem plain {s : Text} (h : Avoids "'\"()".toList s) : Framed s (outerWords s) 0 := by
  obtain ⟨hvisible, hclosed⟩ := (h.part (by decide)).visible_eq
  refine ⟨hclosed, ?_, rfl, ?_⟩
  · rw [hvisible]
    exact .of_avoids (h.part (by decide))
  · rw [hvisible]
    exact emptyCalls_of_not_mem fun hmem => h.ne hmem (by decide) rfl

theorem separated {s t : Text} {ws us : List Text} {n m : Nat} (hs : Framed s ws n) {c : Char}
    (hc : c = ' ' ∨ c = ',') (ht : Framed (c :: t) us m) :
    Framed (s ++ c :: t) (ws ++ us) (n + m) := by
  have hvisible : visible none (s ++ c :: t) = visible none s ++ visible none (c :: t) := by
    rw [visible_append, hs.closed]
  have hmark : quoteMark? c = none := by rcases hc with rfl | rfl <;> rfl
  have hopen : c ≠ '(' := by rcases hc with rfl | rfl <;> decide
  refine ⟨?_, ?_, ?_, ?_⟩
  · rw [quoteAfter_append, hs.closed, ht.closed]
  · rw [hvisible]
    exact hs.nested.append ht.nested
  · have hfirst : outerText 0 (visible none (c :: t)) = c :: outerText 0 (visible none t) := by
      rw [visible, hmark, outerText, if_neg hopen]
    rw [outerWords, hvisible, hs.nested.outerText_append, hfirst, wordsFrom_append hc, ← hfirst,
      ← ht.words_eq, ← hs.words_eq, outerWords, outerWords]
  · rw [hvisible, hs.nested.emptyCalls_append, hs.calls_eq, ht.calls_eq]

theorem gap {s : Text} {ws : List Text} {n : Nat} (hs : Framed s ws n) {c : Char}
    (hc : c = ' ' ∨ c = ',') : Framed (c :: s) (wordsFrom [] [c] ++ ws) n := by
  have hmark : quoteMark? c = none := by rcases hc with rfl | rfl <;> rfl
  have hopen : c ≠ '(' := by rcases hc with rfl | rfl <;> decide
  have hclose : c ≠ ')' := by rcases hc with rfl | rfl <;> decide
  have hvisible : visible none (c :: s) = c :: visible none s := by rw [visible, hmark]
  refine ⟨?_, ?_, ?_, ?_⟩
  · rw [quoteAfter, hmark, hs.closed]
  · rw [hvisible]
    exact .char hopen hclose hs.nested
  · have hwords (t : Text) : wordsFrom [] (c :: t) = wordsFrom [] [c] ++ wordsFrom [] t := by
      rcases hc with rfl | rfl <;> rfl
    rw [outerWords, hvisible, outerText, if_neg hopen, hwords, ← hs.words_eq, outerWords]
  · rw [hvisible, emptyCalls, if_neg fun h => hopen h.1, hs.calls_eq, Nat.zero_add]

theorem blank {s : Text} {ws : List Text} {n : Nat} (hs : Framed s ws n) :
    Framed (' ' :: s) ws n :=
  hs.gap (.inl rfl)

theorem comma {s : Text} {ws : List Text} {n : Nat} (hs : Framed s ws n) :
    Framed (',' :: s) ([','] :: ws) n :=
  hs.gap (.inr rfl)

theorem visible_call {name : Text} (hname : IsOneWord name) {s : Text} {ws : List Text} {n : Nat}
    (hs : Framed s ws n) :
    visible none (name ++ Text.parenthesized s) =
      visible none name ++ '(' :: (visible none s ++ [')']) := by
  have hinner : visible none (s ++ [')']) = visible none s ++ [')'] := by
    rw [visible_append, hs.closed]
    rfl
  rw [visible_append, hname.closed]
  exact congrArg (visible none name ++ '(' :: ·) hinner

/-- A group after a name is one word. Without a name it is a group alone. -/
theorem call {name : Text} (hname : IsOneWord name) {s : Text} {ws : List Text} {n : Nat}
    (hs : Framed s ws n) :
    Framed (name ++ Text.parenthesized s) [visible none name ++ ['(', ')']]
      ((if opensEmpty (visible none s ++ [')']) then 1 else 0) + n) := by
  have hopen : '(' ∉ visible none name := fun hmem => hname.avoids.ne hmem (by decide) rfl
  have hnested : Nested (visible none name) := .of_avoids (hname.avoids.part (by decide))
  have hgaps : Avoids ", ".toList (visible none name ++ ['(', ')']) :=
    (hname.avoids.part (by decide)).append (by decide)
  refine ⟨?_, ?_, ?_, ?_⟩
  · have hinner : quoteAfter none (s ++ [')']) = none := by
      rw [quoteAfter_append, hs.closed]
      rfl
    rw [quoteAfter_append, hname.closed]
    exact hinner
  · rw [hs.visible_call hname]
    exact hnested.append hs.nested.parenthesized
  · have houter : outerText 0 (visible none name ++ '(' :: (visible none s ++ [')'])) =
        visible none name ++ ['(', ')'] := by
      rw [hnested.outerText_append, outerText_of_not_mem hopen, hs.nested.outerText_group]
      rfl
    rw [outerWords, hs.visible_call hname, houter, wordsFrom_of_avoids hgaps, List.nil_append,
      endedWord, if_neg (by simp)]
  · rw [hs.visible_call hname, hnested.emptyCalls_append, emptyCalls_of_not_mem hopen,
      emptyCalls_group [] hs.nested.emptyCalls_append, hs.calls_eq]
    exact Nat.zero_add _

/-- A list that does not start with the keyword is no distinct list. -/
theorem opensEmpty_eq_false {s : Text} {ws : List Text} {n : Nat} (hs : Framed s ws n)
    (hhead : ws.head? ≠ some "DISTINCT".toList) : opensEmpty (visible none s ++ [')']) = false := by
  have hclose : ')' ∉ "DISTINCT ".toList := by decide
  unfold opensEmpty
  rw [isPrefixOf_append_of_not_mem hclose, Bool.and_eq_false_iff]
  left
  by_contra hprefix
  rw [Bool.not_eq_false] at hprefix
  obtain ⟨rest, hrest⟩ := List.isPrefixOf_iff_prefix.mp hprefix
  have hwords := hs.words_eq
  have hnested : Nested "DISTINCT ".toList := .of_avoids (by decide)
  rw [outerWords, ← hrest, hnested.outerText_append] at hwords
  apply hhead
  rw [← hwords]
  rfl

end Framed

/-- The text adds its words and its empty distinct calls to those of any text before it. -/
def Frames (s : Text) (ws : List Text) (n : Nat) : Prop :=
  ∀ front us m, Framed front us m → Framed (front ++ s) (us ++ ws) (m + n)

namespace Frames

theorem after {s front : Text} {ws us : List Text} {n m : Nat} (hs : Frames s ws n)
    (hfront : Framed front us m) : Framed (front ++ s) (us ++ ws) (m + n) :=
  hs front us m hfront

theorem nil : Frames [] [] 0 := by
  intro front us m hfront
  simpa using hfront

theorem append {s t : Text} {ws us : List Text} {n m : Nat} (hs : Frames s ws n)
    (ht : Frames t us m) : Frames (s ++ t) (ws ++ us) (n + m) := by
  intro front vs k hfront
  rw [← List.append_assoc, ← List.append_assoc, ← Nat.add_assoc]
  exact ht.after (hs.after hfront)

theorem blank {s : Text} {ws : List Text} {n : Nat} (hs : Framed s ws n) :
    Frames (' ' :: s) ws n :=
  fun _ _ _ hfront => hfront.separated (.inl rfl) hs.blank

theorem comma {s : Text} {ws : List Text} {n : Nat} (hs : Framed s ws n) :
    Frames (',' :: s) ([','] :: ws) n :=
  fun _ _ _ hfront => hfront.separated (.inr rfl) hs.comma

end Frames

end LiteSql
