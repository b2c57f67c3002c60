import LiteSql.Name
import Mathlib.Algebra.Group.Nat.Even

/-!
# Quoted text and its marks

A quoted text is read back exactly: reading accepts a text if and only if it
starts with the quoted form of some content and no further mark follows. So a
quoted text cannot be mistaken for a longer or a shorter one.

A quoted text has an even number of marks. A text without marks that occurs in a
quoted text occurs in its content, and what follows the occurrence has an odd
number of marks: all marks of the content are doubled, and the closing one is
alone.
-/

namespace LiteSql.Text

theorem doubled_of_not_mem {mark : Char} {s : Text} (h : mark ∉ s) :
    doubled mark s = s := by
  induction s with
  | nil => rfl
  | cons c s ih =>
      have hc : c ≠ mark := fun heq => h (by simp [heq])
      have hs : mark ∉ s := fun hmem => h (by simp [hmem])
      rw [doubled_cons, if_neg hc, ih hs]

theorem doubled_append (mark : Char) (s t : Text) :
    doubled mark (s ++ t) = doubled mark s ++ doubled mark t := by
  induction s with
  | nil => rfl
  | cons c s ih =>
      by_cases h : c = mark
      · simp [doubled_cons, h, ih]
      · simp [doubled_cons, h, ih]

theorem count_doubled (mark : Char) (s : Text) :
    (doubled mark s).count mark = 2 * s.count mark := by
  induction s with
  | nil => rfl
  | cons c s ih =>
      by_cases h : c = mark
      · simp [doubled_cons, h, ih]
        omega
      · simp [doubled_cons, h, ih]

theorem even_count_quoted (mark : Char) (s : Text) :
    Even ((quoted mark s).count mark) := by
  refine ⟨s.count mark + 1, ?_⟩
  simp [quoted, count_doubled]
  omega

/-- The front of a text without its marks doubled is the front of the text. -/
theorem doubled_eq_append {mark : Char} {s w y : Text} (hw : mark ∉ w)
    (h : doubled mark s = w ++ y) : ∃ y', s = w ++ y' ∧ y = doubled mark y' := by
  induction w generalizing s with
  | nil => exact ⟨s, rfl, h.symm⟩
  | cons c w ih =>
      have hc : c ≠ mark := fun heq => hw (by simp [heq])
      have hrest : mark ∉ w := fun hmem => hw (by simp [hmem])
      cases s with
      | nil => cases h
      | cons d s =>
          by_cases hd : d = mark
          · rw [doubled_cons, if_pos hd] at h
            exact absurd (List.cons.inj h).1.symm hc
          · rw [doubled_cons, if_neg hd] at h
            obtain ⟨rfl, htail⟩ := List.cons.inj h
            obtain ⟨y', rfl, hy⟩ := ih hrest htail
            exact ⟨y', rfl, hy⟩

/-- A text without marks that occurs in a doubled text occurs in the text
itself, and the doubling of what follows it there follows it here. -/
theorem doubled_eq_append_append {mark : Char} {s w x y : Text} (hw : mark ∉ w)
    (hne : w ≠ []) (h : doubled mark s = x ++ (w ++ y)) :
    ∃ x' y', s = x' ++ (w ++ y') ∧ y = doubled mark y' := by
  induction s generalizing x with
  | nil => simp_all
  | cons c s ih =>
      by_cases hc : c = mark
      · rw [doubled_cons, if_pos hc] at h
        obtain ⟨d, w, rfl⟩ := List.exists_cons_of_ne_nil hne
        have hd : mark ≠ d := fun heq => hw (by simp [heq])
        match x with
        | [] => exact absurd (List.cons.inj h).1 hd
        | [_] => exact absurd (List.cons.inj (List.cons.inj h).2).1 hd
        | _ :: _ :: x =>
            obtain ⟨x', y', rfl, hy⟩ := ih (List.cons.inj (List.cons.inj h).2).2
            exact ⟨c :: x', y', rfl, hy⟩
      · cases x with
        | nil =>
            obtain ⟨y', hs, hy⟩ := doubled_eq_append hw h
            exact ⟨[], y', hs, hy⟩
        | cons _ x =>
            rw [doubled_cons, if_neg hc] at h
            obtain ⟨x', y', rfl, hy⟩ := ih (List.cons.inj h).2
            exact ⟨c :: x', y', rfl, hy⟩

theorem infix_quoted {mark : Char} {s w : Text} (hw : mark ∉ w) (h : w <:+: s) :
    w <:+: quoted mark s := by
  obtain ⟨x, y, rfl⟩ := h
  refine ⟨mark :: doubled mark x, doubled mark y ++ [mark], ?_⟩
  simp [quoted, doubled_append, doubled_of_not_mem hw]

/-- A text without marks does not reach over a mark. -/
theorem occurs_before_or_after {mark : Char} {a b w x y : Text} (hw : mark ∉ w)
    (h : a ++ mark :: b = x ++ (w ++ y)) :
    (∃ y', a = x ++ (w ++ y') ∧ y = y' ++ mark :: b) ∨ ∃ x', b = x' ++ (w ++ y) := by
  rcases List.append_eq_append_iff.mp h with ⟨u, rfl, hu⟩ | ⟨u, rfl, hu⟩
  · cases u with
    | nil =>
        cases w with
        | nil => exact .inl ⟨[], by simp, by simpa using hu.symm⟩
        | cons c w => exact absurd (by simp [(List.cons.inj hu).1]) hw
    | cons c u => exact .inr ⟨u, (List.cons.inj hu).2⟩
  · rcases List.append_eq_append_iff.mp hu with ⟨v, rfl, hv⟩ | ⟨v, rfl, hv⟩
    · exact .inl ⟨v, by simp, hv⟩
    · cases v with
      | nil => exact .inl ⟨[], by simp, by simpa using hv.symm⟩
      | cons c v => exact absurd (by simp [(List.cons.inj hv).1]) hw

/-- A text without marks that occurs at or after a quoted text occurs in the
content or after the closing mark. -/
theorem occurs_in_quoted_append {mark : Char} {s rest w x y : Text} (hw : mark ∉ w)
    (hne : w ≠ []) (h : quoted mark s ++ rest = x ++ (w ++ y)) :
    (∃ x' y', s = x' ++ (w ++ y') ∧ y = doubled mark y' ++ mark :: rest) ∨
      ∃ x', rest = x' ++ (w ++ y) := by
  have hopen : [] ++ mark :: (doubled mark s ++ mark :: rest) = x ++ (w ++ y) := by
    simpa [quoted] using h
  rcases occurs_before_or_after hw hopen with ⟨y', hnil, -⟩ | ⟨x', hinner⟩
  · exact absurd hnil (by simp [hne])
  · rcases occurs_before_or_after hw hinner with ⟨y', hdoubled, rfl⟩ | hrest
    · obtain ⟨x'', y'', hs, rfl⟩ := doubled_eq_append_append hw hne hdoubled
      exact .inl ⟨x'', y'', hs, rfl⟩
    · exact .inr hrest

theorem splitAtMark_doubled {mark : Char} {rest : Text} (s : Text)
    (h : rest.head? ≠ some mark) :
    splitAtMark mark (doubled mark s ++ mark :: rest) = (s, mark :: rest) := by
  induction s with
  | nil =>
      cases rest with
      | nil => simp [splitAtMark]
      | cons d rest =>
          have hd : d ≠ mark := by simpa using h
          simp [splitAtMark, hd]
  | cons c s ih =>
      by_cases hc : c = mark
      · simp [doubled_cons, hc, splitAtMark, ih]
      · rw [doubled_cons, if_neg hc, List.cons_append]
        unfold splitAtMark
        rw [if_neg hc, ih]

/-- Splitting takes nothing away: the first part with its marks doubled and the
second part make up the text. The second part is empty or starts with a mark
that stands alone. -/
theorem splitAtMark_spec (mark : Char) (t : Text) :
    t = doubled mark (splitAtMark mark t).1 ++ (splitAtMark mark t).2 ∧
      ((splitAtMark mark t).2 = [] ∨
        ∃ rest, (splitAtMark mark t).2 = mark :: rest ∧ rest.head? ≠ some mark) := by
  fun_induction splitAtMark mark t with
  | case1 => simp
  | case2 => simp
  | case3 r inner rest hsplit ih =>
      rw [hsplit] at ih
      simpa [doubled_cons] using ih
  | case4 d r hd => simp [hd]
  | case5 c s hc inner rest hsplit ih =>
      rw [hsplit] at ih
      simpa [doubled_cons, hc] using ih

/-- Reading accepts exactly the quoted form of a content, followed by anything
but a further mark. -/
theorem readQuoted_eq_ok_iff {mark : Char} {t s rest : Text} :
    readQuoted mark t = .ok (s, rest) ↔
      t = quoted mark s ++ rest ∧ rest.head? ≠ some mark := by
  constructor
  · intro h
    cases t with
    | nil => cases h
    | cons c t =>
        by_cases hc : c = mark
        · have hspec := splitAtMark_spec mark t
          simp only [readQuoted, if_pos hc] at h
          split at h
          · cases h
          · rename_i inner d r hsplit
            cases h
            rw [hsplit] at hspec
            obtain ⟨ht, hstop | ⟨r, hr, hhead⟩⟩ := hspec
            · cases hstop
            · obtain ⟨rfl, rfl⟩ := List.cons.inj hr
              exact ⟨by simpa [quoted, hc] using ht, hhead⟩
        · simp [readQuoted, hc] at h
  · rintro ⟨rfl, hhead⟩
    simp [quoted, readQuoted, splitAtMark_doubled s hhead]

/-- Reading fails at once where no mark opens the text, and else at its end. -/
theorem eq_of_readQuoted_eq_error {mark : Char} {t stop : Text}
    (h : readQuoted mark t = .error stop) : stop = if t.head? = some mark then [] else t := by
  cases t with
  | nil =>
      cases h
      rfl
  | cons c t =>
      by_cases hc : c = mark
      · rw [List.head?_cons, hc, if_pos rfl]
        simp only [readQuoted, if_pos hc] at h
        split at h
        · cases h
          rfl
        · cases h
      · rw [List.head?_cons, if_neg fun heq => hc (Option.some.inj heq)]
        simp only [readQuoted, if_neg hc] at h
        cases h
        rfl

end LiteSql.Text
