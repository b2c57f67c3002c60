import LiteSql.Proofs.Numerals

/-!
# Texts of decimals, dates and times

The text of a decimal, a date or a time is read back as what it was written from: the
scale of a decimal, a leap second that ends a minute, and a year with a sign are all kept.
A decimal loses the sign of a zero on the way. A leap second inside of a minute has the
text of the next second, and this second is what is read; no text is read as such a leap
second.

A reader is shown to take what was written and to leave the rest, so the readers of
parts add up to the reader of the whole.
-/

namespace LiteSql

namespace Text

theorem length_padded {width n : Nat} (hwidth : 0 < width) (hn : n < 10 ^ width) :
    (padded width n).length = width := by
  have hdigits : (digits n).length ≤ width := (Nat.length_toDigits_le_iff (by decide) hwidth).mpr hn
  simp only [padded, List.length_append, List.length_replicate]
  omega

theorem isBlank_of_isDigit {c : Char} (hc : c.isDigit) : isBlank c = false := by
  have hrange : 48 ≤ c.toNat ∧ c.toNat ≤ 57 := by
    simpa [Char.isDigit, UInt32.le_iff_toNat_le] using hc
  simp only [isBlank]
  grind

theorem skipBlank_of_head {s : Text} (hs : ∀ c ∈ s.head?, isBlank c = false) : skipBlank s = s := by
  cases s with
  | nil => rfl
  | cons c s => simp [skipBlank, hs c rfl]

theorem skipBlank_digits {ds : Text} (hds : IsDigits ds) (rest : Text) :
    skipBlank (ds ++ rest) = ds ++ rest := by
  obtain ⟨d, tail, rfl⟩ := List.exists_cons_of_ne_nil hds.1
  refine skipBlank_of_head fun c hc => ?_
  cases hc
  exact isBlank_of_isDigit (hds.2 d (by simp))

theorem spanDigits_append {ds rest : Text} (hds : IsDigits ds)
    (hrest : ∀ c ∈ rest.head?, c.isDigit = false) : spanDigits (ds ++ rest) = (ds, rest) := by
  have hstop : rest.takeWhile Char.isDigit = [] ∧ rest.dropWhile Char.isDigit = rest := by
    cases rest with
    | nil => exact ⟨rfl, rfl⟩
    | cons c rest => simp [hrest c rfl]
  rw [spanDigits, List.takeWhile_append_of_pos hds.2, List.dropWhile_append_of_pos hds.2, hstop.1,
    hstop.2, List.append_nil]

end Text

namespace Decimal

/-- The decimal as it is read back: a zero has no sign. -/
def unsignedZero (d : Decimal) : Decimal :=
  { d with negative := d.negative && d.coefficient != 0 }

theorem ofParts?_eq_unsignedZero (d : Decimal) :
    ofParts? d.negative d.coefficient d.scale = some d.unsignedZero :=
  dif_pos ⟨d.coefficient_lt, d.scale_le⟩

/-- Digits are read one by one as long as the coefficient and the scale stay in range. -/
theorem readPlain?_digits (negative point : Bool) (rest : Text) {ds : Text} :
    ∀ {seen : Bool} {coefficient scale : Nat}, (∀ c ∈ ds, c.isDigit) →
      Text.ofDigitsAfter coefficient ds < Nat.pow 2 96 →
      (if point then scale + ds.length ≤ 28 else scale = 0) →
      readPlain? negative seen point coefficient scale (ds ++ rest) =
        readPlain? negative (seen || !ds.isEmpty) point (Text.ofDigitsAfter coefficient ds)
          (if point then scale + ds.length else 0) rest := by
  induction ds with
  | nil =>
      intro seen coefficient scale _ _ hscale
      cases point <;> simp_all [Text.ofDigitsAfter]
  | cons c ds ih =>
      intro seen coefficient scale hds hlt hscale
      rw [Text.ofDigitsAfter_cons] at hlt ⊢
      -- The value only grows, so the bound on the whole run holds after each digit.
      have hnext := Nat.lt_of_le_of_lt (Text.le_ofDigitsAfter _ ds) hlt
      have hroom : (point && scale == 28) = false ∧
          if point then (if point then scale + 1 else 0) + ds.length ≤ 28
          else (if point then scale + 1 else 0) = 0 := by
        cases point with
        | false => exact ⟨rfl, rfl⟩
        | true =>
            simp only [if_true, List.length_cons] at hscale ⊢
            simp only [Bool.true_and, beq_eq_false_iff_ne]
            omega
      have hstep := @ih true _ (if point then scale + 1 else 0)
        (fun c hc => hds c (List.mem_cons_of_mem _ hc)) hlt hroom.2
      rw [List.cons_append, readPlain?, hroom.1, if_neg (by simp), if_pos (hds c (by simp)),
        if_pos hnext, hstep]
      cases point with
      | false => simp
      | true => simp [Nat.add_right_comm, Nat.add_assoc]

theorem ofPlain?_of_isDigits {ds : Text} (hds : IsDigits ds) (rest : Text) :
    ofPlain? (ds ++ rest) = readPlain? false false false 0 0 (ds ++ rest) := by
  obtain ⟨d, tail, rfl⟩ := List.exists_cons_of_ne_nil hds.1
  have hd := hds.2 d (by simp)
  rw [List.cons_append, ofPlain?]
  · rintro s hs
    cases hs
    exact absurd hd (by decide)
  · rintro s hs
    cases hs
    exact absurd hd (by decide)

/-- The digits before and after the point of a decimal are those of its coefficient. -/
theorem readPlain?_text (d : Decimal) {whole fraction : Text} (hwhole : IsDigits whole)
    (hfraction : ∀ c ∈ fraction, c.isDigit) (hscale : fraction.length = d.scale)
    (hvalue : Text.ofDigitsAfter (Text.ofDigitsAfter 0 whole) fraction = d.coefficient) :
    readPlain? d.negative false false 0 0
      (whole ++ if d.scale = 0 then [] else '.' :: fraction) = some d.unsignedZero := by
  have hlt : Text.ofDigitsAfter (Text.ofDigitsAfter 0 whole) fraction < Nat.pow 2 96 :=
    hvalue ▸ d.coefficient_lt
  have hwholeLt := Nat.lt_of_le_of_lt (Text.le_ofDigitsAfter _ fraction) hlt
  have hseen : (false || !whole.isEmpty) = true := by
    simpa using hwhole.1
  rw [readPlain?_digits d.negative false _ hwhole.2 hwholeLt rfl, hseen]
  by_cases hzero : d.scale = 0
  · obtain rfl : fraction = [] := List.length_eq_zero_iff.mp (hscale.trans hzero)
    rw [if_pos hzero, readPlain?, ← ofParts?_eq_unsignedZero, ← hvalue, hzero]
    rfl
  · have hpoint : ∀ coefficient, readPlain? d.negative true false coefficient 0 ('.' :: fraction) =
        readPlain? d.negative true true coefficient 0 fraction := fun _ => rfl
    have hroom : 0 + fraction.length ≤ 28 := by
      have := d.scale_le
      omega
    have hread := @readPlain?_digits d.negative true [] fraction true _ 0 hfraction hlt hroom
    rw [List.append_nil] at hread
    rw [if_neg hzero]
    refine (hpoint _).trans (hread.trans ?_)
    rw [readPlain?, ← ofParts?_eq_unsignedZero, ← hvalue, ← hscale]
    simp

/-- The text of a decimal is read back, without the sign of a zero. -/
theorem ofText?_text (d : Decimal) : ofText? d.text = some d.unsignedZero := by
  have hdigits : IsDigits (Text.padded (d.scale + 1) d.coefficient) := .padded _ _
  have hlength : d.scale < (Text.padded (d.scale + 1) d.coefficient).length := by
    simp only [Text.padded, List.length_append, List.length_replicate]
    omega
  have hvalue : Text.ofDigitsAfter 0 (Text.padded (d.scale + 1) d.coefficient) = d.coefficient :=
    Text.ofDigits_padded _ _
  unfold text
  generalize Text.padded (d.scale + 1) d.coefficient = ds at hdigits hlength hvalue
  have hwhole := hdigits.take (n := ds.length - d.scale) (by omega)
  have hfraction : ∀ c ∈ ds.drop (ds.length - d.scale), c.isDigit :=
    fun c hc => hdigits.2 c (List.mem_of_mem_drop hc)
  have hread := d.readPlain?_text hwhole hfraction (by rw [List.length_drop]; omega)
    (by rw [← Text.ofDigitsAfter_append, List.take_append_drop, hvalue])
  have hplain : ofPlain? ((if d.negative then ['-'] else []) ++ ds.take (ds.length - d.scale) ++
      if d.scale = 0 then [] else '.' :: ds.drop (ds.length - d.scale)) = some d.unsignedZero := by
    cases hnegative : d.negative with
    | false =>
        rw [hnegative] at hread
        exact (ofPlain?_of_isDigits hwhole _).trans hread
    | true =>
        rw [hnegative] at hread
        exact hread
  simp only [ofText?, hplain]

end Decimal

namespace Calendar

theorem Scan.bind_eq {α β : Type} {p : Scan α} {next : α → Scan β} {s rest : Text} {a : α}
    (h : p s = some (a, rest)) : (p >>= next) s = next a rest := by
  show (p s).bind _ = _
  rw [h]
  rfl

theorem readAll_eq {α : Type} {p : Scan α} {s : Text} {a : α} (h : p s = some (a, [])) :
    readAll p s = some a := by
  simp [readAll, h, Text.skipBlank]

theorem number_append {width : Nat} {ds : Text} (hds : IsDigits ds) (hlength : ds.length = width)
    (rest : Text) : number width (ds ++ rest) = some (Text.ofDigits ds, rest) := by
  have htake : ((ds ++ rest).take width).takeWhile Char.isDigit = ds := by
    rw [List.take_left' hlength]
    simpa using @List.takeWhile_append_of_pos _ Char.isDigit ds [] hds.2
  simp [number, Text.skipBlank_digits hds, htake, hds.1]

theorem number_padded {width n : Nat} (hwidth : 0 < width) (hn : n < 10 ^ width) (rest : Text) :
    number width (Text.padded width n ++ rest) = some (n, rest) := by
  rw [number_append (.padded width n) (Text.length_padded hwidth hn), Text.ofDigits_padded]

theorem digitRun_padded (width n : Nat) {rest : Text}
    (hrest : ∀ c ∈ rest.head?, c.isDigit = false) :
    digitRun (Text.padded width n ++ rest) = some (n, rest) := by
  have hdigits := IsDigits.padded width n
  have hvalue := Text.ofDigits_padded width n
  rw [digitRun, Text.spanDigits_append hdigits hrest]
  generalize Text.padded width n = ds at hdigits hvalue
  cases ds with
  | nil => exact absurd rfl hdigits.1
  | cons d ds => rw [← hvalue]

theorem separator_cons {c : Char} (hc : Text.isBlank c = false) (rest : Text) :
    separator c (c :: rest) = some ((), rest) := by
  simp [separator, Text.skipBlank, hc]

theorem year_of_isDigits {ds : Text} (hds : IsDigits ds) (rest : Text) :
    year (ds ++ rest) = (number 4 (ds ++ rest)).map fun p => ((p.1 : Int), p.2) := by
  rw [year, Text.skipBlank_digits hds]
  obtain ⟨d, tail, rfl⟩ := List.exists_cons_of_ne_nil hds.1
  have hd := hds.2 d (by simp)
  split
  · rename_i r hr
    cases hr
    exact absurd hd (by decide)
  · rename_i r hr
    cases hr
    exact absurd hd (by decide)
  · rfl

theorem year_yearText (y : Int) (rest : Text) :
    year (Date.yearText y ++ '-' :: rest) = some (y, '-' :: rest) := by
  have hrun : digitRun (Text.padded 4 y.natAbs ++ '-' :: rest) = some (y.natAbs, '-' :: rest) :=
    digitRun_padded 4 y.natAbs fun c hc => by cases hc; rfl
  unfold Date.yearText
  split
  · have hnumber := number_padded (by decide) (show y.natAbs < 10 ^ 4 by omega) ('-' :: rest)
    have hy : (y.natAbs : Int) = y := Int.natAbs_of_nonneg (by omega)
    simp only [year_of_isDigits (.padded 4 y.natAbs), hnumber, Option.map_some, hy]
  · split
    · have hy : -(y.natAbs : Int) = y := by omega
      show (digitRun (Text.padded 4 y.natAbs ++ '-' :: rest)).map _ = _
      simp only [hrun, Option.map_some, hy]
    · have hy : (y.natAbs : Int) = y := Int.natAbs_of_nonneg (by omega)
      show (digitRun (Text.padded 4 y.natAbs ++ '-' :: rest)).map _ = _
      simp only [hrun, Option.map_some, hy]

namespace Date

theorem ofNumbers?_eq (d : Date) : ofNumbers? d.year d.month d.day = some d :=
  dif_pos d.isDay

theorem day_le (d : Date) : d.day ≤ 31 := by
  have hday := d.isDay.2.2.2
  unfold daysInMonth at hday
  grind

theorem scan_text (d : Date) (rest : Text) : scan (d.text ++ rest) = some (d, rest) := by
  have hmonth : d.month < 10 ^ 2 := by
    have := d.isDay.2.1.2
    omega
  have hday : d.day < 10 ^ 2 := by
    have := d.day_le
    omega
  simp only [text, List.append_assoc, List.cons_append, scan]
  rw [Scan.bind_eq (year_yearText d.year _), Scan.bind_eq (separator_cons rfl _),
    Scan.bind_eq (number_padded (by decide) hmonth _), Scan.bind_eq (separator_cons rfl _),
    Scan.bind_eq (number_padded (by decide) hday _), d.ofNumbers?_eq]
  rfl

theorem ofText?_text (d : Date) : ofText? d.text = some d :=
  readAll_eq (by simpa using d.scan_text [])

end Date

namespace Time

/-- Whether the time lies in a leap second that does not end a minute. -/
def isInnerLeap (t : Time) : Bool :=
  1000000000 ≤ t.nanoseconds && t.seconds % 60 != 59

theorem isInnerLeap_iff (t : Time) :
    t.isInnerLeap ↔ 1000000000 ≤ t.nanoseconds ∧ t.seconds % 60 ≠ 59 := by
  simp [isInnerLeap]

/-- The time that the text of `t` is read as. -/
def shown (t : Time) : Time :=
  if h : t.isInnerLeap then
    ⟨t.seconds + 1, t.nanoseconds - 1000000000,
      by have := (isInnerLeap_iff t).mp h; have := t.seconds_lt; omega,
      by have := t.nanoseconds_lt; omega⟩
  else t

theorem shown_of_isInnerLeap {t : Time} (h : t.isInnerLeap) :
    t.shown.seconds = t.seconds + 1 ∧ t.shown.nanoseconds = t.nanoseconds - 1000000000 := by
  rw [shown, dif_pos h]
  exact ⟨rfl, rfl⟩

theorem shown_eq_self_iff (t : Time) : t.shown = t ↔ t.isInnerLeap = false := by
  cases h : t.isInnerLeap with
  | false => exact iff_of_true (dif_neg (by simp [h])) rfl
  | true =>
      refine iff_of_false (fun heq => ?_) (by simp)
      have hseconds := (shown_of_isInnerLeap h).1
      rw [heq] at hseconds
      omega

theorem hour_lt (t : Time) : t.hour < 24 := by
  have := t.seconds_lt
  unfold hour
  omega

theorem minute_lt (t : Time) : t.minute < 60 :=
  Nat.mod_lt _ (by decide)

theorem second_le (t : Time) : t.second ≤ 60 := by
  have := t.nanoseconds_lt
  unfold second
  omega

theorem nanosecond_lt (t : Time) : t.nanosecond < 1000000000 :=
  Nat.mod_lt _ (by decide)

/-- The two times have the same numbers in their texts. -/
theorem numbers_shown (t : Time) :
    t.shown.hour = t.hour ∧ t.shown.minute = t.minute ∧ t.shown.second = t.second ∧
      t.shown.nanosecond = t.nanosecond := by
  cases h : t.isInnerLeap with
  | false =>
      rw [(shown_eq_self_iff t).mpr h]
      exact ⟨rfl, rfl, rfl, rfl⟩
  | true =>
      obtain ⟨hleap, hinner⟩ := (isInnerLeap_iff t).mp h
      obtain ⟨hseconds, hnanoseconds⟩ := shown_of_isInnerLeap h
      have hlt := t.nanoseconds_lt
      simp only [hour, minute, second, nanosecond, hseconds, hnanoseconds]
      refine ⟨by omega, by omega, by omega, by omega⟩

theorem isInnerLeap_shown (t : Time) : t.shown.isInnerLeap = false := by
  cases h : t.isInnerLeap with
  | false => rwa [(shown_eq_self_iff t).mpr h]
  | true =>
      have hnanoseconds := (shown_of_isInnerLeap h).2
      have hlt := t.nanoseconds_lt
      rw [← Bool.not_eq_true, isInnerLeap_iff]
      omega

/-- The numbers of a time outside of inner leap seconds make up the time. -/
theorem ofNumbers?_of_isInnerLeap {t : Time} (h : t.isInnerLeap = false) :
    ofNumbers? t.hour t.minute t.second t.nanosecond = some t := by
  have hhour := t.hour_lt
  have hminute := t.minute_lt
  have hnanosecond := t.nanosecond_lt
  rw [← Bool.not_eq_true, isInnerLeap_iff, not_and_not_right] at h
  obtain ⟨seconds, nanoseconds, hseconds, hnanoseconds⟩ := t
  by_cases hleap : 1000000000 ≤ nanoseconds
  · have hend : seconds % 60 = 59 := h hleap
    have hsecond : seconds % 60 + nanoseconds / 1000000000 = 60 := by omega
    simp only [second, hour, minute, nanosecond] at *
    rw [ofNumbers?, dif_neg (by omega), dif_pos ⟨hhour, hminute, hsecond, hnanosecond⟩]
    simp only [Option.some.injEq, Time.mk.injEq]
    omega
  · have hsecond : seconds % 60 + nanoseconds / 1000000000 < 60 := by omega
    simp only [second, hour, minute, nanosecond] at *
    rw [ofNumbers?, dif_pos ⟨hhour, hminute, hsecond, hnanosecond⟩]
    simp only [Option.some.injEq, Time.mk.injEq]
    omega

theorem ofNumbers?_eq (t : Time) :
    ofNumbers? t.hour t.minute t.second t.nanosecond = some t.shown := by
  obtain ⟨hhour, hminute, hsecond, hnanosecond⟩ := t.numbers_shown
  rw [← hhour, ← hminute, ← hsecond, ← hnanosecond]
  exact ofNumbers?_of_isInnerLeap t.isInnerLeap_shown

/-- A fraction of `width` digits is read as so many nanoseconds. -/
theorem fraction_padded {width n : Nat} (hwidth : 0 < width ∧ width ≤ 9) (hn : n < 10 ^ width) :
    fraction ('.' :: Text.padded width n) = some (n * Nat.pow 10 (9 - width), []) := by
  have hdigits := IsDigits.padded width n
  have hlength := Text.length_padded hwidth.1 hn
  have hvalue := Text.ofDigits_padded width n
  have hspan : Text.spanDigits (Text.padded width n ++ []) = _ :=
    Text.spanDigits_append hdigits (by simp)
  rw [List.append_nil] at hspan
  rw [fraction, hspan]
  generalize Text.padded width n = ds at hdigits hlength hvalue
  cases ds with
  | nil => exact absurd rfl hdigits.1
  | cons d ds =>
      have htake : (d :: ds).take 9 = d :: ds := List.take_of_length_le (by omega)
      simp only [htake, hvalue, hlength]

theorem fraction_fractionText {n : Nat} (hn : n < 1000000000) :
    fraction (fractionText n) = some (n, []) := by
  unfold fractionText
  split
  · rename_i hzero
    rw [hzero]
    rfl
  · split
    · rw [fraction_padded (by decide) (by omega)]
      congr 2
      show n / 1000000 * 1000000 = n
      omega
    · split
      · rw [fraction_padded (by decide) (by omega)]
        congr 2
        show n / 1000 * 1000 = n
        omega
      · rw [fraction_padded (by decide) (by omega)]
        congr 2
        exact Nat.mul_one n

theorem scanMinutes_text (t : Time) (rest : Text) :
    scanMinutes (Text.padded 2 t.hour ++ ':' :: (Text.padded 2 t.minute ++ rest)) =
      some ((t.hour, t.minute), rest) := by
  have hhour := t.hour_lt
  have hminute := t.minute_lt
  rw [scanMinutes, Scan.bind_eq (number_padded (by decide) (by omega) _),
    Scan.bind_eq (separator_cons rfl _), Scan.bind_eq (number_padded (by decide) (by omega) _)]
  rfl

theorem scanSeconds_text (t : Time) :
    scanSeconds (':' :: (Text.padded 2 t.second ++ fractionText t.nanosecond)) =
      some ((t.second, t.nanosecond), []) := by
  have hsecond := t.second_le
  rw [scanSeconds, Scan.bind_eq (separator_cons rfl _),
    Scan.bind_eq (number_padded (by decide) (by omega) _),
    Scan.bind_eq (fraction_fractionText t.nanosecond_lt)]
  rfl

theorem scan_text (t : Time) : scan t.text = some (t.shown, []) := by
  rw [scan, text, Scan.bind_eq (t.scanMinutes_text _)]
  dsimp only
  rw [Scan.bind_eq t.scanSeconds_text]
  dsimp only
  rw [t.ofNumbers?_eq]
  rfl

theorem ofText?_text (t : Time) : ofText? t.text = some t.shown := by
  rw [ofText?, readAll_eq t.scan_text]

end Time

/-- The moment that the text of `dt` is read as. -/
def DateTime.shown (dt : DateTime) : DateTime :=
  { dt with time := dt.time.shown }

theorem DateTime.ofText?_textWith (dt : DateTime) :
    ofText? (dt.textWith 'T') = some dt.shown := by
  refine readAll_eq ?_
  rw [textWith, scan, Scan.bind_eq (dt.date.scan_text _), Scan.bind_eq (separator_cons rfl _),
    Scan.bind_eq dt.time.scan_text]
  rfl

end Calendar

namespace Value

/-- Whether the value has a time in a leap second inside of a minute. -/
def isInnerLeap : Value → Bool
  | .time t => t.isInnerLeap
  | .dateTime dt => dt.time.isInnerLeap
  | _ => false

/-- The value with the time that its text is read as. -/
def shown : Value → Value
  | .time t => .time t.shown
  | .dateTime dt => .dateTime dt.shown
  | v => v

theorem shown_eq_self_iff (v : Value) : v.shown = v ↔ v.isInnerLeap = false := by
  cases v with
  | time t => simp [shown, isInnerLeap, t.shown_eq_self_iff]
  | dateTime dt =>
      obtain ⟨date, time⟩ := dt
      simp [shown, isInnerLeap, Calendar.DateTime.shown, time.shown_eq_self_iff]
  | _ => simp [shown, isInnerLeap]

end Value

end LiteSql
