import LiteSql.Proofs.ScalarText
import LiteSql.Proofs.TreeValues
import LiteSql.Tree.Expr

/-!
# Values and expressions in JSON

What is written as JSON is read back. Three things can get lost on the way: a float that
is not finite has no JSON number, so nothing is read back from a tree with such a
float; a zero decimal has no sign when it is read; and a leap second inside of a minute is
stored as the text of the next second.

For each type there is one equation for reading after writing, put together from the
equations of the types inside. Every expression has a bracket of its own, so a reader
that stops after `n` brackets gives back the expressions that have at most so many.
-/

namespace LiteSql

/-- False for a float that is infinite or not a number. -/
def Value.isFinite : Value → Bool
  | .float d => d.isFinite
  | _ => true

/-- The value that is read back: a zero decimal without its sign, and a time as its text
shows it. -/
def Value.restored : Value → Value
  | .decimal d => .decimal d.unsignedZero
  | v => v.shown

/-- What is read back of a tree: nothing if one of its values is not finite. -/
def ifFinite {α : Type} (values : List Value) (a : α) : Option α :=
  if values.all Value.isFinite then some a else none

section IfFinite

variable {α β : Type}

theorem ifFinite_eq_none_iff {values : List Value} {a : α} :
    ifFinite values a = none ↔ ∃ v ∈ values, v.isFinite = false := by
  simp [ifFinite]

theorem ifFinite_eq_some_iff {values : List Value} {a b : α} :
    ifFinite values a = some b ↔ (∀ v ∈ values, v.isFinite) ∧ a = b := by
  simp [ifFinite]

@[simp] theorem map_ifFinite (values : List Value) (a : α) (f : α → β) :
    (ifFinite values a).map f = ifFinite values (f a) := by
  unfold ifFinite
  split <;> rfl

@[simp] theorem bind_ifFinite_some (values : List Value) (a : α) (f : α → β) :
    ((ifFinite values a).bind fun x => some (f x)) = ifFinite values (f a) := by
  unfold ifFinite
  split <;> rfl

@[simp] theorem bind_ifFinite (values values' : List Value) (a : α) (f : α → β) :
    ((ifFinite values a).bind fun x => ifFinite values' (f x)) =
      ifFinite (values ++ values') (f a) := by
  unfold ifFinite
  rw [List.all_append]
  cases values.all Value.isFinite <;> rfl

end IfFinite

namespace Json

section Containers

variable {α β : Type} {read : Json → Option β} {write : α → Json} {values : α → List Value}
  {g : α → β}

theorem list?_map (h : ∀ a, read (write a) = ifFinite (values a) (g a)) (as : List α) :
    list? read (.array (as.map write)) = ifFinite (as.flatMap values) (as.map g) := by
  simp only [list?]
  induction as with
  | nil => rfl
  | cons a as ih =>
      rw [List.map_cons, List.mapM_cons, h a, ih]
      simp

theorem optional?_ofOption (hnull : ∀ a, write a ≠ .null)
    (h : ∀ a, read (write a) = ifFinite (values a) (g a)) (o : Option α) :
    optional? read (some (ofOption write o)) = ifFinite (o.toList.flatMap values) (o.map g) := by
  cases o with
  | none => rfl
  | some a =>
      have hread : optional? read (some (write a)) = (read (write a)).map some := by
        cases hwrite : write a with
        | null => exact absurd hwrite (hnull a)
        | _ => rfl
      rw [ofOption, hread, h]
      simp

theorem list?_map_some {read : Json → Option α} (h : ∀ a, read (write a) = some a) (as : List α) :
    list? read (.array (as.map write)) = some as := by
  have hread := @list?_map _ _ read write (fun _ => []) id h as
  rwa [List.flatMap_eq_nil_iff.mpr fun _ _ => rfl, List.map_id] at hread

theorem optional?_ofOption_some {read : Json → Option α} (hnull : ∀ a, write a ≠ .null)
    (h : ∀ a, read (write a) = some a) (o : Option α) :
    optional? read (some (ofOption write o)) = some o := by
  have hread := @optional?_ofOption _ _ read write (fun _ => []) id hnull h o
  rwa [List.flatMap_eq_nil_iff.mpr fun _ _ => rfl, Option.map_id_fun] at hread

end Containers

theorem natural?_int {bits n : Nat} (hn : n < Nat.pow 2 bits) :
    natural? bits (.int n) = some n := by
  rw [natural?, Int.toNat_natCast, if_pos ⟨Int.natCast_nonneg n, hn⟩]

theorem exists_of_depth_variant_le {name : String} {content : Json} {n : Nat}
    (h : (variant name content).depth ≤ n) : ∃ m, n = m + 1 ∧ content.depth ≤ m := by
  simp only [variant, depth, depthOfFields] at h
  exact ⟨n - 1, by omega, by omega⟩

@[simp] theorem string?_string (s : String) : string? (.string s) = some s :=
  rfl

@[simp] theorem bool?_bool (b : Bool) : bool? (.bool b) = some b :=
  rfl

@[simp] theorem list?_ofStrings (names : List String) :
    list? string? (ofStrings names) = some names :=
  list?_map_some string?_string names

@[simp] theorem optional?_ofString (name : Option String) :
    optional? string? (some (ofOption .string name)) = some name :=
  optional?_ofOption_some (fun _ => Json.noConfusion) string?_string name

@[simp] theorem uint8?_int (n : UInt8) : uint8? (.int n.toNat) = some n := by
  rw [uint8?, natural?_int n.toNat_lt]
  simp

@[simp] theorem uint32?_int (n : UInt32) : uint32? (.int n.toNat) = some n := by
  rw [uint32?, natural?_int n.toNat_lt]
  simp

@[simp] theorem uint64?_int (n : UInt64) : uint64? (.int n.toNat) = some n := by
  rw [uint64?, natural?_int n.toNat_lt]
  simp

@[simp] theorem int64?_int (n : Int64) : int64? (.int n.toInt) = some n := by
  rw [int64?, if_pos ⟨n.minValue_le_toInt, n.toInt_le⟩]
  simp

@[simp] theorem text?_string {α : Type} (read : Text → Option α) (s : Text) :
    text? read (.string (String.ofList s)) = read s := by
  simp [text?]

end Json

namespace Value

theorem ofJson?_toJson (v : Value) : ofJson? v.toJson = ifFinite [v] v.restored := by
  cases v with
  | null => rfl
  | bool b => rfl
  | int n =>
      show (do return Value.int (← Json.int64? (.int n.toInt))) = _
      rw [Json.int64?_int]
      rfl
  | float d =>
      show (do return Value.float (← Json.double? (if d.isFinite then .float d else .null))) = _
      cases hd : d.isFinite with
      | false => simp [Json.double?, ifFinite, isFinite, hd]
      | true => simp [Json.double?, ifFinite, isFinite, hd, restored, shown]
  | decimal d =>
      -- The reader of the variant is opened for any content: with the text of `d` in its
      -- place, the text itself would be unfolded.
      have hread (s : String) : ofJson? (.variant "decimal" (.string s)) =
          (do return Value.decimal (← Decimal.ofText? s.toList)) := rfl
      rw [toJson, hread, String.toList_ofList, d.ofText?_text]
      rfl
  | string s => rfl
  | binary bytes =>
      have hread (j : Json) : ofJson? (.variant "binary" j) =
          (do return Value.binary (← j.list? Json.uint8?)) := rfl
      rw [toJson, hread, Json.list?_map_some Json.uint8?_int]
      rfl
  | date d =>
      have hread (j : Json) : ofJson? (.variant "date" j) =
          (do return Value.date (← j.text? Calendar.Date.ofText?)) := rfl
      rw [toJson, hread, Json.text?_string, d.ofText?_text]
      rfl
  | time t =>
      have hread (j : Json) : ofJson? (.variant "time" j) =
          (do return Value.time (← j.text? Calendar.Time.ofText?)) := rfl
      rw [toJson, hread, Json.text?_string, t.ofText?_text]
      rfl
  | dateTime dt =>
      have hread (j : Json) : ofJson? (.variant "date_time" j) =
          (do return Value.dateTime (← j.text? Calendar.DateTime.ofText?)) := rfl
      rw [toJson, hread, Json.text?_string, dt.ofText?_textWith]
      rfl

end Value

namespace ColumnType

theorem ofJsonUpTo?_toJson : ∀ (t : ColumnType) {n : Nat}, t.toJson.depth ≤ n →
    ofJsonUpTo? n t.toJson = some t
  | .array item, _, h => by
      obtain ⟨n, rfl, hitem⟩ := Json.exists_of_depth_variant_le h
      show (do return ColumnType.array (← ofJsonUpTo? n item.toJson)) = _
      rw [item.ofJsonUpTo?_toJson hitem]
      rfl
  | .custom name, _, h => by
      obtain ⟨n, rfl, -⟩ := Json.exists_of_depth_variant_le h
      rfl
  | .id, n, _ | .binaryId, n, _ | .serial, n, _ | .integer, n, _ | .bigInt, n, _ | .float, n, _
  | .decimal, n, _ | .boolean, n, _ | .string, n, _ | .text, n, _ | .binary, n, _ | .uuid, n, _
  | .map, n, _ | .date, n, _ | .time, n, _ | .dateTime, n, _ => by cases n <;> rfl

@[simp] theorem ofJson?_toJson (t : ColumnType) : ofJson? t.toJson = some t :=
  t.ofJsonUpTo?_toJson (Nat.le_refl _)

end ColumnType

@[simp] theorem BinaryOp.ofJson?_toJson (op : BinaryOp) : ofJson? op.toJson = some op := by
  cases op <;> rfl

/-- The reader gives back every expression with at most `n` brackets. -/
def ReadsExprs (n : Nat) (read : Json → Option Expr) : Prop :=
  ∀ e : Expr, e.toJson.depth ≤ n →
    read e.toJson = ifFinite e.values (e.mapValues Value.restored)

namespace ReadsExprs

variable {n : Nat} {read : Json → Option Expr}

theorem list (h : ReadsExprs n read) {es : List Expr}
    (hes : Json.depthOfItems (exprsToJson es) ≤ n) :
    Json.list? read (.array (exprsToJson es)) =
      ifFinite (valuesOfEach es) (mapValuesEach Value.restored es) := by
  simp only [Json.list?]
  induction es with
  | nil => rfl
  | cons e es ih =>
      simp only [exprsToJson, Json.depthOfItems] at hes
      rw [exprsToJson, List.mapM_cons, h e (by omega), ih (by omega)]
      simp [valuesOfEach, mapValuesEach]

theorem keywords (h : ReadsExprs n read) {args : List (String × Expr)}
    (hargs : Json.depthOfItems (keywordsToJson args) ≤ n) :
    Json.list? (Json.pair? Json.string? read) (.array (keywordsToJson args)) =
      ifFinite (valuesOfArguments args) (mapValuesArguments Value.restored args) := by
  simp only [Json.list?]
  induction args with
  | nil => rfl
  | cons arg args ih =>
      obtain ⟨name, e⟩ := arg
      simp only [keywordsToJson, Json.depthOfItems, Json.depth] at hargs
      rw [keywordsToJson, List.mapM_cons, ih (by omega)]
      simp [Json.pair?, Json.string?, h e (by omega), valuesOfArguments, mapValuesArguments]

theorem fragment (h : ReadsExprs n read) {b : Fragment} (hb : b.toJson.depth ≤ n) :
    Fragment.ofJsonWith? read b.toJson =
      ifFinite b.values (b.mapValues Value.restored) := by
  cases b with
  | template sql args =>
      simp only [Fragment.toJson, Json.variant, Json.depth, Json.depthOfFields] at hb
      show (do return Fragment.template sql (← Json.list? read (.array (exprsToJson args)))) = _
      rw [h.list (by omega)]
      simp [Fragment.values, Fragment.mapValues]
  | keyword args =>
      simp only [Fragment.toJson, Json.variant, Json.depth, Json.depthOfFields] at hb
      show (do
        let args ← Json.list? (Json.pair? Json.string? read) (.array (keywordsToJson args))
        return Fragment.keyword args) = _
      rw [h.keywords (by omega)]
      simp [Fragment.values, Fragment.mapValues]

theorem inList (h : ReadsExprs n read) {l : InList} (hl : l.toJson.depth ≤ n) :
    InList.ofJsonWith? read l.toJson = ifFinite l.values (l.mapValues Value.restored) := by
  cases l with
  | exprs items =>
      simp only [InList.toJson, Json.variant, Json.depth, Json.depthOfFields] at hl
      show (do return InList.exprs (← Json.list? read (.array (exprsToJson items)))) = _
      rw [h.list (by omega)]
      simp [InList.values, InList.mapValues]
  | params values =>
      show (do
        return InList.params (← Json.list? Value.ofJson? (.array (values.map Value.toJson)))) = _
      rw [Json.list?_map Value.ofJson?_toJson]
      simp [InList.values, InList.mapValues]
  | fragment body =>
      simp only [InList.toJson, Json.variant, Json.depth, Json.depthOfFields] at hl
      show (do return InList.fragment (← Fragment.ofJsonWith? read body.toJson)) = _
      rw [h.fragment (by omega)]
      simp [InList.values, InList.mapValues]

/-- One more bracket is read if the expressions inside are. -/
theorem succ (h : ReadsExprs n (Expr.ofJsonUpTo? n)) :
    ReadsExprs (n + 1) (Expr.ofJsonUpTo? (n + 1)) := by
  intro e he
  cases e with
  | field source column =>
      show (do return Expr.field (← Json.uint64? (.int source.toNat)) column) = _
      rw [Json.uint64?_int]
      rfl
  | row source =>
      show (do return Expr.row (← Json.uint64? (.int source.toNat))) = _
      rw [Json.uint64?_int]
      rfl
  | literal value =>
      show (do return Expr.literal (← Value.ofJson? value.toJson)) = _
      rw [value.ofJson?_toJson]
      simp [Expr.values, Expr.mapValues]
  | param value =>
      show (do return Expr.param (← Value.ofJson? value.toJson)) = _
      rw [value.ofJson?_toJson]
      simp [Expr.values, Expr.mapValues]
  | binary op left right =>
      simp only [Expr.toJson, Json.variant, Json.depth, Json.depthOfFields] at he
      show (do
        let op ← BinaryOp.ofJson? op.toJson
        let left ← Expr.ofJsonUpTo? n left.toJson
        let right ← Expr.ofJsonUpTo? n right.toJson
        return Expr.binary op left right) = _
      rw [op.ofJson?_toJson, h left (by omega), h right (by omega)]
      simp [Expr.values, Expr.mapValues]
  | not inner =>
      simp only [Expr.toJson, Json.variant, Json.depth, Json.depthOfFields] at he
      show (do return Expr.not (← Expr.ofJsonUpTo? n inner.toJson)) = _
      rw [h inner (by omega)]
      simp [Expr.values, Expr.mapValues]
  | isNull inner =>
      simp only [Expr.toJson, Json.variant, Json.depth, Json.depthOfFields] at he
      show (do return Expr.isNull (← Expr.ofJsonUpTo? n inner.toJson)) = _
      rw [h inner (by omega)]
      simp [Expr.values, Expr.mapValues]
  | cast inner target =>
      simp only [Expr.toJson, Json.variant, Json.depth, Json.depthOfFields] at he
      show (do
        let inner ← Expr.ofJsonUpTo? n inner.toJson
        let target ← ColumnType.ofJson? target.toJson
        return Expr.cast inner target) = _
      rw [h inner (by omega), target.ofJson?_toJson]
      simp [Expr.values, Expr.mapValues]
  | isIn left right =>
      simp only [Expr.toJson, Json.variant, Json.depth, Json.depthOfFields] at he
      show (do
        let left ← Expr.ofJsonUpTo? n left.toJson
        let right ← InList.ofJsonWith? (Expr.ofJsonUpTo? n) right.toJson
        return Expr.isIn left right) = _
      rw [h left (by omega), h.inList (by omega)]
      simp [Expr.values, Expr.mapValues]
  | fragment body =>
      simp only [Expr.toJson, Json.variant, Json.depth, Json.depthOfFields] at he
      show (do return Expr.fragment (← Fragment.ofJsonWith? (Expr.ofJsonUpTo? n) body.toJson)) = _
      rw [h.fragment (by omega)]
      simp [Expr.values, Expr.mapValues]
  | call name args distinct =>
      simp only [Expr.toJson, Json.variant, Json.depth, Json.depthOfFields] at he
      show (do
        let args ← Json.list? (Expr.ofJsonUpTo? n) (.array (exprsToJson args))
        return Expr.call name args distinct) = _
      rw [h.list (by omega)]
      simp [Expr.values, Expr.mapValues]

theorem upTo (n : Nat) : ReadsExprs n (Expr.ofJsonUpTo? n) := by
  induction n with
  | zero =>
      -- No expression is stored without a bracket.
      intro e he
      cases e <;> simp [Expr.toJson, Json.variant, Json.depth] at he
  | succ n ih => exact ih.succ

theorem ofJson? (n : Nat) : ReadsExprs n Expr.ofJson? :=
  fun e _ => upTo e.toJson.depth e (Nat.le_refl _)

end ReadsExprs

theorem Expr.ofJson?_toJson (e : Expr) :
    ofJson? e.toJson = ifFinite e.values (e.mapValues Value.restored) :=
  ReadsExprs.ofJson? e.toJson.depth e (Nat.le_refl _)

theorem Expr.toJson_ne_null (e : Expr) : e.toJson ≠ .null := by
  cases e <;> simp [toJson, Json.variant]

theorem exprs_ofJson?_toJson (es : List Expr) :
    Json.list? Expr.ofJson? (.array (exprsToJson es)) =
      ifFinite (valuesOfEach es) (es.map (Expr.mapValues Value.restored)) := by
  rw [(ReadsExprs.ofJson? _).list (Nat.le_refl _), mapValuesEach_eq_map]

theorem Fragment.ofJson?_toJson (b : Fragment) :
    ofJson? b.toJson = ifFinite b.values (b.mapValues Value.restored) :=
  (ReadsExprs.ofJson? _).fragment (Nat.le_refl _)

end LiteSql
