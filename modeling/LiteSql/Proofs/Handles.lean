import LiteSql.Proofs.Binding
import LiteSql.Proofs.ReadBack

/-!
# Handles of sources

In a SELECT every source has a handle, a letter and its position. The letters of two
handles may be equal or differ by case only, since they come from the names of tables,
so a position is told by the digits alone: no two positions have the same ones, and
digits have no case. A field is its handle, a point and its quoted column; the reader
without precedence finds the position and the column in this text, so no two fields of
a query are written in the same way.
-/

namespace LiteSql

namespace Text

/-- The text as it is compared where the case of letters does not matter. -/
def foldCase (s : Text) : Text :=
  s.map Char.toLower

theorem toLower_of_isDigit {c : Char} (hc : c.isDigit) : c.toLower = c := by
  have hrange : 48 ≤ c.toNat ∧ c.toNat ≤ 57 := by
    simpa [Char.isDigit, UInt32.le_iff_toNat_le] using hc
  delta Char.toLower
  refine dif_neg ?_
  rintro ⟨hupper, -⟩
  have hfrom : 65 ≤ c.toNat := hupper
  omega

theorem foldCase_of_isDigits {ds : Text} (hds : IsDigits ds) : foldCase ds = ds := by
  rw [foldCase, List.map_congr_left fun c hc => toLower_of_isDigit (hds.2 c hc), List.map_id']

theorem digits_injective {m n : Nat} (h : digits m = digits n) : m = n := by
  rw [← ofDigits_digits m, h, ofDigits_digits]

end Text

/-- The handle of the source at position `k`: a letter and the digits of `k`. -/
def IsHandleAt (k : Nat) (handle : Text) : Prop :=
  ∃ letter : Char, letter.isAlpha ∧ handle = letter :: Text.digits k

/-- Handles that are equal up to case belong to one position, whatever their letters. -/
theorem IsHandleAt.position_eq {j k : Nat} {s t : Text} (hs : IsHandleAt j s) (ht : IsHandleAt k t)
    (h : s.foldCase = t.foldCase) : j = k := by
  obtain ⟨a, -, rfl⟩ := hs
  obtain ⟨b, -, rfl⟩ := ht
  have htail : (Text.digits j).foldCase = (Text.digits k).foldCase := (List.cons.inj h).2
  rw [Text.foldCase_of_isDigits (.digits j), Text.foldCase_of_isDigits (.digits k)] at htail
  exact Text.digits_injective htail

theorem Reader.ReadsTerm.unique {values : Nat → Option Value} {t : Text} {r r' : Reading}
    (h : ReadsTerm values t r) (h' : ReadsTerm values t r') : r = r' := by
  have hread := h t.length le_rfl [] .nil
  rw [h' t.length le_rfl [] .nil] at hread
  cases hread
  rfl

/-- Columns that are written in the same way belong to one position and have one name. -/
theorem IsHandleAt.column_eq {j k : Nat} {s t : NamedSource} (hs : IsHandleAt j s.handle)
    (ht : IsHandleAt k t.handle) {column column' : String}
    (h : s.column column = t.column column') :
    j = k ∧ column = column' := by
  obtain ⟨a, ha, hhandle⟩ := hs
  obtain ⟨b, hb, hhandle'⟩ := ht
  rw [NamedSource.column, NamedSource.column, hhandle, hhandle'] at h
  have hread : Reader.ReadsTerm (fun _ => none)
      (a :: Text.digits j ++ '.' :: quoteIdentifier column)
      (.field j column.toList) := .field ha j _
  have hread' : Reader.ReadsTerm (fun _ => none)
      (b :: Text.digits k ++ '.' :: quoteIdentifier column')
      (.field k column'.toList) := .field hb k _
  rw [h] at hread
  obtain ⟨hposition, hcolumn⟩ := Reading.field.inj (hread.unique hread')
  exact ⟨hposition, String.toList_injective hcolumn⟩

theorem Query.isHandleAt {q : Query} {k : Nat} {s : NamedSource}
    (hs : (q.namedSources .select)[k]? = some s) : IsHandleAt k s.handle := by
  refine exists_letter_of_sourceAt (q := q) ?_
  rw [sourceAt, hs]

theorem Query.map_source_namedSources (q : Query) (mode : NameMode) :
    (q.namedSources mode).map NamedSource.source = q.sources := by
  apply List.ext_getElem?
  intro k
  rw [List.getElem?_map, namedSources, getElem?_nameSources_eq, Option.map_map]
  have hsource : NamedSource.source ∘ (fun s : Source => s.named q.schema mode (0 + k)) = id :=
    funext fun s => s.source_named q.schema mode (0 + k)
  rw [hsource, Option.map_id_fun, id]

/-- A field is written as a column of the source at its position. -/
theorem Query.text_of_emit_field {q : Query} {k : UInt64} {column : String} {p p' : Params}
    {sql : Text} (h : (Expr.field k column).emit (q.namedSources .select) p = .ok sql p') :
    ∃ s : NamedSource, IsHandleAt k.toNat s.handle ∧ sql = s.column column := by
  rw [Expr.emit] at h
  cases hat : sourceAt (q.namedSources .select) k.toNat with
  | error e =>
      rw [hat] at h
      cases h
  | ok s =>
      rw [hat] at h
      cases h
      exact ⟨s, exists_letter_of_sourceAt hat, rfl⟩

/-- The sources of a SELECT are named in order, each by a letter and its position, and no
two handles are equal even if case is ignored. So no two fields are written in the same
way. -/
theorem handles_identify_positions (q : Query) :
    (q.namedSources .select).map NamedSource.source = q.source :: q.joins.map Join.source ∧
    (∀ k s, (q.namedSources .select)[k]? = some s → IsHandleAt k s.handle) ∧
    (q.namedSources .select).Pairwise (fun s t => s.handle.foldCase ≠ t.handle.foldCase) ∧
    ∀ (j k : UInt64) (column column' : String) (p p' r r' : Params) (sql : Text),
      (Expr.field j column).emit (q.namedSources .select) p = .ok sql r →
      (Expr.field k column').emit (q.namedSources .select) p' = .ok sql r' →
        j = k ∧ column = column' := by
  refine ⟨q.map_source_namedSources .select, fun k s hs => q.isHandleAt hs, ?_, ?_⟩
  · rw [List.pairwise_iff_getElem]
    intro j k hj hk hlt hsame
    have hposition := (q.isHandleAt (List.getElem?_eq_getElem hj)).position_eq
      (q.isHandleAt (List.getElem?_eq_getElem hk)) hsame
    omega
  · intro j k column column' p p' r r' sql hfield hfield'
    obtain ⟨s, hs, rfl⟩ := q.text_of_emit_field hfield
    obtain ⟨t, ht, hsql⟩ := q.text_of_emit_field hfield'
    obtain ⟨hposition, hcolumn⟩ := hs.column_eq ht hsql
    exact ⟨UInt64.toNat_inj.mp hposition, hcolumn⟩

/-- Two tables whose names differ by case only, and a fragment. -/
def Query.ofAlikeTables : Query :=
  ((Query.ofTable "Posts").crossJoin (.table "posts" none)).crossJoin (.fragment (.template "f" []))

theorem handles_identify_positions_in_sample :
    (Query.ofAlikeTables.namedSources .select).map NamedSource.handle =
      ["P0".toList, "p1".toList, "f2".toList] ∧
    (Expr.field 0 "id").emit (Query.ofAlikeTables.namedSources .select) {} =
      .ok "P0.\"id\"".toList {} ∧
    (Expr.field 0 "id").emit (Query.ofAlikeTables.namedSources .select) {} ≠
      (Expr.field 1 "id").emit (Query.ofAlikeTables.namedSources .select) {} := by
  refine ⟨rfl, rfl, fun hsame => ?_⟩
  obtain ⟨-, -, -, hfields⟩ := handles_identify_positions Query.ofAlikeTables
  have hposition := (hfields 0 1 "id" "id" {} {} _ _ _ rfl hsame.symm).1
  exact absurd hposition (by decide)

end LiteSql
