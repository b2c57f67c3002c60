import LiteSql.Proofs.Scanning
import LiteSql.Statement.Change
import Mathlib.Data.List.Forall2

/-!
# Primary keys of a new table

The primary keys that a `CREATE TABLE` declares are read off its tokens. The tokens are
cut into the text before the column list, the definitions in the list and what follows
it, so nothing is left out. A definition declares a key wherever the words `PRIMARY KEY`
stand in it. The key is the column that is defined, or else the columns that a
constraint names.

The column list is cut at its own commas. Commas inside of a definition stand in
parentheses, so the tokens of a definition are passed over as a whole.
-/

namespace LiteSql

/-- Cuts tokens at the column list: at its parentheses and at the commas directly inside
of them. `depth` counts the open parentheses, and `current` is the part so far. -/
def partsFrom : Nat → List Token → List Token → List (List Token)
  | _, current, [] => [current]
  | depth, current, t :: ts =>
    if t = .symbol '(' then
      if depth = 0 then current :: partsFrom 1 [] ts
      else partsFrom (depth + 1) (current ++ [t]) ts
    else if t = .symbol ')' then
      if depth = 1 then current :: partsFrom 0 [] ts
      else partsFrom (depth - 1) (current ++ [t]) ts
    else if t = .symbol ',' ∧ depth = 1 then current :: partsFrom 1 [] ts
    else partsFrom depth (current ++ [t]) ts

/-- How often the words `PRIMARY KEY` stand in a part. -/
def keyCount : List Token → Nat
  | [] => 0
  | t :: ts =>
    (if t = .word "PRIMARY".toList ∧ ts.head? = some (.word "KEY".toList) then 1 else 0) +
      keyCount ts

/-- The names in double quotes. -/
def quotedNames : List Token → List Text
  | [] => []
  | .quoted .double name :: ts => name :: quotedNames ts
  | _ :: ts => quotedNames ts

/-- The columns that a part is about: the one that it defines, or else all that it names. -/
def keySubject : List Token → List Text
  | .quoted .double name :: _ => [name]
  | ts => quotedNames ts

/-- The columns of each primary key that a part declares. -/
def partKeys (part : List Token) : List (List Text) :=
  List.replicate (keyCount part) (keySubject part)

/-- The columns of each primary key that a `CREATE TABLE` declares, in the order of the
text. -/
def declaredKeys (sql : Text) : List (List Text) :=
  (partsFrom 0 [] (Scanner.ready.tokens sql)).flatMap partKeys

example :
    declaredKeys "CREATE TABLE \"t\" (\"PRIMARY KEY\" TEXT, PRIMARY KEY (\"a\", \"b\"))".toList =
      [["a".toList, "b".toList]] := by
  decide

/-- The columns that are to be the primary key, by their type or by their options. -/
def keyColumns : List ColumnChange → List String
  | [] => []
  | .add name spec options :: rest =>
    if spec.isSerial || options.primaryKey then name :: keyColumns rest else keyColumns rest
  | _ :: rest => keyColumns rest

/-- One declaration of a primary key of the columns, or none without columns. -/
def singleKey (names : List String) : List (List Text) :=
  if names = [] then [] else [names.map String.toList]

/-- A column that brings no raw SQL into the text. -/
def ColumnChange.IsPlain : ColumnChange → Prop
  | .add _ spec options =>
    (∀ name, spec.columnType ≠ .custom name) ∧ ∀ sql, options.default? ≠ some (.raw sql)
  | _ => True

/-- Tokens that are passed over: their parentheses match, and their commas stand inside
of parentheses unless `commas` allows them. -/
inductive Enclosed : Bool → List Token → Prop
  | nil (commas : Bool) : Enclosed commas []
  | token {commas : Bool} {t : Token} (hopen : t ≠ .symbol '(') (hclose : t ≠ .symbol ')')
      (hcomma : t = .symbol ',' → commas) : Enclosed commas [t]
  | append {commas : Bool} {ts us : List Token} (hts : Enclosed commas ts)
      (hus : Enclosed commas us) : Enclosed commas (ts ++ us)
  | group {commas : Bool} {ts : List Token} (hts : Enclosed true ts) :
      Enclosed commas (.symbol '(' :: (ts ++ [.symbol ')']))

/-- Enclosed tokens are added to the current part. Commas are free from the second
level on. -/
theorem partsFrom_enclosed {commas : Bool} {ts : List Token} (h : Enclosed commas ts) :
    ∀ depth current rest, (if commas then 2 else 1) ≤ depth →
      partsFrom depth current (ts ++ rest) = partsFrom depth (current ++ ts) rest := by
  induction h with
  | nil commas => simp
  | @token commas t hopen hclose hcomma =>
      intro depth current rest hdepth
      have hcut : ¬ (t = .symbol ',' ∧ depth = 1) := by
        rintro ⟨ht, rfl⟩
        simp [hcomma ht] at hdepth
      rw [List.singleton_append, partsFrom, if_neg hopen, if_neg hclose, if_neg hcut]
  | append hts hus ihts ihus =>
      intro depth current rest hdepth
      rw [List.append_assoc, ihts depth current _ hdepth, ihus depth _ rest hdepth,
        List.append_assoc]
  | @group commas ts hts ih =>
      intro depth current rest hdepth
      have hpos : 1 ≤ depth := by
        cases commas <;> simp at hdepth <;> omega
      have hzero : depth ≠ 0 := by omega
      have hone : depth + 1 ≠ 1 := by omega
      have hclosed : partsFrom (depth + 1) (current ++ [.symbol '('] ++ ts) (.symbol ')' :: rest) =
          partsFrom depth (current ++ [.symbol '('] ++ ts ++ [.symbol ')']) rest := by
        rw [partsFrom, if_neg (by decide), if_pos rfl, if_neg hone, Nat.add_sub_cancel]
      rw [List.cons_append, List.append_assoc, List.singleton_append, partsFrom, if_pos rfl,
        if_neg hzero, ih (depth + 1) _ _ (by simpa using hpos), hclosed]
      simp

namespace Enclosed

theorem of_forall {ts : List Token}
    (h : ∀ t ∈ ts, t ≠ .symbol '(' ∧ t ≠ .symbol ')' ∧ t ≠ .symbol ',') (commas : Bool) :
    Enclosed commas ts := by
  induction ts with
  | nil => exact .nil commas
  | cons t ts ih =>
      rw [List.forall_mem_cons] at h
      obtain ⟨⟨hopen, hclose, hcomma⟩, hts⟩ := h
      have hfirst : Enclosed commas [t] := .token hopen hclose fun ht => absurd ht hcomma
      exact hfirst.append (ih hts)

theorem intercalate {tss : List (List Token)} (h : ∀ ts ∈ tss, Enclosed true ts) :
    Enclosed true ([Token.symbol ','].intercalate tss) := by
  have hcomma : Enclosed true [Token.symbol ','] := .token (by decide) (by decide) fun _ => rfl
  induction tss with
  | nil => exact .nil true
  | cons ts tss ih =>
      rw [List.forall_mem_cons] at h
      cases tss with
      | nil => simpa using h.1
      | cons us tss =>
          rw [List.intercalate_cons_cons]
          exact .append (.append h.1 hcomma) (ih h.2)

end Enclosed

/-- The definitions of a column list are its parts. -/
theorem flatMap_partsFrom_list {tss : List (List Token)} (h : ∀ ts ∈ tss, Enclosed false ts) :
    (partsFrom 1 [] ([Token.symbol ','].intercalate tss ++ [.symbol ')'])).flatMap partKeys =
      tss.flatMap partKeys := by
  have hclosed (current : List Token) :
      partsFrom 1 current [.symbol ')'] = [current, []] := by
    simp [partsFrom]
  induction tss with
  | nil => rfl
  | cons ts tss ih =>
      rw [List.forall_mem_cons] at h
      cases tss with
      | nil =>
          rw [List.intercalate_singleton, partsFrom_enclosed h.1 1 [] _ le_rfl, hclosed]
          simp [partKeys, keyCount]
      | cons us tss =>
          have hcut (rest : List Token) :
              partsFrom 1 ts (.symbol ',' :: rest) = ts :: partsFrom 1 [] rest := by
            simp [partsFrom]
          rw [List.intercalate_cons_cons, List.append_assoc, List.append_assoc,
            partsFrom_enclosed h.1 1 [] _ le_rfl, List.nil_append, List.singleton_append, hcut,
            List.flatMap_cons, ih h.2]
          rfl

theorem partsFrom_header {header : List Token} (h : .symbol '(' ∉ header)
    (current rest : List Token) :
    partsFrom 0 current (header ++ .symbol '(' :: rest) =
      (current ++ header) :: partsFrom 1 [] rest := by
  induction header generalizing current with
  | nil => simp [partsFrom]
  | cons t header ih =>
      rw [List.mem_cons, not_or] at h
      have hopen : t ≠ .symbol '(' := fun ht => h.1 ht.symm
      have hnext := ih h.2 (current ++ [t])
      rw [List.append_assoc, List.singleton_append] at hnext
      rw [List.cons_append, partsFrom, if_neg hopen]
      by_cases hclose : t = .symbol ')'
      · simpa [hclose] using hnext
      · simpa [hclose] using hnext

theorem keyCount_append {ts : List Token} (h : .word "PRIMARY".toList ∉ ts) (us : List Token) :
    keyCount (ts ++ us) = keyCount us := by
  induction ts with
  | nil => rfl
  | cons t ts ih =>
      rw [List.mem_cons, not_or] at h
      have ht : t ≠ .word "PRIMARY".toList := fun heq => h.1 heq.symm
      rw [List.cons_append, keyCount, if_neg (fun hboth => ht hboth.1), ih h.2, Nat.zero_add]

theorem partKeys_eq_nil {ts : List Token} (h : .word "PRIMARY".toList ∉ ts) : partKeys ts = [] := by
  have hcount := keyCount_append h []
  rw [List.append_nil] at hcount
  rw [partKeys, hcount]
  rfl

/-- A part of a definition after the name of the column, with the number of keys that it
declares. -/
structure Adds (s : Text) (ts : List Token) (n : Nat) : Prop where
  trails : Trails s ts
  enclosed : Enclosed false ts
  keyCount_append : ∀ us, keyCount (ts ++ us) = n + keyCount us

namespace Adds

theorem append {s t : Text} {ts us : List Token} {n m : Nat} (hs : Adds s ts n)
    (ht : Adds t us m) : Adds (s ++ t) (ts ++ us) (n + m) := by
  refine ⟨hs.trails.append ht.trails, hs.enclosed.append ht.enclosed, fun ws => ?_⟩
  rw [List.append_assoc, hs.keyCount_append, ht.keyCount_append, Nat.add_assoc]

theorem of_not_mem {s : Text} {ts : List Token} (hs : Trails s ts) (henclosed : Enclosed false ts)
    (h : .word "PRIMARY".toList ∉ ts) : Adds s ts 0 :=
  ⟨hs, henclosed, fun us => by rw [LiteSql.keyCount_append h, Nat.zero_add]⟩

theorem nil : Adds [] [] 0 :=
  of_not_mem .nil (.nil false) (by simp)

/-- A text without parentheses and commas. -/
theorem of_scans {s : Text} {ts : List Token} (hs : Scans s ts)
    (h : ∀ t ∈ ts, t ∉ [.symbol '(', .symbol ')', .symbol ',', .word "PRIMARY".toList]) :
    Adds (' ' :: s) ts 0 := by
  refine of_not_mem (.blank hs) (.of_forall (fun t ht => ?_) false) fun hmem => h _ hmem (by decide)
  refine ⟨?_, ?_, ?_⟩
  all_goals
    rintro rfl
    exact h _ ht (by decide)

theorem primaryKey : ∃ ts, Adds " PRIMARY KEY".toList ts 1 := by
  have hscans : Scans "PRIMARY KEY".toList [.word "PRIMARY".toList, .word "KEY".toList] :=
    ⟨rfl, rfl⟩
  refine ⟨_, .blank hscans, .of_forall (by decide) false, fun us => ?_⟩
  simp [keyCount]

theorem primary_ne_digits (n : Nat) : Token.word "PRIMARY".toList ≠ .word (Text.digits n) := by
  intro heq
  have hdigits : ∀ c ∈ "PRIMARY".toList, c.isDigit := by
    rw [Token.word.inj heq]
    exact (IsDigits.digits n).2
  exact absurd (hdigits 'P' (by decide)) (by decide)

theorem decimal (precision scale : Nat) :
    Adds
      (' ' :: ("DECIMAL(".toList ++ Text.digits precision ++ ',' :: (Text.digits scale ++ [')'])))
      [.word "DECIMAL".toList, .symbol '(', .word (Text.digits precision), .symbol ',',
        .word (Text.digits scale), .symbol ')'] 0 := by
  have hscans : Scans ("DECIMAL".toList ++
      Text.parenthesized (Text.digits precision ++ ',' :: Text.digits scale)) _ :=
    (Trails.parenthesized ((Trails.comma (.digits scale)).after (.digits precision))).after
      (.word (by decide) (by decide))
  have hword : Enclosed false [Token.word "DECIMAL".toList] := .of_forall (by decide) false
  have hlist : Enclosed true ([Token.symbol ','].intercalate
      [[.word (Text.digits precision)], [.word (Text.digits scale)]]) :=
    .intercalate (by
      intro ts hts
      simp only [List.mem_cons, List.not_mem_nil, or_false] at hts
      rcases hts with rfl | rfl <;> exact .of_forall (by simp) true)
  have hnames : Token.word "PRIMARY".toList ∉ [.word "DECIMAL".toList, .symbol '(',
      .word (Text.digits precision), .symbol ',', .word (Text.digits scale), .symbol ')'] := by
    simp only [List.mem_cons, primary_ne_digits, List.not_mem_nil, false_or]
    decide
  have hadds := of_not_mem (.blank hscans) (hword.append (.group hlist)) hnames
  simpa [Text.parenthesized] using hadds

/-- The type of a column declares a key if it counts. -/
theorem columnType {type : ColumnType} (hcustom : ∀ name, type ≠ .custom name)
    {precision scale : Option UInt32} {s : Text} (hs : type.definition precision scale = .ok s) :
    ∃ ts, Adds (' ' :: s) ts (if type = .serial then 1 else 0) := by
  cases type with
  | custom name => exact absurd rfl (hcustom name)
  | array item => cases hs
  | serial =>
      cases hs
      have hscans : Scans "INTEGER PRIMARY KEY AUTOINCREMENT".toList
          [.word "INTEGER".toList, .word "PRIMARY".toList, .word "KEY".toList,
            .word "AUTOINCREMENT".toList] := ⟨rfl, rfl⟩
      refine ⟨_, .blank hscans, .of_forall (by decide) false, fun us => ?_⟩
      simp [keyCount]
  | decimal =>
      cases precision with
      | none =>
          cases hs
          exact ⟨_, .of_scans (.word (by decide) (by decide)) (by decide)⟩
      | some p =>
          cases hs
          exact ⟨_, decimal p.toNat ((scale.map UInt32.toNat).getD 0)⟩
  | _ =>
      cases hs
      exact ⟨_, .of_scans (.word (by decide) (by decide)) (by decide)⟩

theorem literal (v : Value) : ∃ ts, Adds (' ' :: v.literal) ts 0 := by
  obtain ⟨ts, hscans, hliteral⟩ := Scans.literal v
  refine ⟨ts, .of_scans hscans fun t ht hmem => ?_⟩
  have hnone : ([.symbol '(', .symbol ')', .symbol ',', .word "PRIMARY".toList] : List Token).all
      fun t => !t.isOfLiteral := by decide
  have hother := List.all_eq_true.mp hnone t hmem
  rw [hliteral t ht] at hother
  cases hother

theorem options {o : ColumnOptions} (h : ∀ sql, o.default? ≠ some (.raw sql)) :
    ∃ ts, Adds o.text ts 0 := by
  have hword : Adds " DEFAULT".toList [.word "DEFAULT".toList] 0 :=
    .of_scans (.word (by decide) (by decide)) (by decide)
  obtain ⟨us, hus⟩ :
      ∃ us, Adds (if o.nullable = some false then " NOT NULL".toList else []) us 0 := by
    split
    · have hscans : Scans "NOT NULL".toList [.word "NOT".toList, .word "NULL".toList] := ⟨rfl, rfl⟩
      exact ⟨_, .of_scans hscans (by decide)⟩
    · exact ⟨[], .nil⟩
  unfold ColumnOptions.text
  cases hdefault : o.default? with
  | none => exact ⟨us, hus⟩
  | some d =>
      cases d with
      | raw sql => exact absurd hdefault (h sql)
      | value v =>
          obtain ⟨ts, hts⟩ := literal v
          exact ⟨_, (hword.append hts).append hus⟩

theorem onDelete (action : OnDelete) : ∃ ts, Adds action.text ts 0 := by
  cases action with
  | nothing => exact ⟨[], .nil⟩
  | cascade =>
      have hscans : Scans "ON DELETE CASCADE".toList
          [.word "ON".toList, .word "DELETE".toList, .word "CASCADE".toList] := ⟨rfl, rfl⟩
      exact ⟨_, .of_scans hscans (by decide)⟩
  | setNull =>
      have hscans : Scans "ON DELETE SET NULL".toList
          [.word "ON".toList, .word "DELETE".toList, .word "SET".toList, .word "NULL".toList] :=
        ⟨rfl, rfl⟩
      exact ⟨_, .of_scans hscans (by decide)⟩

theorem quoteIdentifier (name : String) :
    Adds (' ' :: quoteIdentifier name) [.quoted .double name.toList] 0 :=
  .of_scans (.quoteIdentifier name) (by simp)

theorem quote (name : QualifiedName) : Adds (' ' :: name.quote) name.tokens 0 := by
  refine .of_scans (.quote name) ?_
  unfold QualifiedName.tokens
  split <;> simp

theorem reference (r : Reference) (table : Table) (column : String) :
    ∃ ts, Adds (r.text table column) ts 0 := by
  have hconstraint : Adds " CONSTRAINT".toList [.word "CONSTRAINT".toList] 0 :=
    .of_scans (.word (by decide) (by decide)) (by decide)
  have hreferences : Adds " REFERENCES".toList [.word "REFERENCES".toList] 0 :=
    .of_scans (.word (by decide) (by decide)) (by decide)
  have hname : Enclosed true [Token.quoted .double r.column.toList] := .of_forall (by simp) true
  have hcolumn : Adds (Text.parenthesized (LiteSql.quoteIdentifier r.column)) _ 0 :=
    .of_not_mem (.parenthesized (.quoteIdentifier r.column)) (.group hname) (by simp)
  obtain ⟨ts, haction⟩ := onDelete r.onDelete
  have hall := hconstraint.append ((quoteIdentifier (r.constraintName table column)).append
    (hreferences.append ((quote (r.target table)).append (hcolumn.append haction))))
  have htext : r.text table column = " CONSTRAINT".toList ++
      (' ' :: LiteSql.quoteIdentifier (r.constraintName table column) ++
        (" REFERENCES".toList ++ (' ' :: (r.target table).quote ++
          (Text.parenthesized (LiteSql.quoteIdentifier r.column) ++ r.onDelete.text)))) := by
    unfold Reference.text
    simp only [String.reduceToList, List.append_assoc, List.cons_append, List.nil_append]
  rw [htext]
  exact ⟨_, hall⟩

end Adds

theorem ColumnSpec.columnType_eq_serial_iff (spec : ColumnSpec) :
    spec.columnType = .serial ↔ spec.isSerial := by
  cases spec with
  | type t => cases t <;> simp [ColumnSpec.columnType, ColumnSpec.isSerial]
  | references r =>
      cases h : r.type <;> simp [ColumnSpec.columnType, ColumnSpec.isSerial, h]

/-- The tokens of a definition in the column list, with the keys that it declares. -/
structure Defines (s : Text) (ts : List Token) (keys : List (List Text)) : Prop where
  scans : Scans s ts
  enclosed : Enclosed false ts
  partKeys_eq : partKeys ts = keys

theorem Defines.column (name : String) {s : Text} {ts : List Token} {n : Nat} (hs : Adds s ts n) :
    Defines (quoteIdentifier name ++ s) (.quoted .double name.toList :: ts)
      (List.replicate n [name.toList]) := by
  have hname : Enclosed false [Token.quoted .double name.toList] := .of_forall (by simp) false
  have hcount : keyCount (.quoted .double name.toList :: ts) = n := by
    have hprimary : .word "PRIMARY".toList ∉ [Token.quoted .double name.toList] := by simp
    have hadds := hs.keyCount_append []
    rw [List.append_nil] at hadds
    exact (keyCount_append hprimary ts).trans hadds
  refine ⟨hs.trails.after (.quoteIdentifier name), hname.append hs.enclosed, ?_⟩
  rw [partKeys, hcount]
  rfl

/-- The constraint of the foreign key of a column, if it has one. -/
def ColumnSpec.foreignKeyText (table : Table) (name : String) : ColumnSpec → Text
  | .references r => r.text table name
  | .type _ => []

/-- The definition of a column is its name, its type, its options, the mark of a primary
key and its foreign key. -/
theorem columnDefinition_eq_ok {table : Table} {inlineKey : Bool} {name : String}
    {spec : ColumnSpec} {options : ColumnOptions} {s : Text}
    (h : columnDefinition table inlineKey name spec options = .ok s) :
    ∃ type, spec.columnType.definition options.precision options.scale = .ok type ∧
      s = quoteIdentifier name ++ (' ' :: type ++ options.text ++
        (if inlineKey && options.primaryKey && !spec.isSerial then " PRIMARY KEY".toList else []) ++
          spec.foreignKeyText table name) := by
  cases htype : spec.columnType.definition options.precision options.scale with
  | error e => simp [columnDefinition, htype, bind, Except.bind] at h
  | ok type =>
      simp only [columnDefinition, htype, bind, Except.bind] at h
      cases h
      cases spec with
      | references r => exact ⟨type, rfl, rfl⟩
      | type t => exact ⟨type, rfl, rfl⟩

theorem Adds.foreignKey (table : Table) (name : String) (spec : ColumnSpec) :
    ∃ ts, Adds (spec.foreignKeyText table name) ts 0 := by
  cases spec with
  | references r => exact Adds.reference r table name
  | type t => exact ⟨[], .nil⟩

theorem columnDefinition_defines {table : Table} {inlineKey : Bool} {name : String}
    {spec : ColumnSpec} {options : ColumnOptions}
    (hplain : (ColumnChange.add name spec options).IsPlain) {s : Text}
    (hs : columnDefinition table inlineKey name spec options = .ok s) :
    ∃ ts, Defines s ts
      (if spec.isSerial || inlineKey && options.primaryKey then [[name.toList]] else []) := by
  obtain ⟨hcustom, hraw⟩ := hplain
  obtain ⟨type, htype, rfl⟩ := columnDefinition_eq_ok hs
  obtain ⟨ts, hts⟩ := Adds.columnType hcustom htype
  obtain ⟨us, hus⟩ := Adds.options hraw
  obtain ⟨vs, hvs⟩ : ∃ vs, Adds (if inlineKey && options.primaryKey && !spec.isSerial then
      " PRIMARY KEY".toList else []) vs
      (if inlineKey && options.primaryKey && !spec.isSerial then 1 else 0) := by
    split
    · exact Adds.primaryKey
    · exact ⟨[], .nil⟩
  obtain ⟨ws, hws⟩ := Adds.foreignKey table name spec
  have hcount : (if spec.columnType = .serial then 1 else 0) + 0 +
      (if inlineKey && options.primaryKey && !spec.isSerial then 1 else 0) + 0 =
      if spec.isSerial || inlineKey && options.primaryKey then 1 else 0 := by
    simp only [spec.columnType_eq_serial_iff]
    cases spec.isSerial <;> cases inlineKey && options.primaryKey <;> rfl
  have hkeys :
      List.replicate (if spec.isSerial || inlineKey && options.primaryKey then 1 else 0)
        [name.toList] =
      if spec.isSerial || inlineKey && options.primaryKey then [[name.toList]] else [] := by
    split <;> rfl
  have hall := Defines.column name (((hts.append hus).append hvs).append hws)
  rw [hcount, hkeys] at hall
  exact ⟨_, hall⟩

/-- The columns that are marked in their own definition. -/
def markedColumns (inlineKey : Bool) : List ColumnChange → List String
  | [] => []
  | .add name spec options :: rest =>
    if spec.isSerial || inlineKey && options.primaryKey then name :: markedColumns inlineKey rest
    else markedColumns inlineKey rest
  | _ :: rest => markedColumns inlineKey rest

/-- The tokens of several definitions. -/
structure DefinesAll (ss : List Text) (tss : List (List Token)) (keys : List (List Text)) :
    Prop where
  scans : List.Forall₂ Scans ss tss
  enclosed : ∀ ts ∈ tss, Enclosed false ts
  partKeys_eq : tss.flatMap partKeys = keys

namespace DefinesAll

theorem nil : DefinesAll [] [] [] :=
  ⟨.nil, by simp, rfl⟩

theorem cons {s : Text} {ss : List Text} {ts : List Token} {tss : List (List Token)}
    {keys keys' : List (List Text)} (hs : Defines s ts keys) (hss : DefinesAll ss tss keys') :
    DefinesAll (s :: ss) (ts :: tss) (keys ++ keys') := by
  refine ⟨.cons hs.scans hss.scans, ?_, ?_⟩
  · rw [List.forall_mem_cons]
    exact ⟨hs.enclosed, hss.enclosed⟩
  · rw [List.flatMap_cons, hs.partKeys_eq, hss.partKeys_eq]

theorem append {ss ss' : List Text} {tss tss' : List (List Token)} {keys keys' : List (List Text)}
    (hss : DefinesAll ss tss keys) (hss' : DefinesAll ss' tss' keys') :
    DefinesAll (ss ++ ss') (tss ++ tss') (keys ++ keys') := by
  refine ⟨List.rel_append hss.scans hss'.scans, ?_, ?_⟩
  · rw [List.forall_mem_append]
    exact ⟨hss.enclosed, hss'.enclosed⟩
  · rw [List.flatMap_append, hss.partKeys_eq, hss'.partKeys_eq]

end DefinesAll

theorem columnDefinitions_add_eq_ok {table : Table} {inlineKey : Bool} {name : String}
    {spec : ColumnSpec} {options : ColumnOptions} {columns : List ColumnChange} {ss : List Text}
    (h : columnDefinitions table inlineKey (.add name spec options :: columns) = .ok ss) :
    ∃ s others, columnDefinition table inlineKey name spec options = .ok s ∧
      columnDefinitions table inlineKey columns = .ok others ∧ ss = s :: others := by
  cases hfirst : columnDefinition table inlineKey name spec options with
  | error e => simp [columnDefinitions, hfirst, bind, Except.bind] at h
  | ok s =>
      cases hrest : columnDefinitions table inlineKey columns with
      | error e => simp [columnDefinitions, hfirst, hrest, bind, Except.bind] at h
      | ok others =>
          simp only [columnDefinitions, hfirst, hrest, bind, Except.bind] at h
          cases h
          exact ⟨s, others, rfl, rfl, rfl⟩

theorem columnDefinitions_defines {table : Table} {inlineKey : Bool} {columns : List ColumnChange}
    (hplain : ∀ column ∈ columns, column.IsPlain) {ss : List Text}
    (hss : columnDefinitions table inlineKey columns = .ok ss) :
    ∃ tss, DefinesAll ss tss ((markedColumns inlineKey columns).map fun name => [name.toList]) := by
  induction columns generalizing ss with
  | nil =>
      cases hss
      exact ⟨[], .nil⟩
  | cons column columns ih =>
      rw [List.forall_mem_cons] at hplain
      cases column with
      | modify name spec options => exact ih hplain.2 hss
      | remove name => exact ih hplain.2 hss
      | rename old new => exact ih hplain.2 hss
      | add name spec options =>
          obtain ⟨s, others, hfirst, hrest, rfl⟩ := columnDefinitions_add_eq_ok hss
          obtain ⟨ts, hts⟩ := columnDefinition_defines hplain.1 hfirst
          obtain ⟨tss, htss⟩ := ih hplain.2 hrest
          refine ⟨ts :: tss, ?_⟩
          have hall := DefinesAll.cons hts htss
          rw [markedColumns]
          split at hall <;> simpa [*] using hall

/-- The tokens of a list of names. -/
def nameTokens (names : List String) : List Token :=
  [Token.symbol ','].intercalate (names.map fun name => [.quoted .double name.toList])

theorem nameTokens_cons_cons (first second : String) (rest : List String) :
    nameTokens (first :: second :: rest) =
      .quoted .double first.toList :: .symbol ',' :: nameTokens (second :: rest) :=
  rfl

theorem quotedNames_nameTokens (names : List String) (us : List Token) :
    quotedNames (nameTokens names ++ us) = names.map String.toList ++ quotedNames us := by
  induction names with
  | nil => rfl
  | cons name names ih =>
      cases names with
      | nil => rfl
      | cons other names =>
          rw [nameTokens_cons_cons]
          exact congrArg (name.toList :: ·) ih

theorem primary_not_mem_nameTokens (names : List String) :
    .word "PRIMARY".toList ∉ nameTokens names := by
  induction names with
  | nil => exact List.not_mem_nil
  | cons name names ih =>
      cases names with
      | nil => simp [nameTokens]
      | cons other names =>
          rw [nameTokens_cons_cons]
          simpa using ih

theorem Scans.quoteIdentifiers (names : List String) :
    Scans (quoteIdentifiers ", " names) (nameTokens names) := by
  refine .joined ?_
  induction names with
  | nil => exact .nil
  | cons name names ih => exact .cons (.quoteIdentifier name) ih

theorem keyConstraint_defines (names : List String) :
    ∃ tss, DefinesAll (keyConstraint names) tss
      (if 2 ≤ names.length then [names.map String.toList] else []) := by
  match names with
  | [] => exact ⟨[], .nil⟩
  | [name] => exact ⟨[], .nil⟩
  | first :: second :: rest =>
      have hwords : Scans "PRIMARY KEY".toList [.word "PRIMARY".toList, .word "KEY".toList] :=
        ⟨rfl, rfl⟩
      have hgroup := (Scans.quoteIdentifiers (first :: second :: rest)).parenthesized
      have hnames := primary_not_mem_nameTokens (first :: second :: rest)
      have hquoted := quotedNames_nameTokens (first :: second :: rest) [.symbol ')']
      have hlist : Enclosed true (nameTokens (first :: second :: rest)) := by
        refine .intercalate fun ts hts => ?_
        obtain ⟨name, -, rfl⟩ := List.mem_map.mp hts
        exact .of_forall (by simp) true
      generalize nameTokens (first :: second :: rest) = ts at *
      have hcount : keyCount (.word "PRIMARY".toList :: .word "KEY".toList ::
          .symbol '(' :: (ts ++ [.symbol ')'])) = 1 := by
        have hkey : .word "PRIMARY".toList ∉ [Token.word "KEY".toList, .symbol '('] := by decide
        have hafter := keyCount_append hkey (ts ++ [.symbol ')'])
        rw [keyCount_append hnames] at hafter
        rw [keyCount, if_pos ⟨rfl, rfl⟩]
        exact congrArg (1 + ·) hafter
      have hdefines : Defines ("PRIMARY KEY ".toList ++
          Text.parenthesized (quoteIdentifiers ", " (first :: second :: rest)))
          (.word "PRIMARY".toList :: .word "KEY".toList :: .symbol '(' :: (ts ++ [.symbol ')']))
          [(first :: second :: rest).map String.toList] := by
        refine ⟨(Trails.blank hgroup).after hwords, ?_, ?_⟩
        · have hfront : Enclosed false [Token.word "PRIMARY".toList, .word "KEY".toList] :=
            .of_forall (by decide) false
          exact hfront.append (.group hlist)
        · rw [partKeys, hcount]
          exact congrArg (fun names => [names]) (hquoted.trans (List.append_nil _))
      have hall := DefinesAll.cons hdefines .nil
      exact ⟨_, hall⟩

theorem QualifiedName.word_not_mem_tokens (name : QualifiedName) (s : Text) :
    .word s ∉ name.tokens := by
  unfold tokens
  split <;> simp

theorem QualifiedName.symbol_not_mem_tokens (name : QualifiedName) {c : Char} (hc : c ≠ '.') :
    .symbol c ∉ name.tokens := by
  unfold tokens
  split <;> simp [hc]

theorem createTable_eq_ok {table : Table} {columns : List ColumnChange} {ifNotExists : Bool}
    {sql : Text} (h : createTable table columns ifNotExists = .ok sql)
    (hoptions : table.options = none) :
    (columns.any ColumnChange.isSerial = false ∨ primaryKeyColumns columns = []) ∧
      ∃ definitions,
        columnDefinitions table ((primaryKeyColumns columns).length == 1) columns =
          .ok definitions ∧
        sql = "CREATE TABLE ".toList ++ (if ifNotExists then "IF NOT EXISTS ".toList else []) ++
          table.name.quote ++ ' ' :: Text.parenthesized
            (Text.joined ", " (definitions ++ keyConstraint (primaryKeyColumns columns))) := by
  unfold createTable at h
  cases hempty : columns.isEmpty with
  | true => simp [hempty, bind, Except.bind] at h
  | false =>
      cases hrefusal : columns.findSome? ColumnChange.refusal? with
      | some reason => simp [hempty, hrefusal] at h
      | none =>
          cases hkeys :
              columns.any ColumnChange.isSerial && !(primaryKeyColumns columns).isEmpty with
          | true => simp [hempty, hrefusal, hkeys, bind, Except.bind] at h
          | false =>
              cases hdefinitions :
                  columnDefinitions table ((primaryKeyColumns columns).length == 1) columns with
              | error e => simp [hempty, hrefusal, hkeys, hdefinitions, bind, Except.bind] at h
              | ok definitions =>
                  simp only [hempty, hrefusal, hkeys, hdefinitions, hoptions, List.append_nil, bind,
                    Except.bind, pure, Except.pure] at h
                  cases h
                  rw [Bool.and_eq_false_iff, Bool.not_eq_false', List.isEmpty_iff] at hkeys
                  exact ⟨hkeys, definitions, rfl, rfl⟩

/-- What is read off the text of a new table: the marked columns, and the constraint. -/
theorem declaredKeys_createTable {table : Table} {columns : List ColumnChange} {ifNotExists : Bool}
    {sql : Text} (h : createTable table columns ifNotExists = .ok sql)
    (hoptions : table.options = none) (hplain : ∀ column ∈ columns, column.IsPlain) :
    declaredKeys sql =
      (markedColumns ((primaryKeyColumns columns).length == 1) columns).map
          (fun name => [name.toList]) ++
        if 2 ≤ (primaryKeyColumns columns).length then
          [(primaryKeyColumns columns).map String.toList]
        else [] := by
  obtain ⟨-, definitions, hdefinitions, rfl⟩ := createTable_eq_ok h hoptions
  obtain ⟨tss, htss⟩ := columnDefinitions_defines hplain hdefinitions
  obtain ⟨uss, huss⟩ := keyConstraint_defines (primaryKeyColumns columns)
  have hall := htss.append huss
  have hlist := Trails.blank (Scans.joined hall.scans).parenthesized
  obtain ⟨words, hwords, hopen, hprimary⟩ : ∃ words, Scans ("CREATE TABLE".toList ++
      if ifNotExists then " IF NOT EXISTS".toList else []) words ∧
      .symbol '(' ∉ words ∧ .word "PRIMARY".toList ∉ words := by
    cases ifNotExists with
    | false => exact ⟨_, ⟨rfl, rfl⟩, by decide, by decide⟩
    | true => exact ⟨_, ⟨rfl, rfl⟩, by decide, by decide⟩
  have hname := Trails.blank (Scans.quote table.name)
  have htext : "CREATE TABLE ".toList ++ (if ifNotExists then "IF NOT EXISTS ".toList else []) ++
      table.name.quote = "CREATE TABLE".toList ++
        (if ifNotExists then " IF NOT EXISTS".toList else []) ++ ' ' :: table.name.quote := by
    cases ifNotExists <;> simp
  have hopen' : .symbol '(' ∉ words ++ table.name.tokens := by
    rw [List.mem_append, not_or]
    exact ⟨hopen, table.name.symbol_not_mem_tokens (by decide)⟩
  have hprimary' : .word "PRIMARY".toList ∉ words ++ table.name.tokens := by
    rw [List.mem_append, not_or]
    exact ⟨hprimary, table.name.word_not_mem_tokens _⟩
  rw [htext, declaredKeys, (hlist.after (hname.after hwords)).tokens_eq, partsFrom_header hopen',
    List.flatMap_cons, List.nil_append, partKeys_eq_nil hprimary', List.nil_append,
    flatMap_partsFrom_list hall.enclosed, hall.partKeys_eq]

theorem markedColumns_true (columns : List ColumnChange) :
    markedColumns true columns = keyColumns columns := by
  induction columns with
  | nil => rfl
  | cons column columns ih => cases column <;> simp [markedColumns, keyColumns, ih]

theorem markedColumns_false {columns : List ColumnChange} (h : primaryKeyColumns columns = []) :
    markedColumns false columns = keyColumns columns := by
  induction columns with
  | nil => rfl
  | cons column columns ih =>
      cases column with
      | add name spec options =>
          cases hserial : spec.isSerial <;> cases hkey : options.primaryKey <;>
            simp_all [markedColumns, keyColumns, primaryKeyColumns]
      | modify name spec options => exact ih h
      | remove name => exact ih h
      | rename old new => exact ih h

theorem length_markedColumns_false (columns : List ColumnChange) :
    (markedColumns false columns).length = columns.countP ColumnChange.isSerial := by
  induction columns with
  | nil => rfl
  | cons column columns ih =>
      cases column with
      | add name spec options =>
          cases hserial : spec.isSerial <;> simp [markedColumns, ColumnChange.isSerial, hserial, ih]
      | modify name spec options => simp [markedColumns, ColumnChange.isSerial, ih]
      | remove name => simp [markedColumns, ColumnChange.isSerial, ih]
      | rename old new => simp [markedColumns, ColumnChange.isSerial, ih]

theorem keyColumns_eq_primaryKeyColumns {columns : List ColumnChange}
    (h : columns.any ColumnChange.isSerial = false) :
    keyColumns columns = primaryKeyColumns columns := by
  induction columns with
  | nil => rfl
  | cons column columns ih =>
      rw [List.any_cons, Bool.or_eq_false_iff] at h
      cases column with
      | add name spec options =>
          have hserial : spec.isSerial = false := h.1
          simp [keyColumns, primaryKeyColumns, hserial, ih h.2]
      | modify name spec options => exact ih h.2
      | remove name => exact ih h.2
      | rename old new => exact ih h.2

theorem map_singleton_eq_singleKey_iff (names : List String) :
    (names.map fun name => [name.toList]) = singleKey names ↔ names.length ≤ 1 := by
  match names with
  | [] => simp [singleKey]
  | [name] => simp [singleKey]
  | first :: second :: rest => simp [singleKey]

/-- A table without raw SQL declares one primary key, of the columns that are to be it, if
and only if at most one of its columns is counting. Otherwise every counting column is
a primary key of its own. -/
theorem createTable_declares_one_key_iff {table : Table} {columns : List ColumnChange}
    {ifNotExists : Bool} {c : Compiled} (hoptions : table.options = none)
    (hplain : ∀ column ∈ columns, column.IsPlain)
    (hc : (SchemaChange.createTable table columns ifNotExists).compile = .ok c) :
    (declaredKeys c.sql.toList = singleKey (keyColumns columns) ↔
      columns.countP ColumnChange.isSerial ≤ 1) ∧
    (1 < columns.countP ColumnChange.isSerial →
      declaredKeys c.sql.toList = (keyColumns columns).map fun name => [name.toList]) := by
  obtain ⟨sql, hsql, rfl⟩ : ∃ sql, createTable table columns ifNotExists = .ok sql ∧
      c = ⟨String.ofList sql, []⟩ := by
    cases hsql : createTable table columns ifNotExists with
    | error e => simp [SchemaChange.compile, SchemaChange.text, hsql, bind, Except.bind] at hc
    | ok sql =>
        simp only [SchemaChange.compile, SchemaChange.text, hsql, bind, Except.bind] at hc
        cases hc
        exact ⟨sql, rfl, rfl⟩
  rw [String.toList_ofList, declaredKeys_createTable hsql hoptions hplain]
  have hcount := length_markedColumns_false columns
  rcases (createTable_eq_ok hsql hoptions).1 with hserial | hkeys
  · -- Without counting columns the options alone make the key.
    have hzero : columns.countP ColumnChange.isSerial = 0 := by
      rw [List.countP_eq_zero]
      simpa using hserial
    rw [hzero] at hcount ⊢
    have hcolumns := keyColumns_eq_primaryKeyColumns hserial
    have hnone := List.eq_nil_of_length_eq_zero hcount
    refine ⟨iff_of_true ?_ (by omega), by omega⟩
    rw [hcolumns]
    match hcases : primaryKeyColumns columns with
    | [] => simp [hnone, singleKey]
    | [name] => simp [markedColumns_true, hcolumns, hcases, singleKey]
    | first :: second :: rest => simp [hnone, singleKey]
  · have hmarked := markedColumns_false hkeys
    rw [hmarked] at hcount
    have hdeclared : ((markedColumns ((primaryKeyColumns columns).length == 1) columns).map
          (fun name => [name.toList]) ++
        if 2 ≤ (primaryKeyColumns columns).length then
          [(primaryKeyColumns columns).map String.toList]
        else []) = (keyColumns columns).map fun name => [name.toList] := by
      simp [hkeys, hmarked]
    rw [hdeclared, map_singleton_eq_singleKey_iff, hcount]
    exact ⟨Iff.rfl, fun _ => rfl⟩

theorem createTable_declares_one_key_in_sample :
    let columns : List ColumnChange :=
      [.add "a" (.type .decimal) (ColumnOptions.asPrimaryKey (.withPrecision {} 6 2)),
        .add "PRIMARY KEY" (.references (.toTable "m")) (.asPrimaryKey {}),
        .add "b" (.type .text) (.withDefault {} (.string ", PRIMARY KEY"))]
    ∃ c, (SchemaChange.createTable (.ofName "t") columns true).compile = .ok c ∧
      declaredKeys c.sql.toList = [["a".toList, "PRIMARY KEY".toList]] := by
  intro columns
  have hplain : ∀ column ∈ columns, column.IsPlain := by
    simp [columns, ColumnChange.IsPlain, ColumnSpec.columnType, ColumnOptions.asPrimaryKey,
      ColumnOptions.withPrecision, ColumnOptions.withDefault, Reference.toTable]
  obtain ⟨c, hc⟩ : ∃ c, (SchemaChange.createTable (.ofName "t") columns true).compile = .ok c :=
    ⟨_, rfl⟩
  have hone := (createTable_declares_one_key_iff rfl hplain hc).1.mpr (by decide)
  exact ⟨c, hc, hone⟩

/-- Two counting columns are two primary keys. -/
theorem two_serial_columns_declare_two_keys :
    let columns : List ColumnChange := [.add "a" (.type .serial) {}, .add "b" (.type .serial) {}]
    ∃ c, (SchemaChange.createTable (.ofName "t") columns false).compile = .ok c ∧
      declaredKeys c.sql.toList = [["a".toList], ["b".toList]] ∧
      declaredKeys c.sql.toList ≠ singleKey (keyColumns columns) := by
  intro columns
  have hplain : ∀ column ∈ columns, column.IsPlain := by
    simp [columns, ColumnChange.IsPlain, ColumnSpec.columnType]
  obtain ⟨sql, hsql⟩ : ∃ sql, createTable (.ofName "t") columns false = .ok sql := ⟨_, rfl⟩
  have hkeys := declaredKeys_createTable hsql rfl hplain
  have htwo : declaredKeys sql = [["a".toList], ["b".toList]] := hkeys
  refine ⟨⟨String.ofList sql, []⟩, ?_, ?_⟩
  · simp [SchemaChange.compile, SchemaChange.text, hsql, bind, Except.bind, pure, Except.pure]
  · rw [String.toList_ofList, htwo]
    exact ⟨rfl, by decide⟩

end LiteSql
