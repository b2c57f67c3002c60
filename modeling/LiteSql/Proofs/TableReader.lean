import LiteSql.Proofs.ChangeShape
import LiteSql.Proofs.PrimaryKey
import LiteSql.Proofs.RowReader

/-!
# New tables are read back

A `CREATE TABLE` is read from the left. The parts of a column definition after its type
may be left out, and each starts with a blank and a letter of its own: `DEFAULT`,
`NOT NULL`, `PRIMARY KEY`, `CONSTRAINT`. So at every blank one letter decides which part
follows, and a column ends at a comma or a parenthesis. The only words that need more
than a letter are `PRIMARY KEY AUTOINCREMENT`, which are part of a type.

A primary key is read either from the columns that are marked or from the constraint at
the end. Reading gives back the table as it was declared, so a text declares one table
only.
-/

namespace LiteSql

/-- A foreign key with nothing left open. -/
structure ForeignKey where
  constraint : String
  target : QualifiedName
  column : String
  onDelete : OnDelete
deriving DecidableEq

/-- What the definition of a column declares, apart from a primary key. -/
structure DeclaredColumn where
  name : String
  type : Text
  default? : Option Text
  notNull : Bool
  foreignKey? : Option ForeignKey
deriving DecidableEq

/-- What the text of a new table declares. -/
structure DeclaredTable where
  ifNotExists : Bool
  name : QualifiedName
  columns : List DeclaredColumn
  /-- The columns of the primary key, other than counting ones. -/
  keys : List String
deriving DecidableEq

/-- The default of a column, without its keyword. -/
def ColumnDefault.expression : ColumnDefault → Text
  | .value v => v.literal
  | .raw sql => Text.parenthesized sql.toList

def ColumnSpec.foreignKey? (table : Table) (name : String) : ColumnSpec → Option ForeignKey
  | .references r => some ⟨r.constraintName table name, r.target table, r.column, r.onDelete⟩
  | .type _ => none

/-- What a directive declares as a column of a table, if it adds one that has a type. -/
def ColumnChange.declared? (table : Table) : ColumnChange → Option DeclaredColumn
  | .add name spec options =>
    (spec.columnType.definition options.precision options.scale).toOption.map fun type =>
      { name, type
        default? := options.default?.map ColumnDefault.expression
        notNull := options.nullable = some false
        foreignKey? := spec.foreignKey? table name }
  | _ => none

namespace TableReader

open Reader (after?)

/-- Whether a word is at the front of a text, and what follows it. -/
def flag (word : Text) (s : Text) : Bool × Text :=
  match after? word s with
  | some rest => (true, rest)
  | none => (false, s)

/-- What the type of a counting column has after its first word. -/
def counting : Text :=
  " PRIMARY KEY AUTOINCREMENT".toList

/-- A precision and a scale in parentheses, or nothing. -/
def sizes? : Text → Option (Text × Text)
  | '(' :: s => do
    let (precision, s) ← Reader.digits? s
    let s ← after? [','] s
    let (scale, s) ← Reader.digits? s
    let rest ← after? [')'] s
    return ('(' :: (precision ++ ',' :: (scale ++ [')'])), rest)
  | s => some ([], s)

def type? (s : Text) : Option (Text × Text) :=
  match after? counting (s.dropWhile Char.isUpper) with
  | some rest => some (s.takeWhile Char.isUpper ++ counting, rest)
  | none => do
    let (sizes, rest) ← sizes? (s.dropWhile Char.isUpper)
    return (s.takeWhile Char.isUpper ++ sizes, rest)

/-- A term that is a literal. -/
def literal? (s : Text) : Option (Text × Text) :=
  match Reader.term? (fun _ => none) (Reader.nested? (fun _ => none) s.length) s with
  | some (.literal text, rest) => some (text, rest)
  | _ => none

def default? (s : Text) : Option (Option Text × Text) :=
  match after? " DEFAULT ".toList s with
  | some s => do
    let (text, rest) ← literal? s
    return (some text, rest)
  | none => some (none, s)

def onDelete (s : Text) : OnDelete × Text :=
  match after? OnDelete.cascade.text s with
  | some rest => (.cascade, rest)
  | none =>
    match after? OnDelete.setNull.text s with
    | some rest => (.setNull, rest)
    | none => (.nothing, s)

def foreignKey? (s : Text) : Option (Option ForeignKey × Text) :=
  match after? " CONSTRAINT ".toList s with
  | some s => do
    let (constraint, s) ← RowReader.name? s
    let s ← after? " REFERENCES ".toList s
    let (target, s) ← RowReader.table? s
    let s ← after? ['('] s
    let (column, s) ← RowReader.name? s
    let s ← after? [')'] s
    let (action, rest) := onDelete s
    return (some ⟨constraint, target, column, action⟩, rest)
  | none => some (none, s)

/-- A column, and whether it is marked as the primary key. -/
def column? (s : Text) : Option ((DeclaredColumn × Bool) × Text) := do
  let (name, s) ← RowReader.name? s
  let s ← after? [' '] s
  let (type, s) ← type? s
  let (default?, s) ← default? s
  let (notNull, s) := flag " NOT NULL".toList s
  let (marked, s) := flag " PRIMARY KEY".toList s
  let (foreignKey?, rest) ← foreignKey? s
  return ((⟨name, type, default?, notNull, foreignKey?⟩, marked), rest)

/-- The columns of the constraint after the definitions, if there is one. -/
def constraint? (s : Text) : Option (List String × Text) :=
  match after? ", PRIMARY KEY (".toList s with
  | some s => do
    let (names, s) ← RowReader.items? ", " RowReader.name? s
    let rest ← after? [')'] s
    return (names, rest)
  | none => some ([], s)

def markedNames (columns : List (DeclaredColumn × Bool)) : List String :=
  (columns.filter Prod.snd).map fun column => column.1.name

/-- The table that a whole text declares. -/
def whole? (s : Text) : Option DeclaredTable := do
  let s ← after? "CREATE TABLE ".toList s
  let (ifNotExists, s) := flag "IF NOT EXISTS ".toList s
  let (name, s) ← RowReader.table? s
  let s ← after? " (".toList s
  let (columns, s) ← RowReader.items? ", " column? s
  let (keys, rest) ← constraint? s
  if rest = [')'] then
    return ⟨ifNotExists, name, columns.map Prod.fst, markedNames columns ++ keys⟩
  else none

/-- What follows a column in the list of columns. -/
inductive EndsColumn : Text → Prop
  | close (s : Text) : EndsColumn (')' :: s)
  | comma (s : Text) : EndsColumn (',' :: s)

/-- A text that starts with a blank and the letter `c`. -/
def Leads (c : Char) (w : Text) : Prop :=
  w.take 2 = [' ', c]

theorem Leads.exists_eq {c : Char} {w : Text} (hw : Leads c w) : ∃ t, w = ' ' :: c :: t :=
  ⟨w.drop 2, by
    have hsplit := List.take_append_drop 2 w
    rw [hw] at hsplit
    exact hsplit.symm⟩

theorem leads_default : Leads 'D' " DEFAULT ".toList :=
  rfl

theorem leads_notNull : Leads 'N' " NOT NULL".toList :=
  rfl

theorem leads_primaryKey : Leads 'P' " PRIMARY KEY".toList :=
  rfl

theorem leads_counting : Leads 'P' counting :=
  rfl

theorem leads_constraint : Leads 'C' " CONSTRAINT ".toList :=
  rfl

/-- A part that is left out, or that starts with a blank and the letter `c`. -/
def IsPart (c : Char) (s : Text) : Prop :=
  s = [] ∨ Leads c s

theorem isPart_ite {c : Char} {w : Text} (hw : Leads c w) (present : Bool) :
    IsPart c (if present then w else []) := by
  cases present with
  | true => exact .inr hw
  | false => exact .inl rfl

/-- The end of a column, or a part that starts with one of the letters. -/
inductive Opens (letters : List Char) : Text → Prop
  | ends {s : Text} (hs : EndsColumn s) : Opens letters s
  | part {c : Char} (hc : c ∈ letters) (s : Text) : Opens letters (' ' :: c :: s)

namespace Opens

variable {letters : List Char} {s : Text}

theorem append {c : Char} {part : Text} (hpart : IsPart c part) (hs : Opens letters s) :
    Opens (c :: letters) (part ++ s) := by
  rcases hpart with rfl | hpart
  · cases hs with
    | ends hs => exact .ends hs
    | part hd t => exact .part (List.mem_cons_of_mem c hd) t
  · obtain ⟨t, rfl⟩ := hpart.exists_eq
    exact .part List.mem_cons_self (t ++ s)

theorem endsTerm (hs : Opens letters s) : Reader.EndsTerm s := by
  cases hs with
  | part hc s => exact .blank _
  | ends hs =>
      cases hs with
      | close s => exact .close s
      | comma s => exact .comma s

/-- A part with another letter is not there. -/
theorem after?_eq_none (hs : Opens letters s) {c : Char} (hc : c ∉ letters) {w : Text}
    (hw : Leads c w) : after? w s = none := by
  obtain ⟨w, rfl⟩ := hw.exists_eq
  cases hs with
  | part hd s =>
      have hne : c ≠ _ := fun heq => hc (heq ▸ hd)
      simp [after?, hne]
  | ends hs =>
      cases hs with
      | close s => rfl
      | comma s => rfl

end Opens

theorem after?_append_append (w v s : Text) : after? (w ++ v) (w ++ s) = after? v s := by
  induction w with
  | nil => rfl
  | cons c w ih => simp [after?, ih]

theorem after?_part {c d : Char} {part s : Text} (hpart : IsPart d part) (hne : c ≠ d) {w : Text}
    (hw : Leads c w) (hs : after? w s = none) : after? w (part ++ s) = none := by
  rcases hpart with rfl | hpart
  · exact hs
  · obtain ⟨w, rfl⟩ := hw.exists_eq
    obtain ⟨t, rfl⟩ := hpart.exists_eq
    simp [after?, hne]

theorem flag_eq (word : Text) (present : Bool) {s : Text} (hs : after? word s = none) :
    flag word ((if present then word else []) ++ s) = (present, s) := by
  cases present with
  | true => simp [flag]
  | false => simp [flag, hs]

section Types

variable {rest : Text}

theorem type?_word {word : Text} (hword : ∀ c ∈ word, c.isUpper) (hrest : Reader.EndsTerm rest)
    (hcounting : after? counting rest = none) : type? (word ++ rest) = some (word, rest) := by
  obtain ⟨htake, hdrop⟩ := Reader.run_append hword (hrest.forall_head rfl rfl rfl)
  have hsizes : sizes? rest = some ([], rest) := by
    cases hrest <;> rfl
  rw [type?, htake, hdrop, hcounting]
  simp only [hsizes, Option.bind_eq_bind, Option.bind_some, List.append_nil, Option.pure_def]

theorem type?_serial (rest : Text) :
    type? ("INTEGER PRIMARY KEY AUTOINCREMENT".toList ++ rest) =
      some ("INTEGER PRIMARY KEY AUTOINCREMENT".toList, rest) := by
  have hword : ∀ c ∈ "INTEGER".toList, c.isUpper := List.all_eq_true.mp rfl
  have hend : ∀ c ∈ (counting ++ rest).head?, c.isUpper = false := Reader.forall_head_cons rfl _
  obtain ⟨htake, hdrop⟩ := Reader.run_append hword hend
  have hshape : "INTEGER PRIMARY KEY AUTOINCREMENT".toList = "INTEGER".toList ++ counting := rfl
  rw [hshape, List.append_assoc, type?, htake, hdrop, Reader.after?_append]

theorem sizes?_eq (precision scale : Nat) (rest : Text) :
    sizes? ('(' :: (Text.digits precision ++ ',' :: (Text.digits scale ++ ')' :: rest))) =
      some ('(' :: (Text.digits precision ++ ',' :: (Text.digits scale ++ [')'])), rest) := by
  have hprecision := Reader.digits?_append (.digits precision)
    (Reader.forall_head_cons rfl (Text.digits scale ++ ')' :: rest) :
      ∀ c ∈ (',' :: (Text.digits scale ++ ')' :: rest)).head?, c.isDigit = false)
  have hscale := Reader.digits?_append (.digits scale)
    (Reader.forall_head_cons rfl rest : ∀ c ∈ (')' :: rest).head?, c.isDigit = false)
  simp [sizes?, hprecision, hscale, after?]

theorem type?_decimal (precision scale : Nat) (rest : Text) :
    type? ("DECIMAL(".toList ++ Text.digits precision ++ ',' ::
        (Text.digits scale ++ [')']) ++ rest) =
      some ("DECIMAL(".toList ++ Text.digits precision ++ ',' ::
        (Text.digits scale ++ [')']), rest) := by
  have hword : ∀ c ∈ "DECIMAL".toList, c.isUpper := List.all_eq_true.mp rfl
  have hend (s : Text) : ∀ c ∈ ('(' :: s).head?, c.isUpper = false :=
    Reader.forall_head_cons rfl s
  have hshape (s : Text) : "DECIMAL(".toList ++ s = "DECIMAL".toList ++ '(' :: s := rfl
  obtain ⟨htake, hdrop⟩ := Reader.run_append hword
    (hend (Text.digits precision ++ ',' :: (Text.digits scale ++ ')' :: rest)))
  simp only [List.append_assoc, List.cons_append, List.nil_append, hshape]
  rw [type?, htake, hdrop]
  have hcounting (s : Text) : after? counting ('(' :: s) = none := rfl
  simp only [hcounting, sizes?_eq, Option.bind_eq_bind, Option.bind_some, Option.pure_def]

/-- The type of a column is read up to its end. -/
theorem type?_definition {type : ColumnType} (hcustom : ∀ name, type ≠ .custom name)
    {precision scale : Option UInt32} {t : Text} (ht : type.definition precision scale = .ok t)
    (hrest : Reader.EndsTerm rest) (hcounting : after? counting rest = none) :
    type? (t ++ rest) = some (t, rest) := by
  cases type with
  | serial =>
      cases ht
      exact type?_serial rest
  | decimal =>
      cases precision with
      | none =>
          cases ht
          exact type?_word (List.all_eq_true.mp rfl) hrest hcounting
      | some p =>
          cases ht
          exact type?_decimal _ _ rest
  | array item => cases ht
  | custom name => exact absurd rfl (hcustom name)
  | _ =>
      cases ht
      exact type?_word (List.all_eq_true.mp rfl) hrest hcounting

end Types

theorem literal?_literal (v : Value) {rest : Text} (hrest : Reader.EndsTerm rest) :
    literal? (v.literal ++ rest) = some (v.literal, rest) := by
  have hlength : v.literal.length ≤ (v.literal ++ rest).length := by simp
  have hreads : Reader.ReadsTerm (fun _ => none) v.literal (.literal v.literal) :=
    .literal v.literalForm
  rw [literal?, hreads _ hlength rest hrest]

/-- The text of the default of a column, with its keyword. -/
def defaultText (o : ColumnOptions) : Text :=
  match o.default? with
  | some d => d.text
  | none => []

theorem isPart_defaultText (o : ColumnOptions) : IsPart 'D' (defaultText o) := by
  unfold defaultText
  cases o.default? with
  | none => exact .inl rfl
  | some d =>
      cases d with
      | value v => exact .inr rfl
      | raw sql => exact .inr rfl

theorem default?_eq {o : ColumnOptions} (hraw : ∀ sql, o.default? ≠ some (.raw sql)) {s : Text}
    {letters : List Char} (hs : Opens letters s) (hd : 'D' ∉ letters) :
    default? (defaultText o ++ s) = some (o.default?.map ColumnDefault.expression, s) := by
  cases hdefault : o.default? with
  | none =>
      have hnone : after? " DEFAULT ".toList s = none := hs.after?_eq_none hd leads_default
      have htext : defaultText o = [] := by rw [defaultText, hdefault]
      rw [htext, List.nil_append, default?, hnone]
      rfl
  | some d =>
      cases d with
      | raw sql => exact absurd hdefault (hraw sql)
      | value v =>
          have htext : defaultText o = " DEFAULT ".toList ++ v.literal := by
            rw [defaultText, hdefault]
            rfl
          rw [htext, List.append_assoc, default?, Reader.after?_append]
          simp only [literal?_literal v hs.endsTerm, Option.bind_eq_bind, Option.bind_some]
          rfl

theorem onDelete_text (action : OnDelete) {s : Text} (hs : EndsColumn s) :
    onDelete (action.text ++ s) = (action, s) := by
  cases action with
  | cascade => simp [onDelete]
  | setNull =>
      have hcascade : after? OnDelete.cascade.text (OnDelete.setNull.text ++ s) = none := rfl
      simp [onDelete, hcascade]
  | nothing => cases hs <;> rfl

theorem isPart_foreignKeyText (table : Table) (name : String) (spec : ColumnSpec) :
    IsPart 'C' (spec.foreignKeyText table name) := by
  cases spec with
  | references r => exact .inr rfl
  | type t => exact .inl rfl

theorem reference_text_append (r : Reference) (table : Table) (name : String) (s : Text) :
    r.text table name ++ s = " CONSTRAINT ".toList ++
      (quoteIdentifier (r.constraintName table name) ++ (" REFERENCES ".toList ++
        ((r.target table).quote ++ (['('] ++ (quoteIdentifier r.column ++
          ([')'] ++ (r.onDelete.text ++ s))))))) := by
  have hshape (constraint target column action : Text) :
      " CONSTRAINT ".toList ++ constraint ++ " REFERENCES ".toList ++ target ++
          Text.parenthesized column ++ action ++ s =
        " CONSTRAINT ".toList ++ (constraint ++ (" REFERENCES ".toList ++ (target ++ (['('] ++
          (column ++ ([')'] ++ (action ++ s))))))) := by
    simp [Text.parenthesized]
  exact hshape _ _ _ _

theorem table?_open (name : QualifiedName) (s : Text) :
    RowReader.table? (name.quote ++ (['('] ++ s)) = some (name, ['('] ++ s) := by
  rw [RowReader.table?, HintReader.table_quote name (by simp) (by simp)]
  rfl

theorem foreignKey?_eq (table : Table) (name : String) (spec : ColumnSpec) {s : Text}
    (hs : EndsColumn s) :
    foreignKey? (spec.foreignKeyText table name ++ s) = some (spec.foreignKey? table name, s) := by
  cases spec with
  | type t =>
      have hnone : after? " CONSTRAINT ".toList s = none :=
        (Opens.ends hs : Opens [] s).after?_eq_none List.not_mem_nil leads_constraint
      rw [ColumnSpec.foreignKeyText, List.nil_append, foreignKey?, hnone]
      rfl
  | references r =>
      have hconstraint (t : Text) := RowReader.takes_name (r.constraintName table name)
        (" REFERENCES ".toList ++ t) (.blank _)
      have hcolumn (t : Text) := RowReader.takes_name r.column ([')'] ++ t) (.close _)
      rw [ColumnSpec.foreignKeyText, reference_text_append, foreignKey?]
      simp only [Reader.after?_append, hconstraint, table?_open, hcolumn,
        onDelete_text r.onDelete hs, Option.bind_eq_bind, Option.bind_some]
      rfl

theorem options_text_eq (o : ColumnOptions) :
    o.text = defaultText o ++
      (if decide (o.nullable = some false) then " NOT NULL".toList else []) := by
  simp only [decide_eq_true_eq]
  rfl

/-- The mark of a primary key is not taken for a part of the type, since no word but the
one of a foreign key can follow it. -/
theorem after?_counting_key (marked : Bool) {s : Text} (hs : Opens ['C'] s) :
    after? counting ((if marked then " PRIMARY KEY".toList else []) ++ s) = none := by
  cases marked with
  | true =>
      have hword : Leads 'A' " AUTOINCREMENT".toList := rfl
      have hshape : counting = " PRIMARY KEY".toList ++ " AUTOINCREMENT".toList := rfl
      rw [if_pos rfl, hshape, after?_append_append]
      exact hs.after?_eq_none (by decide) hword
  | false => exact hs.after?_eq_none (by decide) leads_counting

theorem name?_blank (name : String) (s : Text) :
    RowReader.name? (quoteIdentifier name ++ ' ' :: s) = some (name, ' ' :: s) :=
  RowReader.takes_name name (' ' :: s) (.blank s)

/-- The definition of a column is read up to the end of the column. -/
theorem column?_definition {table : Table} {inlineKey : Bool} {name : String} {spec : ColumnSpec}
    {options : ColumnOptions} (hplain : (ColumnChange.add name spec options).IsPlain) {s : Text}
    (hs : columnDefinition table inlineKey name spec options = .ok s) :
    ∃ column, (ColumnChange.add name spec options).declared? table = some column ∧
      column.name = name ∧ RowReader.TakesBefore EndsColumn column? s
        (column, inlineKey && options.primaryKey && !spec.isSerial) := by
  obtain ⟨hcustom, hraw⟩ := hplain
  obtain ⟨type, htype, rfl⟩ := columnDefinition_eq_ok hs
  refine ⟨_, by rw [ColumnChange.declared?, htype]; rfl, rfl, fun rest hrest => ?_⟩
  generalize (inlineKey && options.primaryKey && !spec.isSerial) = marked
  have hdefaultPart := isPart_defaultText options
  have hnullPart := isPart_ite leads_notNull (decide (options.nullable = some false))
  have hkeyPart := isPart_ite leads_primaryKey marked
  -- What follows the key, the null constraint, the default and the type.
  have hafterKey : Opens ['C'] (spec.foreignKeyText table name ++ rest) :=
    Opens.append (isPart_foreignKeyText table name spec) (.ends hrest)
  have hafterNull := hafterKey.append hkeyPart
  have hafterDefault := hafterNull.append hnullPart
  have hafterType := hafterDefault.append hdefaultPart
  have hcounting := after?_part hdefaultPart (by decide) leads_counting
    (after?_part hnullPart (by decide) leads_counting (after?_counting_key marked hafterKey))
  have hread := type?_definition hcustom htype hafterType.endsTerm hcounting
  have hdefault := default?_eq hraw hafterDefault (by decide)
  have hnotNull := flag_eq " NOT NULL".toList (decide (options.nullable = some false))
    (hafterNull.after?_eq_none (by decide) leads_notNull)
  have hkey := flag_eq " PRIMARY KEY".toList marked
    (hafterKey.after?_eq_none (by decide) leads_primaryKey)
  have hblank (t : Text) : after? [' '] (' ' :: t) = some t := rfl
  rw [options_text_eq]
  simp only [List.append_assoc, List.cons_append, column?, name?_blank, hblank, hread, hdefault,
    hnotNull, hkey, foreignKey?_eq table name spec hrest, Option.bind_eq_bind, Option.bind_some]
  rfl

theorem markedNames_cons (column : DeclaredColumn) (marked : Bool)
    (columns : List (DeclaredColumn × Bool)) :
    markedNames ((column, marked) :: columns) =
      if marked then column.name :: markedNames columns else markedNames columns := by
  cases marked <;> rfl

/-- The definitions of all columns are taken one after the other. The columns that are
marked make up the primary key, if it is marked at all. -/
theorem column?_definitions {table : Table} {inlineKey : Bool} {columns : List ColumnChange}
    (hadds : ∀ c ∈ columns, c.IsAdd) (hplain : ∀ c ∈ columns, c.IsPlain) {ss : List Text}
    (hss : columnDefinitions table inlineKey columns = .ok ss) :
    ∃ read, List.Forall₂ (RowReader.TakesBefore EndsColumn column?) ss read ∧
      columns.map (ColumnChange.declared? table) = (read.map Prod.fst).map some ∧
      markedNames read = if inlineKey then primaryKeyColumns columns else [] := by
  induction columns generalizing ss with
  | nil =>
      cases hss
      exact ⟨[], .nil, rfl, by cases inlineKey <;> rfl⟩
  | cons column columns ih =>
      rw [List.forall_mem_cons] at hadds hplain
      cases column with
      | modify name spec options => exact hadds.1.elim
      | remove name => exact hadds.1.elim
      | rename old new => exact hadds.1.elim
      | add name spec options =>
          obtain ⟨s, others, hs, hothers, rfl⟩ := columnDefinitions_add_eq_ok hss
          obtain ⟨c, hdeclared, hname, htakes⟩ := column?_definition hplain.1 hs
          obtain ⟨read, htaken, hcolumns, hmarked⟩ := ih hadds.2 hplain.2 hothers
          refine ⟨_, .cons htakes htaken, ?_, ?_⟩
          · rw [List.map_cons, List.map_cons, List.map_cons, hdeclared, hcolumns]
          · rw [markedNames_cons, hmarked, hname, primaryKeyColumns]
            cases inlineKey <;> cases spec.isSerial <;> cases options.primaryKey <;> rfl

/-- The constraint is read if there is one. A single column has none. -/
theorem constraint?_eq (names : List String) :
    constraint? ((keyConstraint names).flatMap (", ".toList ++ ·) ++ [')']) =
      some (if names.length = 1 then [] else names, [')']) := by
  have hshape (s : Text) : ["PRIMARY KEY ".toList ++ Text.parenthesized s].flatMap
      (", ".toList ++ ·) ++ [')'] = ", PRIMARY KEY (".toList ++ (s ++ ([')'] ++ [')'])) := by
    simp [Text.parenthesized]
  cases names with
  | nil => rfl
  | cons first names =>
      cases names with
      | nil => rfl
      | cons second names =>
          have hread := RowReader.items?_joined (RowReader.takes_names (first :: second :: names))
            (List.cons_ne_nil _ _) RowReader.parts_comma (Reader.EndsTerm.close [')']) rfl
          rw [keyConstraint, hshape, constraint?, Reader.after?_append, quoteIdentifiers]
          simp only [List.singleton_append, hread, Option.bind_eq_bind, Option.bind_some]
          simp [after?]

theorem flag_quote (name : QualifiedName) (ifNotExists : Bool) (s : Text) :
    flag "IF NOT EXISTS ".toList
        ((if ifNotExists then "IF NOT EXISTS ".toList else []) ++ (name.quote ++ s)) =
      (ifNotExists, name.quote ++ s) := by
  refine flag_eq _ ifNotExists ?_
  obtain ⟨schema, name⟩ := name
  cases schema <;> rfl

/-- No column follows the definitions: there is the end of the list or a constraint. -/
theorem column?_keyConstraint (names : List String) :
    (after? ", ".toList ((keyConstraint names).flatMap (", ".toList ++ ·) ++ [')']) >>= column?) =
      none := by
  cases names with
  | nil => rfl
  | cons first names => cases names <;> rfl

theorem endsColumn_keyConstraint (names : List String) :
    EndsColumn ((keyConstraint names).flatMap (", ".toList ++ ·) ++ [')']) := by
  cases names with
  | nil => exact .close []
  | cons first names =>
      cases names with
      | nil => exact .close []
      | cons second names => exact .comma _

theorem joined_append {definitions : List Text} (hne : definitions ≠ []) (ss : List Text) :
    Text.joined ", " (definitions ++ ss) =
      Text.joined ", " definitions ++ ss.flatMap (", ".toList ++ ·) := by
  obtain ⟨s, definitions, rfl⟩ := List.exists_cons_of_ne_nil hne
  rw [List.cons_append, Text.joined_cons, Text.joined_cons, List.flatMap_append,
    List.append_assoc]

/-- The text of a new table is read back. -/
theorem whole?_createTable {table : Table} {columns : List ColumnChange} {ifNotExists : Bool}
    {sql : Text} (hoptions : table.options = none) (hplain : ∀ c ∈ columns, c.IsPlain)
    (h : createTable table columns ifNotExists = .ok sql) :
    ∃ declared, columns.map (ColumnChange.declared? table) = declared.map some ∧
      whole? sql = some ⟨ifNotExists, table.name, declared, primaryKeyColumns columns⟩ := by
  have hviolations := (createTable_reflects table columns ifNotExists).exists_ok_iff.mp ⟨sql, h⟩
  have hfits := (createViolations_eq_nil_iff columns).mp hviolations
  obtain ⟨-, definitions, hdefinitions, rfl⟩ := createTable_eq_ok h hoptions
  obtain ⟨read, htaken, hcolumns, hmarked⟩ := column?_definitions hfits.adds hplain hdefinitions
  refine ⟨read.map Prod.fst, hcolumns, ?_⟩
  have hread : read ≠ [] := by
    rintro rfl
    exact hfits.nonempty (List.map_eq_nil_iff.mp hcolumns)
  have hnonempty : definitions ≠ [] := by
    rintro rfl
    exact hread (List.forall₂_nil_left_iff.mp htaken)
  have hcomma (s : Text) : EndsColumn (", ".toList ++ s) := .comma (' ' :: s)
  have hitems := RowReader.items?_before htaken hread (by simp) hcomma
    (endsColumn_keyConstraint (primaryKeyColumns columns))
    (column?_keyConstraint (primaryKeyColumns columns))
  have htable (s : Text) := (RowReader.takes_table table.name).before RowReader.parts_open s
  have hshape (clause name list : Text) :
      "CREATE TABLE ".toList ++ clause ++ name ++ ' ' :: Text.parenthesized list =
        "CREATE TABLE ".toList ++ (clause ++ (name ++ (" (".toList ++ (list ++ [')'])))) := by
    simp [Text.parenthesized]
  rw [hshape, joined_append hnonempty, List.append_assoc, whole?]
  simp only [Reader.after?_append, flag_quote, htable, hitems, constraint?_eq, hmarked,
    Option.bind_eq_bind, Option.bind_some, if_true]
  congr 2
  by_cases hone : (primaryKeyColumns columns).length = 1
  · simp [hone]
  · simp [hone]

end TableReader

theorem SchemaChange.text_of_compile {change : SchemaChange} {c : Compiled}
    (h : change.compile = .ok c) : change.text = .ok c.sql.toList := by
  cases htext : change.text with
  | error e => simp [compile, htext, bind, Except.bind] at h
  | ok sql =>
      simp only [compile, htext, bind, Except.bind] at h
      cases h
      rw [String.toList_ofList]

/-- Every column of one table is declared like the column of the other table in its place. -/
def SameColumns (table₁ table₂ : Table) : List ColumnChange → List ColumnChange → Prop :=
  List.Forall₂ fun column₁ column₂ => ∃ declared,
    column₁.declared? table₁ = some declared ∧ column₂.declared? table₂ = some declared

theorem sameColumns_of_declared {table₁ table₂ : Table} {columns₁ columns₂ : List ColumnChange}
    {declared : List DeclaredColumn}
    (h₁ : columns₁.map (ColumnChange.declared? table₁) = declared.map some)
    (h₂ : columns₂.map (ColumnChange.declared? table₂) = declared.map some) :
    SameColumns table₁ table₂ columns₁ columns₂ := by
  induction declared generalizing columns₁ columns₂ with
  | nil =>
      obtain rfl := List.map_eq_nil_iff.mp h₁
      obtain rfl := List.map_eq_nil_iff.mp h₂
      exact .nil
  | cons d declared ih =>
      obtain ⟨column₁, columns₁, rfl, hfirst₁, hrest₁⟩ := List.map_eq_cons_iff.mp h₁
      obtain ⟨column₂, columns₂, rfl, hfirst₂, hrest₂⟩ := List.map_eq_cons_iff.mp h₂
      exact .cons ⟨d, hfirst₁, hfirst₂⟩ (ih hrest₁ hrest₂)

/-- The text of a new table without raw parts is read back: whether the table may exist,
its name, every column as it is declared, and the columns of the primary key. So equal
texts declare the same table, column by column. -/
theorem createTable_reads_back :
    (∀ (table : Table) (columns : List ColumnChange) (ifNotExists : Bool) (c : Compiled),
      table.options = none → (∀ column ∈ columns, column.IsPlain) →
      (SchemaChange.createTable table columns ifNotExists).compile = .ok c →
        ∃ declared, columns.map (ColumnChange.declared? table) = declared.map some ∧
          TableReader.whole? c.sql.toList =
            some ⟨ifNotExists, table.name, declared, primaryKeyColumns columns⟩) ∧
    ∀ (table₁ table₂ : Table) (columns₁ columns₂ : List ColumnChange)
      (ifNotExists₁ ifNotExists₂ : Bool) (c₁ c₂ : Compiled),
      table₁.options = none → table₂.options = none →
      (∀ column ∈ columns₁, column.IsPlain) → (∀ column ∈ columns₂, column.IsPlain) →
      (SchemaChange.createTable table₁ columns₁ ifNotExists₁).compile = .ok c₁ →
      (SchemaChange.createTable table₂ columns₂ ifNotExists₂).compile = .ok c₂ →
      c₁.sql = c₂.sql →
        ifNotExists₁ = ifNotExists₂ ∧ table₁.name = table₂.name ∧
        SameColumns table₁ table₂ columns₁ columns₂ ∧
        primaryKeyColumns columns₁ = primaryKeyColumns columns₂ := by
  have hreads {table : Table} {columns : List ColumnChange} {ifNotExists : Bool} {c : Compiled}
      (hoptions : table.options = none) (hplain : ∀ column ∈ columns, column.IsPlain)
      (hc : (SchemaChange.createTable table columns ifNotExists).compile = .ok c) :=
    TableReader.whole?_createTable hoptions hplain (SchemaChange.text_of_compile hc)
  refine ⟨fun table columns ifNotExists c hoptions hplain hc => hreads hoptions hplain hc, ?_⟩
  intro table₁ table₂ columns₁ columns₂ ifNotExists₁ ifNotExists₂ c₁ c₂ hoptions₁ hoptions₂ hplain₁
    hplain₂ hc₁ hc₂ hsql
  obtain ⟨declared₁, hcolumns₁, hread₁⟩ := hreads hoptions₁ hplain₁ hc₁
  obtain ⟨declared₂, hcolumns₂, hread₂⟩ := hreads hoptions₂ hplain₂ hc₂
  rw [hsql, hread₂, Option.some.injEq, DeclaredTable.mk.injEq] at hread₁
  obtain ⟨hexists, hname, rfl, hkeys⟩ := hread₁
  exact ⟨hexists.symm, hname.symm, sameColumns_of_declared hcolumns₁ hcolumns₂, hkeys.symm⟩

/-- Commas, quotes and keywords inside of a name or a default stay there. What the text
does not tell apart is declared alike. -/
theorem createTable_reads_back_in_samples :
    (∃ c, (SchemaChange.createTable (.inSchema (.ofName "t\" (\"u") "s")
        [.add "a\" TEXT, \"b" (.type .text)
          (.asPrimaryKey (.withDefault {} (.string "it's NOT NULL"))),
          .add "c" (.type .decimal) (.asPrimaryKey (.withPrecision {} 8 2))] true).compile = .ok c ∧
      TableReader.whole? c.sql.toList = some ⟨true, ⟨some "s", "t\" (\"u"⟩,
        [⟨"a\" TEXT, \"b", "TEXT".toList, some "'it''s NOT NULL'".toList, false, none⟩,
          ⟨"c", "DECIMAL(8,2)".toList, none, false, none⟩], ["a\" TEXT, \"b", "c"]⟩) ∧
    SameColumns (.ofName "t") (.ofName "t")
      [.add "a" (.references (.toTable "u")) {}]
      [.add "a" (.references (.named (.toTable "u") "t_a_fkey")) (.withNull {} true)] := by
  constructor
  · let columns : List ColumnChange := [.add "a\" TEXT, \"b" (.type .text)
      (.asPrimaryKey (.withDefault {} (.string "it's NOT NULL"))),
      .add "c" (.type .decimal) (.asPrimaryKey (.withPrecision {} 8 2))]
    have hplain : ∀ column ∈ columns, column.IsPlain := by
      simp [columns, ColumnChange.IsPlain, ColumnSpec.columnType, ColumnOptions.asPrimaryKey,
        ColumnOptions.withDefault, ColumnOptions.withPrecision]
    obtain ⟨c, hc⟩ : ∃ c, (SchemaChange.createTable (.inSchema (.ofName "t\" (\"u") "s") columns
        true).compile = .ok c := ⟨_, rfl⟩
    obtain ⟨declared, hdeclared, hread⟩ :=
      createTable_reads_back.1 (.inSchema (.ofName "t\" (\"u") "s") columns true c rfl hplain hc
    refine ⟨c, hc, hread.trans ?_⟩
    have hcolumns : declared = [⟨"a\" TEXT, \"b", "TEXT".toList,
        some "'it''s NOT NULL'".toList, false, none⟩,
        ⟨"c", "DECIMAL(8,2)".toList, none, false, none⟩] :=
      List.map_injective_iff.mpr (Option.some_injective _)
        (hdeclared.symm.trans (by decide +kernel))
    rw [hcolumns]
    rfl
  · let columns₁ : List ColumnChange := [.add "a" (.references (.toTable "u")) {}]
    let columns₂ : List ColumnChange :=
      [.add "a" (.references (.named (.toTable "u") "t_a_fkey")) (.withNull {} true)]
    have hplain₁ : ∀ column ∈ columns₁, column.IsPlain := by
      simp [columns₁, ColumnChange.IsPlain, ColumnSpec.columnType, Reference.toTable]
    have hplain₂ : ∀ column ∈ columns₂, column.IsPlain := by
      simp [columns₂, ColumnChange.IsPlain, ColumnSpec.columnType, Reference.toTable,
        Reference.named, ColumnOptions.withNull]
    exact (createTable_reads_back.2 (.ofName "t") (.ofName "t") columns₁ columns₂ false false _ _
      rfl rfl hplain₁ hplain₂ rfl rfl rfl).2.2.1

end LiteSql
