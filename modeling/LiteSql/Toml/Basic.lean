import LiteSql.Text.Quoted

/-!
# TOML tables

A document is a table of keys. Tables come into being in several ways, and the way
decides what may be added to a table later: a header gives a table once, dotted keys may
go on adding to what dotted keys have made, and an inline table is closed when it ends.
-/

namespace LiteSql

/-- How a table came into being. -/
inductive TomlOrigin
  /-- By its own header, or as the root. -/
  | header
  /-- By the header of a table inside it. -/
  | implied
  /-- By a dotted key. -/
  | dotted
  /-- By a value in braces. -/
  | closed
deriving DecidableEq

/-- A TOML value. Numbers, dates and times are not told apart. -/
inductive Toml
  | string (s : String)
  | bool (b : Bool)
  | number
  | array (items : List Toml)
  | table (origin : TomlOrigin) (entries : List (String × Toml))
  /-- The tables given by repeated headers in double brackets, the last one first. -/
  | tables (last : Toml) (others : List Toml)

namespace Toml

/-- The entries of a table and how it came into being. -/
structure Entries where
  origin : TomlOrigin
  entries : List (String × Toml)

def Entries.toToml (t : Entries) : Toml :=
  .table t.origin t.entries

/-- The value of a key. -/
def Entries.get? (t : Entries) (key : String) : Option Toml :=
  t.entries.lookup key

/-- Adds a key, or replaces its value. -/
def Entries.put (t : Entries) (key : String) (v : Toml) : Entries :=
  { t with entries := t.entries.filter (fun e => e.1 != key) ++ [(key, v)] }

/-- Changes the table that a path leads to. Missing tables are made on the way, by dotted
keys or by a header. A path may lead through the last of repeated tables; dotted keys may
not enter a table that has its own header, and nothing may enter a closed one. -/
def Entries.update? (byDots : Bool) (change : Entries → Option Entries) :
    List String → Entries → Option Entries
  | [], t => change t
  | key :: path, t =>
    match t.get? key with
    | none => do
      let fresh := ⟨if byDots then .dotted else .implied, []⟩
      let inner ← update? byDots change path fresh
      return t.put key inner.toToml
    | some (.table origin entries) =>
      if origin = .closed ∨ (byDots ∧ origin = .header) then none
      else do
        let inner ← update? byDots change path ⟨origin, entries⟩
        return t.put key inner.toToml
    | some (.tables (.table origin entries) others) => do
      let inner ← update? byDots change path ⟨origin, entries⟩
      return t.put key (.tables inner.toToml others)
    | some _ => none

/-- Adds a key that is not there yet. Plain keys do not go into tables made by dotted keys,
and dotted keys go into no other tables. -/
def Entries.addNew? (path : List String) (key : String) (v : Toml) (t : Entries) :
    Option Entries :=
  if decide (t.origin = .dotted) == path.isEmpty then none
  else if (t.get? key).isSome then none
  else some (t.put key v)

/-- Adds the value of a key, which may be dotted. -/
def Entries.addKey? (path : List String) (key : String) (v : Toml) (t : Entries) :
    Option Entries :=
  t.update? true (Entries.addNew? path key v) path

/-- Starts the table of a header. Only a table that other headers imply may be there. -/
def Entries.openTable? (key : String) (t : Entries) : Option Entries :=
  match t.get? key with
  | none => some (t.put key (.table .header []))
  | some (.table .implied entries) => some (t.put key (.table .header entries))
  | some _ => none

/-- Starts the next of repeated tables. -/
def Entries.openNext? (key : String) (t : Entries) : Option Entries :=
  match t.get? key with
  | none => some (t.put key (.tables (.table .header []) []))
  | some (.tables last others) => some (t.put key (.tables (.table .header []) (last :: others)))
  | some _ => none

/-- Adds the pairs of a value in braces. Dotted keys may only enter tables made by dotted
keys of the same value. -/
def ofPairs? : List (List String × String × Toml) → Entries → Option Entries
  | [], t => some t
  | (path, key, v) :: rest, t => do
    let t ← t.addKey? path key v
    ofPairs? rest t

mutual

/-- Closes a table and all tables inside it. -/
def closedTable : Toml → Toml
  | .table _ entries => .table .closed (closedEntries entries)
  | v => v

def closedEntries : List (String × Toml) → List (String × Toml)
  | [] => []
  | (key, v) :: rest => (key, closedTable v) :: closedEntries rest

end

end Toml

end LiteSql
