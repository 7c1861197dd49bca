/-
# Documents

A document becomes one table by putting its entries in their places, line by line.  Headers and
joined keys make the tables on their way.  Each table remembers how it came about, because that
decides what may still be added to it: a table with a header of its own is closed to joined keys,
a table made on the way by a header may get a header later, and a table made by joined keys is
extended by joined keys only.  No key is ever given two values.

The table of a header that had been made on the way moves behind its neighbours, as if it had been
written there.
-/
import EnumAssets.Toml.Line

namespace EnumAssets.Toml

/-! ## 1. Places -/

/-- How a table came about: by a header of its own, on the way of a header, or by joined keys. -/
inductive Origin where
  | header
  | onTheWay
  | joined
deriving DecidableEq, Repr

/-- A place of a document that is being read: a value, a table, or the tables of an array. -/
inductive Place where
  | value (v : Value)
  | table (origin : Origin) (entries : List (String × Place))
  | tables (items : List (List (String × Place)))
deriving Repr

/-- The places of a table. -/
abbrev Places := List (String × Place)

namespace Places

/-- The places with the one of a key replaced. -/
def set (ps : Places) (key : String) (p : Place) : Places :=
  ps.map fun entry => if entry.1 == key then (key, p) else entry

/-- The places without the one of a key. -/
def without (ps : Places) (key : String) : Places :=
  ps.filter fun entry => entry.1 != key

/-- Changes the last of a list of tables. -/
def inLast (f : Places → Option Places) (items : List Places) : Option (List Places) := do
  let last ← items.getLast?
  let changed ← f last
  return items.dropLast ++ [changed]

/-! ## 2. Putting entries and headers in their places -/

/-- Adds a value under joined keys, of which `key` is the first. -/
def insert (ps : Places) (v : Value) : String → List String → Option Places
  | key, [] =>
    match ps.lookup key with
    | none => some (ps ++ [(key, .value v)])
    | some _ => none
  | key, next :: more =>
    match ps.lookup key with
    | none => do
      let inner ← insert [] v next more
      return ps ++ [(key, .table .joined inner)]
    | some (.table origin inner) =>
      if origin = .header ∨ (more = [] ∧ origin = .onTheWay) then none
      else do
        let changed ← insert inner v next more
        return ps.set key (.table origin changed)
    | some (.tables items) =>
      if more = [] then none
      else do
        let changed ← inLast (fun inner => insert inner v next more) items
        return ps.set key (.tables changed)
    | some (.value _) => none

/-- Changes the places of the table that keys lead to, making the tables on the way. -/
def within (f : Places → Option Places) : List String → Places → Option Places
  | [], ps => f ps
  | key :: more, ps =>
    match ps.lookup key with
    | none => do
      let inner ← within f more []
      return ps ++ [(key, .table .onTheWay inner)]
    | some (.table origin inner) => do
      let changed ← within f more inner
      return ps.set key (.table origin changed)
    | some (.tables items) => do
      let changed ← inLast (within f more) items
      return ps.set key (.tables changed)
    | some (.value _) => none

/-- Gives a table its header. -/
def openTable (key : String) (ps : Places) : Option Places :=
  match ps.lookup key with
  | none => some (ps ++ [(key, .table .header [])])
  | some (.table .onTheWay inner) => some (ps.without key ++ [(key, .table .header inner)])
  | some _ => none

/-- Adds one more table to an array of tables. -/
def openItem (key : String) (ps : Places) : Option Places :=
  match ps.lookup key with
  | none => some (ps ++ [(key, .tables [[]])])
  | some (.tables items) => some (ps.set key (.tables (items ++ [[]])))
  | some _ => none

end Places

/-! ## 3. From places to values -/

mutual

/-- The value of a place. -/
def Place.toValue : Place → Value
  | .value v => v
  | .table _ entries => .table (Place.toTable entries)
  | .tables items => .array (Place.toTables items)

/-- The values of the places of a table. -/
def Place.toTable : List (String × Place) → Table
  | [] => []
  | (key, p) :: rest => (key, p.toValue) :: Place.toTable rest

/-- The tables of an array. -/
def Place.toTables : List (List (String × Place)) → List Value
  | [] => []
  | entries :: rest => .table (Place.toTable entries) :: Place.toTables rest

end

mutual

/-- The value that is written; none when the entries of a table in braces contradict each other. -/
def Written.toValue : Written → Option Value
  | .plain v => some v
  | .array items => (Written.toValues items).map .array
  | .table entries => (Written.toPlaces entries []).map fun ps => .table (Place.toTable ps)

/-- The values that are written one after the other. -/
def Written.toValues : List Written → Option (List Value)
  | [] => some []
  | w :: rest => do
    let v ← w.toValue
    let vs ← Written.toValues rest
    return v :: vs

/-- The places of a table in braces, entry by entry. -/
def Written.toPlaces : List (List String × Written) → Places → Option Places
  | [], ps => some ps
  | ([], _) :: _, _ => none
  | (key :: more, w) :: rest, ps => do
    let v ← w.toValue
    let changed ← ps.insert v key more
    Written.toPlaces rest changed

end

/-! ## 4. The document, line by line -/

/-- A document that is being read: its places, and the keys of the last header. -/
structure Draft where
  places : Places
  header : List String

/-- The document after one more line. -/
def Draft.add (d : Draft) : Line → Option Draft
  | .entry (key :: more) w => do
    let v ← w.toValue
    let places ← Places.within (fun ps => ps.insert v key more) d.header d.places
    return ⟨places, d.header⟩
  | .table keys => do
    let places ← Places.within (Places.openTable (← keys.getLast?)) keys.dropLast d.places
    return ⟨places, keys⟩
  | .arrayItem keys => do
    let places ← Places.within (Places.openItem (← keys.getLast?)) keys.dropLast d.places
    return ⟨places, keys⟩
  | .entry [] _ => none

/-- The table that a document spells; none when the text is no document. -/
def parse (text : String) : Option Table := do
  let lines ← linesOf text
  let draft ← lines.foldlM Draft.add ⟨[], []⟩
  return Place.toTable draft.places

end EnumAssets.Toml
