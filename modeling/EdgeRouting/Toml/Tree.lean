import EdgeRouting.Document
import EdgeRouting.Toml.Reader

/-!
# The tree of a TOML text

Lines are added to a tree one after the other. A table can be spread over many lines, but only in
certain ways: each has at most one header, and the entries of a table that has one stand below it,
not in dotted keys elsewhere. That is why the tree remembers of each table what it was made by.
-/

namespace EdgeRouting.Toml

/-- What a table was made by. -/
inductive Origin where
  /-- A header of its own. -/
  | header
  /-- The header of a table inside of it. -/
  | innerHeader
  /-- The key of an entry inside of it. -/
  | dottedKey
  deriving Repr, DecidableEq

inductive Node where
  /-- A value, which cannot be added to. -/
  | value (d : Document)
  | table (origin : Origin) (entries : List (String × Node))
  /-- Tables under one name, of which the last one can be added to. -/
  | items (tables : List (List (String × Node)))
  deriving Repr, Inhabited

abbrev Entries := List (String × Node)

/-! ## Changing entries -/

/-- The entries with that of one name changed or added. -/
def update (name : String) (change : Option Node → Option Node) : Entries → Option Entries
  | [] => (change none).map fun n => [(name, n)]
  | e :: r =>
    if e.1 = name then (change (some e.2)).map fun n => (name, n) :: r
    else (update name change r).map (e :: ·)

def updateLast (change : Entries → Option Entries) (tables : List Entries) : Option Node := do
  let last ← tables.getLast?
  let changed ← change last
  some (.items (tables.dropLast ++ [changed]))

/-- The entries with a value added under a dotted key. All tables on the way that exist must have
been made by headers inside of them or by dotted keys, and the one that gets the value by a dotted
key. -/
def addValue (d : Document) : Key → Entries → Option Entries
  | [], _ => none
  | [k], es => update k (fun
      | none => some (.value d)
      | some _ => none) es
  | k :: k' :: r, es => update k (fun
      | none => (addValue d (k' :: r) []).map (.table .dottedKey)
      | some (.value _) => none
      | some (.table .header _) => none
      | some (.table .innerHeader es) =>
        if r.isEmpty then none else (addValue d (k' :: r) es).map (.table .innerHeader)
      | some (.table .dottedKey es) => (addValue d (k' :: r) es).map (.table .dottedKey)
      | some (.items tables) =>
        if r.isEmpty then none else updateLast (addValue d (k' :: r)) tables) es

/-- The entries with those of the table on a path changed. Tables on the path that do not exist are
made. -/
def changeAt (change : Entries → Option Entries) : List String → Entries → Option Entries
  | [], es => change es
  | k :: r, es => update k (fun
      | none => (changeAt change r []).map (.table .innerHeader)
      | some (.value _) => none
      | some (.table origin es) => (changeAt change r es).map (.table origin)
      | some (.items tables) => updateLast (changeAt change r) tables) es

/-- Makes a table, or gives a header to one that was made by headers inside of it. -/
def openTable (k : Key) (es : Entries) : Option Entries := do
  let name ← k.getLast?
  changeAt (update name fun
    | none => some (.table .header [])
    | some (.table .innerHeader es) => some (.table .header es)
    | some _ => none) k.dropLast es

/-- Adds a table to those under one name. -/
def openItem (k : Key) (es : Entries) : Option Entries := do
  let name ← k.getLast?
  changeAt (update name fun
    | none => some (.items [[]])
    | some (.items tables) => some (.items (tables ++ [[]]))
    | some _ => none) k.dropLast es

/-! ## Documents -/

mutual

def Node.document : Node → Document
  | .value d => d
  | .table _ es => .table (entryDocuments es)
  | .items tables => .list (itemDocuments tables)

def entryDocuments : Entries → List (String × Document)
  | [] => []
  | (k, n) :: r => (k, n.document) :: entryDocuments r

def itemDocuments : List Entries → List Document
  | [] => []
  | es :: r => .table (entryDocuments es) :: itemDocuments r

end

/-- The entries that values under dotted keys make up. -/
def entriesOf? (values : List (Key × Document)) : Option Entries :=
  values.foldlM (fun es e => addValue e.2 e.1 es) []

mutual

/-- The document that a value denotes, unless a table in it has two entries for one key. -/
def Value.document? : Value → Option Document
  | .truth b => some (.truth b)
  | .integer n => some (.whole n)
  | .real => some .real
  | .moment => some .moment
  | .text s => some (.text s)
  | .list items => (valueDocuments? items).map .list
  | .table entries => do
    let es ← entriesOf? (← keyedDocuments? entries)
    some (.table (entryDocuments es))

def valueDocuments? : List Value → Option (List Document)
  | [] => some []
  | v :: r => do
    let d ← v.document?
    let ds ← valueDocuments? r
    some (d :: ds)

def keyedDocuments? : List (Key × Value) → Option (List (Key × Document))
  | [] => some []
  | (k, v) :: r => do
    let d ← v.document?
    let ds ← keyedDocuments? r
    some ((k, d) :: ds)

end

/-! ## Lines -/

/-- A tree and the path of the table that entries are added to. -/
structure Tree where
  entries : Entries
  path : List String

def Tree.empty : Tree := ⟨[], []⟩

def Tree.addLine (t : Tree) : Line → Option Tree
  | .entry k v => do
    let d ← v.document?
    let es ← changeAt (addValue d k) t.path t.entries
    some { t with entries := es }
  | .header k => (openTable k t.entries).map fun es => ⟨es, k⟩
  | .itemHeader k => (openItem k t.entries).map fun es => ⟨es, k⟩

/-- The document of a whole text, before which a byte order mark may stand. -/
def read (s : String) : Option Document := do
  let chars := s.toList
  let lines ← lines? (if chars.head? = some '\uFEFF' then chars.tail else chars)
  if lines.all Line.isShallow then
    let tree ← lines.foldlM Tree.addLine .empty
    some (.table (entryDocuments tree.entries))
  else none

end EdgeRouting.Toml
