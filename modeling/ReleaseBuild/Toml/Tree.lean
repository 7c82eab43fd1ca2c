import ReleaseBuild.Settings.Document
/-!
# Assembling the tables of a TOML document

A TOML document defines its tables piece by piece: `[a.b]` headers open a table, `[[a]]`
headers add one more table to an array of tables, and `x.y = v` lines define values, dotted
keys making tables on the way. The pieces are gathered into a tree of frames (tables under
construction), and every piece is checked against what is already there:

* a key is defined once; defining it again is a duplicate key, named with the table it is in;
* a header may open a table that so far was only made on the way to a deeper table (an
  implicit table), but no other table twice;
* dotted keys may extend tables that dotted keys made, but not a table opened by a header,
  and never a value.

A finished tree is a document value whose tables and arrays keep the span they were read
from; a table made only on the way to another points at the key that made it.
-/

namespace ReleaseBuild

namespace Toml

/-- An entry of a table under construction. -/
inductive Node where
  /-- A value written after `=`: the document value, the name of its type, and its span. -/
  | value (v : DocValue) (kind : String) (span : Nat × Nat)
  /-- A table: its entries, each with the span of the key that made it; whether it was only
  made on the way to a deeper table; whether dotted keys made it; its span. -/
  | table (entries : List (String × Span × Node)) (implicit dotted : Bool) (span : Span)
  /-- An array of tables, each with its entries and span. -/
  | tables (items : List (List (String × Span × Node) × Span))
  deriving Repr, Inhabited

/-- A table under construction, with the flags of `Node.table`. -/
structure Frame where
  entries : List (String × Span × Node) := []
  implicit : Bool := false
  dotted : Bool := false
  span : Span := none
  deriving Repr, Inhabited

/-- A definition that contradicts an earlier one. -/
inductive Conflict where
  /-- A key defined twice; the table it is in, when that is named. -/
  | duplicateKey (key : String) (table : Option (List String))
  /-- Dotted keys that pass through a value. -/
  | extendWrongType (path : List String) (kind : String)
  deriving DecidableEq, Repr

namespace Conflict

/-- How a conflict is reported. -/
def message : Conflict → String
  | duplicateKey key none => "duplicate key `" ++ key ++ "`"
  | duplicateKey key (some []) => "duplicate key `" ++ key ++ "` in document root"
  | duplicateKey key (some table) =>
    "duplicate key `" ++ key ++ "` in table `" ++ ".".intercalate table ++ "`"
  | extendWrongType path kind =>
    "dotted key `" ++ ".".intercalate path ++ "` attempted to extend non-table type (" ++
      kind ++ ")"

end Conflict

/-- A key with the span it was written at. -/
abbrev Key := String × Span

namespace Frame

/-- The frame as an entry. -/
def toNode (f : Frame) : Node := .table f.entries f.implicit f.dotted f.span

/-- The entry of a key. -/
def find? (f : Frame) (key : String) : Option Node :=
  (f.entries.find? (·.1 == key)).map (·.2.2)

/-- Replace the entry of a key, in its place. -/
def replace (f : Frame) (key : String) (n : Node) : Frame :=
  { f with entries := f.entries.map fun e => if e.1 == key then (e.1, e.2.1, n) else e }

/-- Add an entry at the end. -/
def push (f : Frame) (key : Key) (n : Node) : Frame :=
  { f with entries := f.entries ++ [(key.1, key.2, n)] }

/-- Remove the entry of a key. -/
def erase (f : Frame) (key : String) : Frame :=
  { f with entries := f.entries.filter (·.1 != key) }

/-- Extend the span to the end of a value. -/
def reach (f : Frame) (stop : Nat) : Frame :=
  { f with span := f.span.map fun (start, _) => (start, stop) }

/-- Go down a path of keys below a frame, making implicit tables where keys are missing, and
change the frame reached with `k`. Through an array of tables the path continues in its last
table. With `dotted`, the tables made are marked dotted, and passing through a table that a
header opened is a duplicate key. `walked` is the part of the path already gone down. -/
def descend {β : Type} (dotted : Bool) (k : Frame → Except Conflict (Frame × β)) :
    List String → List Key → Frame → Except Conflict (Frame × β)
  | _, [], f => k f
  | walked, key :: rest, f =>
    let walked := walked ++ [key.1]
    match f.find? key.1 with
    | none => do
      let (child, b) ← descend dotted k walked rest { implicit := true, dotted := dotted }
      pure (f.push key child.toNode, b)
    | some (.value _ kind _) => .error (.extendWrongType walked kind)
    | some (.tables items) =>
      match items.getLast? with
      | some (entries, span) => do
        let (child, b) ← descend dotted k walked rest { entries := entries, span := span }
        pure (f.replace key.1 (.tables (items.dropLast ++ [(child.entries, child.span)])), b)
      | none => .error (.duplicateKey key.1 none)
    | some (.table entries implicit dotted' span) =>
      if dotted && !implicit then .error (.duplicateKey key.1 none)
      else do
        let (child, b) ← descend dotted k walked rest ⟨entries, implicit, dotted', span⟩
        pure (f.replace key.1 child.toNode, b)

/-- Go down the dotted part of a key inside an inline table: tables that dotted keys made may
be extended, other tables, inline ones included, may not. -/
def descendInline {β : Type} (k : Frame → Except Conflict (Frame × β)) :
    List String → List Key → Frame → Except Conflict (Frame × β)
  | _, [], f => k f
  | walked, key :: rest, f =>
    let walked := walked ++ [key.1]
    match f.find? key.1 with
    | none => do
      let (child, b) ← descendInline k walked rest { implicit := true, dotted := true }
      pure (f.push key child.toNode, b)
    | some (.table entries implicit dotted span) =>
      if !implicit then .error (.duplicateKey key.1 none)
      else do
        let (child, b) ← descendInline k walked rest ⟨entries, implicit, dotted, span⟩
        pure (f.replace key.1 child.toNode, b)
    | some (.value _ "inline table" _) => .error (.duplicateKey key.1 none)
    | some (.value _ kind _) => .error (.extendWrongType walked kind)
    | some (.tables _) => .error (.extendWrongType walked "array")

/-- Define a key in a frame reached by `path`, which is either empty or made by dotted keys;
`table` names the frame in the message of a duplicate. -/
def define (inline : Bool) (table : Option (List String)) (path : List Key) (key : Key)
    (n : Node) (f : Frame) : Except Conflict Frame :=
  let k : Frame → Except Conflict (Frame × Unit) := fun t =>
    if t.dotted == path.isEmpty then .error (.duplicateKey key.1 none)
    else if (t.find? key.1).isSome then .error (.duplicateKey key.1 table)
    else .ok (t.push key n, ())
  (if inline then descendInline k [] path f else descend true k [] path f).map (·.1)

end Frame

mutual

/-- An entry as a document value with its span; a table without a span of its own takes the
span of the key that made it. -/
def Node.toDoc (keySpan : Span) : Node → DocValue × Span
  | .value v _ span => (v, some span)
  | .table entries _ _ span => (.table (entriesToDoc entries), span.orElse fun _ => keySpan)
  | .tables items => (.array (tablesToDoc items), keySpan)

/-- The entries of a table as document entries. -/
def entriesToDoc : List (String × Span × Node) → List (String × DocValue × Span)
  | [] => []
  | (key, keySpan, n) :: rest =>
    let (v, span) := n.toDoc keySpan
    (key, v, span) :: entriesToDoc rest

/-- The tables of an array of tables as document values. -/
def tablesToDoc : List (List (String × Span × Node) × Span) → List (DocValue × Span)
  | [] => []
  | (entries, span) :: rest => (.table (entriesToDoc entries), span) :: tablesToDoc rest

end

/-- A frame as a document table. -/
def Frame.toDoc (f : Frame) : DocValue := .table (entriesToDoc f.entries)

/-- The state of assembling a document: the tables finished so far, the table that is open
with its path, and whether it belongs to an array of tables. Values before the first header
go to the open table with the empty path, which becomes the root. -/
structure Assembly where
  root : Frame := {}
  current : Frame := {}
  path : List Key := []
  isArray : Bool := false
  deriving Repr, Inhabited

namespace Assembly

/-- Define a key of the open table; `span` is the value's. -/
def onKeyval (a : Assembly) (path : List Key) (key : Key) (n : Node) (stop : Nat) :
    Except Conflict Assembly := do
  let current ← (a.current.reach stop).define false (some (a.path.map (·.1))) path key n
  pure { a with current := current }

/-- Put the open table into the tree. -/
def finalize (a : Assembly) : Except Conflict Assembly :=
  match a.path.getLast? with
  | none => .ok { a with root := a.current, current := {} }
  | some key =>
    let parents := a.path.dropLast
    let duplicate := Conflict.duplicateKey key.1 (some (parents.map (·.1)))
    let table := a.current
    let k : Frame → Except Conflict (Frame × Unit) := fun parent =>
      if a.isArray then
        match parent.find? key.1 with
        | none => .ok (parent.push key (.tables [(table.entries, table.span)]), ())
        | some (.tables items) =>
          .ok (parent.replace key.1 (.tables (items ++ [(table.entries, table.span)])), ())
        | some _ => .error duplicate
      else
        match parent.find? key.1 with
        | none => .ok (parent.push key table.toNode, ())
        | some (.table _ true _ _) => .ok (parent.replace key.1 table.toNode, ())
        | some _ => .error duplicate
    do
      let (root, _) ← Frame.descend false k [] parents a.root
      pure { root := root, current := {}, path := [], isArray := false }

/-- Open the table of a `[path]` header spanning `span`: a table made only on the way to a
deeper one is taken over, any other entry there is a duplicate. -/
def onTableHeader (a : Assembly) (path : List Key) (span : Nat × Nat) :
    Except Conflict Assembly := do
  let a ← a.finalize
  match path.getLast? with
  | none => .ok a
  | some key =>
    let parents := path.dropLast
    let k : Frame → Except Conflict (Frame × Option Frame) := fun parent =>
      match parent.find? key.1 with
      | none => .ok (parent, none)
      | some (.table entries true false span) =>
        .ok (parent.erase key.1, some ⟨entries, true, false, span⟩)
      | some _ => .error (.duplicateKey key.1 (some (parents.map (·.1))))
    let (root, taken) ← Frame.descend false k [] parents a.root
    let base := taken.getD {}
    pure { root := root, current := { base with implicit := false, dotted := false, span := some span },
           path := path, isArray := false }

/-- Open one more table of the array of tables of a `[[path]]` header spanning `span`. -/
def onArrayHeader (a : Assembly) (path : List Key) (span : Nat × Nat) :
    Except Conflict Assembly := do
  let a ← a.finalize
  match path.getLast? with
  | none => .ok a
  | some key =>
    let parents := path.dropLast
    let k : Frame → Except Conflict (Frame × Unit) := fun parent =>
      match parent.find? key.1 with
      | none => .ok (parent.push key (.tables []), ())
      | some (.tables _) => .ok (parent, ())
      | some _ => .error (.duplicateKey key.1 (some (parents.map (·.1))))
    let (root, _) ← Frame.descend false k [] parents a.root
    pure { root := root, current := { span := some span }, path := path, isArray := true }

end Assembly

end Toml

end ReleaseBuild
