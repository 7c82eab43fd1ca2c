import ReleaseBuild.Toml.Value
/-!
# TOML documents

A document is a sequence of lines, each blank, a comment, a table header or a key-value pair;
a byte order mark may open it. Lines are read in order into an assembly of tables
(`ReleaseBuild.Toml.Assembly`), and the finished root table is the document's value.

Faults while reading a line end the reading: they are reported at the position where reading
stopped, and a conflict with an earlier definition at the start of the key-value pair or
header that caused it.
-/

namespace ReleaseBuild

namespace Toml

/-- The fault of a definition that conflicts with an earlier one. -/
def conflictFault (i : Nat) (c : Conflict) : Fault :=
  { pos := i, cause := some c.message, cut := true }

/-- The fuel for reading one value: every three nested rules read at least one character. -/
def valueFuel (s : Array Char) : Nat := 3 * s.size + 3

/-- A table header `[a.b]` or `[[a.b]]` at `i`, with the rest of its line. -/
def header (s : Array Char) (a : Assembly) (i : Nat) : Except Fault (Assembly × Nat) :=
  let close (j : Nat) : Fault := { pos := j, expected := [charName '.', charName ']'] }
  let r : Except Fault (Assembly × Nat) :=
    if s.size ≤ i + 1 then .error { pos := i }
    else if s[i + 1]? == some '[' then do
      let (path, j) ← keyPath s (i + 2)
      if !looksAt s j [']', ']'] then throw (close j)
      let k ← lineTrailing s (j + 2)
      match a.onArrayHeader path (i, j + 2) with
      | .ok a => pure (a, k)
      | .error c => throw (conflictFault i c)
    else do
      let (path, j) ← keyPath s (i + 1)
      if s[j]? != some ']' then throw (close j)
      let k ← lineTrailing s (j + 1)
      match a.onTableHeader path (i, j + 1) with
      | .ok a => pure (a, k)
      | .error c => throw (conflictFault i c)
  r.mapError fun f => (f.label "table header").commit

/-- A key-value pair at `i`, with the rest of its line. -/
def keyval (s : Array Char) (a : Assembly) (i : Nat) : Except Fault (Assembly × Nat) :=
  let r : Except Fault (Assembly × Nat) := do
    let (path, j) ← keyPath s i
    if s[j]? != some '=' then throw { pos := j, expected := [charName '.', charName '='] }
    let k := blanks s (j + 1)
    let (v, m) ← value s (valueFuel s) 0 k
    let n ← lineTrailing s m
    match path.getLast? with
    | none => throw { pos := i }
    | some key =>
      match a.onKeyval path.dropLast key (.value v (kindOf v) (k, m)) m with
      | .ok a => pure (a, n)
      | .error c => throw (conflictFault i c)
  r.mapError Fault.commit

/-- The lines of a document from `i`, each followed by blanks. -/
def lines (s : Array Char) : Nat → Assembly → Nat → Except Fault (Assembly × Nat)
  | 0, a, i => .ok (a, i)
  | fuel + 1, a, i =>
    match s[i]? with
    | none => .ok (a, i)
    | some c =>
      let line : Except Fault (Assembly × Nat) :=
        if c == '#' then
          let j := (comment? s i).getD i
          match lineEnd? s j with
          | some k => .ok (a, k)
          | none => .error { pos := j, cut := true }
        else if c == '[' then header s a i
        else if c == '\n' || c == '\r' then
          match newline? s i with
          | some k => .ok (a, k)
          | none => .error { pos := i }
        else keyval s a i
      match line with
      | .ok (a, j) => if i < j then lines s fuel a (blanks s j) else .ok (a, j)
      | .error f => .error f

/-- The byte order mark. -/
def byteOrderMark : Char := Char.ofNat 0xFEFF

/-- Read a document: its root table, or the error that stopped the reading. -/
def parse (text : String) : Except TomlError DocValue :=
  let s := text.toList.toArray
  let start := if s[0]? == some byteOrderMark then 1 else 0
  match lines s (s.size + 1) {} (blanks s start) with
  | .error f => .error f.toError
  | .ok (a, _) =>
    match a.finalize with
    | .ok a => .ok a.root.toDoc
    | .error c => .error ⟨c.message, none⟩

end Toml

end ReleaseBuild
