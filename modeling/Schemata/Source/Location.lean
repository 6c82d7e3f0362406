import Schemata.Pointer

/-!
# `Schemata.Source.Location` — where the values of a document are written

## Contents
- **Source maps.** `Position`, `SourceMap` with `SourceMap.get?` and `SourceMap.insert`.
- **Ancestors.** `Pointer.ancestors`, a written pointer and all that lead to it.
- **Locations.** `Location`, `SourceMap.locate` and `Location.text`.
-/

namespace Schemata

/-! ## Source maps -/

/-- A line and a column, counted from one; either may be unknown. -/
structure Position where
  line : Option Int
  column : Option Int
deriving DecidableEq, Repr

/-- Whether nothing is known of a position. -/
def Position.isUnknown (p : Position) : Bool := p.line.isNone && p.column.isNone

/-- The positions of the values of a document, by their written pointers. -/
abbrev SourceMap := List (String × Position)

namespace SourceMap

/-- The position of a pointer. -/
def get? (map : SourceMap) (pointer : String) : Option Position := map.lookup pointer

/-- Notes the position of a pointer; the last one counts. -/
def insert : SourceMap → String → Position → SourceMap
  | [], pointer, position => [(pointer, position)]
  | (p, q) :: rest, pointer, position =>
    if p = pointer then (p, position) :: rest else (p, q) :: insert rest pointer position

/-- The map of positions that are noted one after the other. -/
def ofList (places : List (String × Position)) : SourceMap :=
  places.foldl (fun map place => map.insert place.1 place.2) []

end SourceMap

/-! ## Ancestors -/

namespace Pointer

/-- A written pointer followed by its ancestors, the closest first. -/
def ancestorsWithin : Nat → String → List String
  | 0, pointer => [pointer]
  | fuel + 1, pointer =>
    match parent? pointer with
    | none => [pointer]
    | some above => pointer :: ancestorsWithin fuel above

/-- A written pointer followed by its ancestors, the closest first. There is one for every slash. -/
def ancestors (pointer : String) : List String :=
  ancestorsWithin (pointer.toList.count '/') pointer

end Pointer

/-! ## Locations -/

/-- A place in a document, as far as it is known. -/
structure Location where
  file : Option String
  pointer : Option String
  line : Option Int
  column : Option Int
deriving DecidableEq, Repr

/-- The location of a pointer. One that is not in the map is where its closest ancestor in the map is. -/
def SourceMap.locate (map : SourceMap) (pointer file : Option String) : Location :=
  match pointer with
  | none => ⟨file, none, none, none⟩
  | some pointer =>
    let known (p : String) : Option Position := (map.get? p).filter fun position => !position.isUnknown
    match (Pointer.ancestors pointer).findSome? known with
    | some position => ⟨file, some pointer, position.line, position.column⟩
    | none => ⟨file, some pointer, none, none⟩

namespace Location

/-- The file of a location with line and column behind it. -/
def placeText (file : String) (line column : Option Int) : String :=
  match line, column with
  | some line, some column => s!"source= {file}:{line}:{column}"
  | some line, none => s!"source= {file}:{line}"
  | none, _ => s!"source= {file}"

/-- A location in parentheses; nothing if neither file nor pointer is known. -/
def text (l : Location) : String :=
  let place := (l.file.map fun file => placeText file l.line l.column).toList
  let pointer := ((l.pointer.filter fun p => !p.isEmpty).map fun p => s!"pointer= {p}").toList
  let parts := place ++ pointer
  if parts.isEmpty then "" else " (" ++ " ".intercalate parts ++ ")"

end Location

end Schemata
