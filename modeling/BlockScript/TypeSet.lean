/-!
The types of the language as sets of four flags. A type describes which kinds of
value may stand in a place, so two types are compatible when they share a flag.
-/
namespace BlockScript

structure TypeSet where
  number : Bool
  string : Bool
  boolean : Bool
  list : Bool
  deriving DecidableEq, Repr

namespace TypeSet

def none : TypeSet := ⟨false, false, false, false⟩

def ofNumber : TypeSet := ⟨true, false, false, false⟩

def ofString : TypeSet := ⟨false, true, false, false⟩

def ofBoolean : TypeSet := ⟨false, false, true, false⟩

/-- The type of a variable that may hold any single value. -/
def general : TypeSet := ⟨true, true, true, false⟩

def ofList : TypeSet := ⟨false, false, false, true⟩

def union (a b : TypeSet) : TypeSet :=
  ⟨a.number || b.number, a.string || b.string, a.boolean || b.boolean, a.list || b.list⟩

def inter (a b : TypeSet) : TypeSet :=
  ⟨a.number && b.number, a.string && b.string, a.boolean && b.boolean, a.list && b.list⟩

/-- Two types are compatible when some value belongs to both. -/
def meets (a b : TypeSet) : Bool := a.inter b != none

/-- The flags of a type by name, in the order in which they are listed. -/
def flagNames (t : TypeSet) : List String :=
  (if t.number then ["number"] else []) ++ (if t.string then ["string"] else []) ++
    (if t.boolean then ["boolean"] else []) ++ (if t.list then ["list"] else [])

/-- The general type is called `variable`; any other union lists its flags. -/
def name (t : TypeSet) : String :=
  if t = general then "variable" else "/".intercalate t.flagNames

def constantName (t : TypeSet) : String :=
  if t = none then "Types(0)"
  else if t = general then "Types.GENERAL"
  else "Types." ++ "|".intercalate (t.flagNames.map String.toUpper)

def ofFlagName : String → TypeSet
  | "number" => ofNumber
  | "string" => ofString
  | "boolean" => ofBoolean
  | "variable" => general
  | "list" => ofList
  | _ => none

def ofName (s : String) : TypeSet :=
  (s.splitOn "/").foldl (fun t flag => t.union (ofFlagName flag)) none

end TypeSet

end BlockScript
