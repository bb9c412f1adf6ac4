import BlockScript.Value

/-!
Records: values, lists, and nodes with named fields, as trees are exchanged with other
programs.
-/
namespace BlockScript

inductive Record
  | value (v : Value)
  | list (items : List Record)
  | node (fields : List (String × Record))

namespace Record

instance : Inhabited Record := ⟨value .null⟩

def str (s : String) : Record := value (.str s)

def flags (t : TypeSet) : Record := value (.flags t)

def field? (r : Record) (key : String) : Option Record :=
  match r with
  | .node fields => fields.lookup key
  | _ => none

def items : Record → List Record
  | .list items => items
  | _ => []

def text? : Record → Option String
  | .value (.str s) => some s
  | _ => none

end Record

end BlockScript
