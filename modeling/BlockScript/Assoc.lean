/-!
Tables that keep their entries in the order in which the keys were first put in.
-/
namespace BlockScript

abbrev Assoc (κ υ : Type) := List (κ × υ)

namespace Assoc

variable {κ υ : Type} [BEq κ]

/-- Puts an entry in the place of the one with the same key, or at the end. -/
def put (key : κ) (value : υ) : Assoc κ υ → Assoc κ υ
  | [] => [(key, value)]
  | (k, v) :: rest => if k == key then (k, value) :: rest else (k, v) :: put key value rest

def get? (key : κ) (table : Assoc κ υ) : Option υ := List.lookup key table

def keys (table : Assoc κ υ) : List κ := table.map (·.1)

end Assoc

end BlockScript
