import BlockScript.Problem
import BlockScript.Text.Template
import BlockScript.Value

/-!
Checking the types of operands. A check lists the combinations that are allowed; the
first combination in which every operand shares a flag with what is asked of it
passes, and if none does the operands' types are named in a message.
-/
namespace BlockScript.Typing

/-- Whether a type has something in common with the one asked for. Only proper types
can be compared. -/
def compatible : Option DataType → Option TypeSet → Except Fault Bool
  | some (.typed t), some wanted => .ok (t.meets wanted)
  | _, _ => .error .typeMismatch

def fits : List (Option DataType) → List (Option TypeSet) → Except Fault Bool
  | t :: types, w :: wanted => do
    if ← compatible t w then fits types wanted else return false
  | _, _ => .ok true

def fitsAny (types : List (Option DataType)) : List (List (Option TypeSet)) → Except Fault Bool
  | [] => .ok false
  | wanted :: rest => do
    if ← fits types wanted then return true else fitsAny types rest

def typeName : Option DataType → String
  | some t => t.name
  | none => "None"

def problem? (allowed : List (List (Option TypeSet))) (types : List (Option DataType))
    (template : String) : Except Fault (Option Problem) := do
  if ← fitsAny types allowed then return none
  else return some (.mismatch (← Text.fill template (types.map typeName)))

def typesOf : List Value → Except Fault (List (Option DataType))
  | [] => .ok []
  | v :: rest => do return (← v.type?) :: (← typesOf rest)

def check (allowed : List (List TypeSet)) (operands : List Value) (template : String) :
    Except Fault (Option Problem) := do
  problem? (allowed.map (·.map some)) (← typesOf operands) template

end BlockScript.Typing
