import BlockScript.Decimal.Text
import BlockScript.Text.Quotation
import BlockScript.Value

/-!
Literals as text. A text stands for itself on its own and in quotes inside a list. Blocks
have no text.
-/
namespace BlockScript.Value

/-- Part of a complex number: a whole one has no point. -/
def partText (x : Float) : List Char :=
  let cs := (Decimal.write x).toList
  if cs.drop (cs.length - 2) = ['.', '0'] then cs.take (cs.length - 2) else cs

def complexText (re im : Float) : List Char :=
  let second := partText im ++ ['j']
  if re.toBits = 0 then second
  else
    let joint := if second.head? = some '-' then [] else ['+']
    '(' :: partText re ++ joint ++ second ++ [')']

def integerText (n : Int) : Except Fault (List Char) :=
  match Decimal.writeInt? n with
  | some s => .ok s.toList
  | none => .error .badValue

mutual

/-- A literal as it is written inside a list. -/
def quoted : Value → Except Fault (List Char)
  | null => .ok "None".toList
  | bool b => .ok (if b then "True" else "False").toList
  | int n => integerText n
  | float x => .ok (Decimal.write x).toList
  | complex re im => .ok (complexText re im)
  | str s => .ok (Text.quote s.toList)
  | list items => do return '[' :: (← quotedItems items) ++ [']']
  | flags t => .ok t.name.toList
  | _ => .ok []

def quotedItems : List Value → Except Fault (List Char)
  | [] => .ok []
  | [v] => quoted v
  | v :: rest => do
    let first ← quoted v
    return first ++ ',' :: ' ' :: (← quotedItems rest)

end

def text : Value → Except Fault (List Char)
  | str s => .ok s.toList
  | flags t => .ok t.constantName.toList
  | v => v.quoted

def textString (v : Value) : Except Fault String := do return String.ofList (← v.text)

/-- The text of a literal, and nothing for what has no text. -/
def plainText (v : Value) : String := v.textString.toOption.getD ""

end BlockScript.Value
