/-!
Patterns for file names: `*` stands for any characters, `?` for one, and brackets for
one of a set of characters, or one outside the set if it begins with `!`. A bracket
that is not closed stands for itself.
-/
namespace BlockScript.Text

inductive Wildcard
  | char (c : Char)
  | one
  | any
  | set (negated : Bool) (ranges : List (Char × Char))
  deriving DecidableEq, Repr

namespace Wildcard

/-- The ranges between two brackets. A hyphen between two characters makes a range. -/
def ranges : List Char → List (Char × Char)
  | a :: '-' :: b :: rest => (a, b) :: ranges rest
  | a :: rest => (a, a) :: ranges rest
  | [] => []

/-- The text up to the bracket that closes a set, and how many characters that takes. A
closing bracket at the very front belongs to the set. -/
def closing? (cs : List Char) : Option (List Char) :=
  let (head, body) := match cs with
    | '!' :: ']' :: rest => (['!', ']'], rest)
    | '!' :: rest => (['!'], rest)
    | ']' :: rest => ([']'], rest)
    | _ => ([], cs)
  if body.contains ']' then some (head ++ body.takeWhile (· != ']')) else none

/-- A set without the empty ranges at its front. -/
def withoutEmptyRanges : List Char → List Char
  | a :: '-' :: b :: rest => if b < a then withoutEmptyRanges rest else a :: '-' :: b :: rest
  | cs => cs

/-- The set that stands between two brackets. An exclamation mark that comes first, or
first after empty ranges, is no part of the set, not even as the start of a range. -/
def ofSet : List Char → Wildcard
  | '!' :: body => set true (ranges body)
  | body =>
    match withoutEmptyRanges body with
    | '!' :: '-' :: b :: rest => set true (('-', '-') :: (b, b) :: ranges rest)
    | '!' :: rest => set true (ranges rest)
    | cs => set false (ranges cs)

/-- The parts of a pattern; `skip` more characters belong to the last part. -/
def parseFrom (skip : Nat) : List Char → List Wildcard
  | [] => []
  | c :: rest =>
    if skip ≠ 0 then parseFrom (skip - 1) rest
    else match c with
      | '*' => any :: parseFrom 0 rest
      | '?' => one :: parseFrom 0 rest
      | '[' =>
        match closing? rest with
        | some body => ofSet body :: parseFrom (body.length + 1) rest
        | none => char '[' :: parseFrom 0 rest
      | _ => char c :: parseFrom 0 rest

def parse (pattern : String) : List Wildcard := parseFrom 0 pattern.toList

def accepts : Wildcard → Char → Bool
  | char c, d => c == d
  | one, _ => true
  | any, _ => true
  | set negated rs, d => (rs.any fun r => r.1 ≤ d && d ≤ r.2) != negated

/-- All that is left of a text after some of its first characters. -/
def rests : List Char → List (List Char)
  | [] => [[]]
  | c :: rest => (c :: rest) :: rests rest

def fits : List Wildcard → List Char → Bool
  | [], cs => cs.isEmpty
  | any :: ws, cs => (rests cs).any (fits ws)
  | _ :: _, [] => false
  | w :: ws, c :: cs => w.accepts c && fits ws cs

end Wildcard

def hasWildcard (text : String) : Bool := text.toList.any fun c => c == '*' || c == '?' || c == '['

def fitsPattern (pattern name : String) : Bool :=
  Wildcard.fits (Wildcard.parse pattern) name.toList

end BlockScript.Text
