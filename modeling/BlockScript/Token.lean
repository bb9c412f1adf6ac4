import BlockScript.Decimal.Reader
import BlockScript.Decimal.Text
import BlockScript.Fault
import BlockScript.Problem
import BlockScript.Terminal
import BlockScript.Text.Quoted

/-!
Scanning: a source text as a list of tokens, each with the line and the position at
which it starts. Scanning stops at the first text that no rule accepts, or at a
literal whose text stands for no value, and keeps the tokens before it.
-/
namespace BlockScript

inductive Literal
  | text (s : String)
  | string (s : String)
  | int (n : Nat)
  | float (x : Float)
  deriving Repr

structure Token where
  kind : Terminal
  value : Literal
  line : Nat
  position : Nat
  deriving Repr

inductive ScanError
  | problem (problem : Problem) (position : Nat)
  | fault (fault : Fault)
  deriving Repr

/-- A scanned text: its tokens, the error that ended it if any, and the line reached. -/
structure Scan where
  tokens : List Token
  error : Option ScanError
  line : Nat
  deriving Repr

namespace Scan

open Text

/-- What stands at one place of a text, with the number of characters it takes up. -/
inductive Lexeme
  | token (kind : Terminal) (value : Literal) (length : Nat)
  | newline
  | skipped (length : Nat)
  | error (e : ScanError)

def isWordStart (c : Char) : Bool := c.isAlpha || c = '_'

def digits (cs : List Char) : List Char := cs.takeWhile isDecimalDigit

def decimal? (cs : List Char) : Option (List Char) :=
  let whole := digits cs
  match cs.drop whole.length with
  | '.' :: rest =>
    let fraction := digits rest
    if fraction.isEmpty then none else some (whole ++ '.' :: fraction)
  | _ => none

/-- The base that a letter after a zero announces, and the figures it allows. -/
def base? : Char → Option (Nat × (Char → Bool))
  | 'x' | 'X' => some (16, fun c => isDecimalDigit c || (hexValue? c).isSome)
  | 'o' | 'O' => some (8, fun c => (octalValue? c).isSome)
  | 'b' | 'B' => some (2, fun c => c = '0' || c = '1')
  | _ => none

/-- The figures of a number with a marked base, at the front of a text. -/
def based? : List Char → Option (Nat × List Char)
  | '0' :: c :: rest => do
    let (base, allowed) ← base? c
    let figures := rest.takeWhile allowed
    if figures.isEmpty then none else some (base, figures)
  | _ => none

/-- The value of decimal figures. They are plain digits, and only zero, which may have any
number of them, starts with a zero. -/
def integerValue? (figures : List Char) : Option Nat :=
  if figures.all (· = '0') then some 0
  else if figures.all Char.isDigit && figures.head? ≠ some '0' &&
    figures.length ≤ Decimal.figureLimit
  then some (Decimal.natOfDigits figures)
  else none

def basedValue? (base : Nat) (figures : List Char) : Option Nat :=
  Decimal.readDigits? base false 0 figures

def number? (cs : List Char) : Option Lexeme :=
  match decimal? cs with
  | some text =>
    some <| match Decimal.read? text with
      | some x => .token .decimal (.float x) text.length
      | none => .error (.fault .badValue)
  | none =>
    match based? cs with
    | some (base, figures) =>
      some <| match basedValue? base figures with
        | some n => .token .integer (.int n) (figures.length + 2)
        | none => .error (.fault .badLiteral)
    | none =>
      let figures := digits cs
      if figures.isEmpty then none
      else some <| match integerValue? figures with
        | some n => .token .integer (.int n) figures.length
        | none => .error (.fault .badLiteral)

def string? (quote : Char) (rest : List Char) : Option Lexeme :=
  (closingLength? quote rest).map fun n =>
    match unescape (rest.take (n - 1)) with
    | some text => .token .string (.string (String.ofList text)) (n + 1)
    | none => .error (.fault .badLiteral)

def isPrefixed (spelling : String) (cs : List Char) : Bool := spelling.toList.isPrefixOf cs

def mark? (d : Dialect) (cs : List Char) : Option Lexeme :=
  ((Terminal.marks d).find? fun m => isPrefixed m.1 cs).map fun m =>
    .token m.2 (.text m.1) m.1.length

def comment? (cs : List Char) : Option Lexeme :=
  if isPrefixed "//" cs then some (.skipped (cs.takeWhile (· ≠ '\n')).length) else none

/-- The lexeme at the front of a nonempty text. A word cannot start right after a
word character. -/
def lexeme (d : Dialect) (afterWord : Bool) (position : Nat) (c : Char) (rest : List Char) :
    Lexeme :=
  if c = ' ' || c = '\t' then .skipped 1
  else if c = '\n' then .newline
  else if isWordStart c && !afterWord then
    let word := String.ofList (c :: rest.takeWhile isWordChar)
    .token (Terminal.ofWord d word) (.text word) word.length
  else
    let isQuote := c = '\'' || c = '"'
    let cs := c :: rest
    let found := (if isQuote then string? c rest else none) <|> number? cs <|> comment? cs <|>
      mark? d cs
    let problem := if isQuote then .stringNotClosed else .invalidCharacter
    found.getD (.error (.problem problem position))

/-- Scans a text, of which `skip` more characters belong to the last lexeme. -/
def scanFrom (d : Dialect) (line position : Nat) (afterWord : Bool) (skip : Nat) :
    List Char → Scan
  | [] => ⟨[], none, line⟩
  | c :: rest =>
    if skip ≠ 0 then scanFrom d line (position + 1) (isWordChar c) (skip - 1) rest
    else
      match lexeme d afterWord position c rest with
      | .skipped n => scanFrom d line (position + 1) (isWordChar c) (n - 1) rest
      | .newline => scanFrom d (line + 1) (position + 1) (isWordChar c) 0 rest
      | .error e => ⟨[], some e, line⟩
      | .token kind value n =>
        let tail := scanFrom d line (position + 1) (isWordChar c) (n - 1) rest
        { tail with tokens := ⟨kind, value, line, position⟩ :: tail.tokens }

end Scan

def scan (d : Dialect) (line : Nat) (source : String) : Scan :=
  Scan.scanFrom d line 0 false 0 source.toList

end BlockScript
