import BlockScript.Text.CharClass

/-!
Texts in quotes. A quotation uses single quotes, or double ones if the text has single
quotes and no double ones. What has no printed form is written as an escape.
-/
namespace BlockScript.Text

def isPrintable (c : Char) : Bool :=
  if c.toNat < 128 then 32 ≤ c.toNat && c.toNat < 127
  else !unprintableRanges.any fun r => r.1 ≤ c.toNat && c.toNat ≤ r.2

def hexText (figures n : Nat) : List Char :=
  let digits := Nat.toDigits 16 n
  List.replicate (figures - digits.length) '0' ++ digits

/-- A character written by its code, in as few bytes as it takes. -/
def codeEscape (c : Char) : List Char :=
  let n := c.toNat
  if n < 0x100 then '\\' :: 'x' :: hexText 2 n
  else if n < 0x10000 then '\\' :: 'u' :: hexText 4 n
  else '\\' :: 'U' :: hexText 8 n

def quotedChar (quote c : Char) : List Char :=
  if c = quote || c = '\\' then ['\\', c]
  else if c = '\t' then ['\\', 't']
  else if c = '\n' then ['\\', 'n']
  else if c = '\r' then ['\\', 'r']
  else if isPrintable c then [c]
  else codeEscape c

def quoteFor (cs : List Char) : Char :=
  if cs.contains '\'' && !cs.contains '"' then '"' else '\''

def quote (cs : List Char) : List Char :=
  let q := quoteFor cs
  q :: cs.flatMap (quotedChar q) ++ [q]

/-- A text in which every character is one of the first 128. -/
def escapeBeyondAscii (cs : List Char) : List Char :=
  cs.flatMap fun c => if c.toNat < 128 then [c] else codeEscape c

end BlockScript.Text
