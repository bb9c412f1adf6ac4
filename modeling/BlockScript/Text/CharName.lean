import BlockScript.Text.CharClass
import BlockScript.Text.Names

/-!
Characters by name, after version 14 of the Unicode character database. Most names
stand in a table, a run of neighbouring characters at a time. Ideographs are named by
their code points, and the syllables of Hangul by their sounds.
-/
namespace BlockScript.Text

def listed? (name : List Char) : Option Nat :=
  if name = [] then none
  else namedRuns.findSome? fun (first, names) =>
    (names.idxOf? (String.ofList name)).map (first + ·)

def afterStem? (stem : String) (name : List Char) : Option (List Char) :=
  if stem.toList.isPrefixOf name then some (name.drop stem.length) else none

/-- The number that four or five hexadecimal figures stand for. Letters are capital. -/
def codeValue? (figures : List Char) : Option Nat :=
  if figures.length ≠ 4 && figures.length ≠ 5 then none
  else figures.foldlM (fun value c =>
    if c.isLower then none else (hexValue? c).map (16 * value + ·)) 0

/-- Characters that are named by a common stem and their own code points. -/
structure NumberedNames where
  stem : String
  ranges : List (Nat × Nat)

def NumberedNames.code? (names : NumberedNames) (name : List Char) : Option Nat := do
  let code ← codeValue? (← afterStem? names.stem name)
  if names.ranges.any fun r => r.1 ≤ code && code ≤ r.2 then some code else none

/-- Ideographs whose code points may be padded with a zero. -/
def unifiedIdeographs : NumberedNames :=
  ⟨"CJK UNIFIED IDEOGRAPH-",
    [(0x3400, 0x4dbf), (0x4e00, 0x9fff), (0x20000, 0x2a6df), (0x2a700, 0x2b738),
     (0x2b740, 0x2b81d), (0x2b820, 0x2cea1), (0x2ceb0, 0x2ebe0), (0x30000, 0x3134a)]⟩

def numberedNames : List NumberedNames :=
  [⟨"CJK COMPATIBILITY IDEOGRAPH-", [(0xf900, 0xfa6d), (0xfa70, 0xfad9), (0x2f800, 0x2fa1d)]⟩,
   ⟨"KHITAN SMALL SCRIPT CHARACTER-", [(0x18b00, 0x18cd5)]⟩,
   ⟨"NUSHU CHARACTER-", [(0x1b170, 0x1b2fb)]⟩]

/-- The code point of a character that is named by it, written in the shortest way. -/
def numbered? (name : List Char) : Option Nat :=
  numberedNames.findSome? fun names =>
    if (afterStem? names.stem name).any fun figures => figures.head? = some '0' then none
    else names.code? name

def initialSounds : List String :=
  ["G", "GG", "N", "D", "DD", "R", "M", "B", "BB", "S", "SS", "", "J", "JJ", "C", "K", "T", "P",
   "H"]

def medialSounds : List String :=
  ["A", "AE", "YA", "YAE", "EO", "E", "YEO", "YE", "O", "WA", "WAE", "OE", "YO", "U", "WEO", "WE",
   "WI", "YU", "EU", "YI", "I"]

def finalSounds : List String :=
  ["", "G", "GG", "GS", "N", "NJ", "NH", "D", "L", "LG", "LM", "LB", "LS", "LT", "LP", "LH", "M",
   "B", "BS", "S", "SS", "NG", "J", "C", "K", "T", "P", "H"]

/-- The places of the three sounds of a syllable, each in the list of its kind. -/
def sounds? (name : List Char) : Option (Nat × Nat × Nat) :=
  initialSounds.zipIdx.findSome? fun (initial, i) =>
    (afterStem? initial name).bind fun rest =>
      medialSounds.zipIdx.findSome? fun (medial, m) =>
        (afterStem? medial rest).bind fun rest =>
          (finalSounds.idxOf? (String.ofList rest)).map fun f => (i, m, f)

/-- The code point of a syllable: all finals follow one another, then all medials. -/
def syllable? (name : List Char) : Option Nat := do
  let (i, m, f) ← sounds? (← afterStem? "HANGUL SYLLABLE " name)
  some (0xac00 + (i * medialSounds.length + m) * finalSounds.length + f)

/-- The character of a name. Small letters are as good as capital ones, but not in the
names of syllables and of unified ideographs. -/
def charNamed? (name : List Char) : Option Char :=
  let capital := name.map Char.toUpper
  (syllable? name <|> unifiedIdeographs.code? name <|> numbered? capital <|>
    listed? capital).map Char.ofNat

end BlockScript.Text
