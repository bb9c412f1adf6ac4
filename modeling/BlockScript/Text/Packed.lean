import BlockScript.Text.Ranges

/-!
How the table of names is packed. The table is a text of marks: most of them continue a name,
and some end it and begin the next one. A mark is six answers of yes or no. The answers given in
similar places before say how likely each answer is, and so does the mark that came after the same
marks before. Each of them counts by how well it foretold the answers so far. The packed text is a
number between the bounds that the answers set.
-/
namespace BlockScript.Text

def endsPiece (c : Char) : Bool := c = ' ' || c = '-'

def firstPieces : Nat → List Char → List Char
  | 0, _ => []
  | _, [] => []
  | count + 1, c :: rest =>
    c :: (if endsPiece c then firstPieces count rest else firstPieces (count + 1) rest)

def smallTwin : List Char → List Char
  | [] => []
  | c :: rest =>
    if "CAPITAL".toList.isPrefixOf (c :: rest) then "SMALL".toList ++ (c :: rest).drop 7
    else c :: smallTwin rest

def lastFigures (name : List Char) : List Char := (name.reverse.takeWhile Char.isDigit).reverse

def numberStem (name : List Char) : List Char := name.take (name.length - (lastFigures name).length)

def figuresValue (figures : List Char) : Nat :=
  figures.foldl (fun value c => 10 * value + (c.toNat - '0'.toNat)) 0

/-- The names between two that differ in their figures only. -/
def namesBetween (first last : List Char) : List (List Char) :=
  let figures := lastFigures first
  let low := figuresValue figures
  (List.range (figuresValue (lastFigures last) - low - 1)).map fun i =>
    let digits := Nat.toDigits 10 (low + 1 + i)
    numberStem first ++ List.replicate (figures.length - digits.length) '0' ++ digits

def tableMarks : List Char := "\nabcdefghij=/~ -0123456789ABCDEFGHIJKLMNOPQRSTUVWXYZ".toList

def isCut (c : Char) : Bool := c.isLower || c = '=' || c = '/' || c = '\n'

/-- Names being read. The current one stands from its last character back to its first. -/
structure Naming where
  runs : Array (Array String) := #[]
  names : Array String := #[]
  name : List Char := []
  /-- What is left of the name before, beside the current piece. -/
  guide : List Char := []
  /-- Whether all numbers since the name before have names as well. -/
  counted : Bool := false
  /-- The last marks, and the last ones that ended a name. -/
  last : List Char := []
  cuts : List Char := []

/-- What is left of a name beside a character of the next. Both begin a new piece together. -/
def beside (c : Char) : List Char → List Char
  | [] => []
  | g :: guide =>
    if endsPiece c then ((g :: guide).dropWhile (!endsPiece ·)).drop 1
    else if endsPiece g then g :: guide
    else guide

/-- The end of a name. A tilde after it stands for each code point that has none. -/
def Naming.finish (u : Naming) : Naming :=
  let name := (u.name.dropWhile (· = '~')).reverse
  let between := if u.counted then namesBetween (u.names.back?.getD "").toList name else []
  let gaps := List.replicate (u.name.takeWhile (· = '~')).length []
  { u with names := u.names ++ (between ++ name :: gaps).map String.ofList, name }

/-- One mark. A small letter ends a name and begins the next, which shares as many pieces with
it as the letter stands after `a`. After an equals sign comes the small letter of a capital one.
After a slash only the figures change. The end of a line ends a run. -/
def Naming.read (u : Naming) (c : Char) : Naming :=
  let last := (c :: u.last).take 5
  if isCut c then
    let u := u.finish
    let shared :=
      if c = '=' then smallTwin u.name
      else if c = '/' then numberStem u.name
      else firstPieces (c.toNat - 'a'.toNat) u.name
    let u := if c = '\n' then { u with runs := u.runs.push u.names, names := #[] } else u
    { u with
      name := shared.reverse, guide := u.name.drop shared.length, counted := c = '/', last,
      cuts := (c :: u.cuts).take 2 }
  else { u with name := c :: u.name, guide := beside c u.guide, last }

def Naming.atStart (u : Naming) : Bool := u.last.head?.all isCut

def stir (key : UInt32) (c : Char) : UInt32 :=
  let key := (key + c.val) * 0x9e3779b1
  key ^^^ (key >>> 15)

def stirFirst : Nat → List Char → UInt32 → UInt32
  | count + 1, c :: rest, key => stirFirst count rest (stir key c)
  | _, _, key => stir key '|'

def stirPiece : List Char → UInt32 → UInt32
  | [], key => stir key '|'
  | c :: rest, key => if endsPiece c then stir key '|' else stirPiece rest (stir key c)

/-- Keys for the ten kinds of places that are told apart: by the last marks, by the last
characters, and by the current piece and what stands beside it in the name before. -/
def Naming.keys (u : Naming) : List UInt32 :=
  let kind (n : UInt32) : UInt32 := 2 * n + if u.atStart then 1 else 0
  [stirFirst 1 u.last (kind 0), stirFirst 3 u.last (kind 1), stirFirst 2 u.name (kind 2),
   stirFirst 4 u.name (kind 3), stirFirst 7 u.name (kind 4), stirPiece u.name (kind 5),
   stirPiece u.guide (stirPiece u.name (kind 6)),
   stirFirst 2 u.guide (stirFirst 1 u.name (kind 7)),
   stirFirst 1 u.cuts (stirFirst 1 u.guide (stirFirst 2 u.name (kind 8))),
   stirFirst 1 u.guide (stirFirst 9 (u.name.filter endsPiece) (stirFirst 2 u.cuts (kind 9)))]

/-- How long the current piece is, and whether another piece, or its end, stands beside it. -/
def Naming.inPiece (u : Naming) : Nat :=
  3 * min 7 (u.name.takeWhile (!endsPiece ·)).length +
    match u.guide with
    | [] => 0
    | g :: _ => if endsPiece g then 1 else 2

/-- The logistic function at odds from -2048 to 2048. -/
def logisticPoints : Array Nat :=
  #[1, 2, 3, 6, 10, 16, 27, 45, 73, 120, 194, 310, 488, 747, 1101, 1546, 2047, 2549, 2994, 3348,
    3607, 3785, 3901, 3975, 4022, 4050, 4068, 4079, 4085, 4089, 4092, 4093, 4094]

/-- The chance, in parts of 4096, at odds whose logarithm is in parts of 256. -/
def chanceOf (odds : Int) : Nat :=
  let place := (max (-2047) (min 2047 odds) + 2048).toNat
  let part := place % 128
  (logisticPoints.getD (place / 128) 0 * (128 - part) +
    logisticPoints.getD (place / 128 + 1) 0 * part + 64) / 128

/-- The least odds at which a chance is reached, for each chance. -/
def oddsTable : Array Int :=
  ((List.range 4095).foldl (fun table (i : Nat) =>
    let odds : Int := i - 2047
    table ++ Array.replicate (chanceOf odds + 1 - table.size) odds) #[]).push 2047

/-- What is known of an answer is its chance in parts of 65536, and how often it was asked for, up to
63 times. -/
def oddsOf (known : Nat) : Int := oddsTable.getD (known / 4096) 0

/-- A chance after an answer. The more often it was asked for, the less it moves. -/
def relearned (answer : Bool) (known : Nat) : Nat :=
  let chance := known / 256
  let seen := known % 256
  let moved := if answer then chance + (65535 - chance) * 2 / (2 * seen + 3)
    else chance - chance * 2 / (2 * seen + 3)
  256 * moved + min 63 (seen + 1)

/-- The last answers at a place, up to seven of them, after a leading one. -/
def remembered (answer : Bool) (history : Nat) : Nat :=
  if history < 128 then 2 * history + answer.toNat else 128 + (2 * history + answer.toNat) % 128

/-- What is learned from the answers so far: a chance and the last answers for each place, a chance
for what comes after them at each kind of place, one for marks that are repeated, and weights. -/
structure Experience where
  places : Array Nat := Array.replicate 0x1000000 0x80000001
  after : Array Nat := Array.replicate 2560 0x800000
  repeats : Array Nat := Array.replicate 16 0x800000
  weights : Array Int := Array.replicate 13440 7000

/-- The odds that each place gives. All are at the same distance from the start of their rows. -/
def oddsAt (places after : Array Nat) (offset : Nat) : Nat → List Nat → List Int
  | _, [] => []
  | kind, row :: rows =>
    let place := places.getD (row + offset) 0
    oddsOf (place / 256) :: oddsOf (after.getD (kind + place % 256) 0) ::
      oddsAt places after offset (kind + 256) rows

def weighed (weights : Array Int) : Nat → List Int → Int
  | _, [] => 0
  | i, odds :: rest => weights.getD i 0 * odds + weighed weights (i + 1) rest

/-- Weights move toward the odds that foretold the answer. -/
def reweighed (error : Int) : Nat → List Int → Array Int → Array Int
  | _, [], weights => weights
  | i, odds :: rest, weights =>
    reweighed error (i + 1) rest (weights.modify i (· + error * odds / 2000))

/-- Learns from an answer at some places. -/
def learn (answer : Bool) (offset : Nat) (places after : Array Nat) :
    Nat → List Nat → Array Nat × Array Nat
  | _, [] => (places, after)
  | kind, row :: rows =>
    let place := places.getD (row + offset) 0
    learn answer offset
      (places.set! (row + offset)
        (256 * relearned answer (place / 256) + remembered answer (place % 256)))
      (after.modify (kind + place % 256) (relearned answer)) (kind + 256) rows

/-- The next seven digits of a packed text, as a number between bounds, and the rest. -/
structure Bounds where
  rest : List Nat
  low : Nat := 0
  high : Nat := 47829689999999
  value : Nat := 0

def Bounds.settle : Nat → Bounds → Bounds
  | 0, b => b
  | count + 1, b =>
    let top := 531441000000
    if b.low / top = b.high / top then
      settle count ⟨b.rest.tail, b.low % top * 90, b.high % top * 90 + 89,
        b.value % top * 90 + b.rest.headD 0⟩
    else b

/-- All marks, where the same marks stood last, and the mark that came after them then. -/
structure Recall where
  marks : Array Nat := #[]
  latest : Array Nat := Array.replicate 0x40000 0
  next : Nat := 0
  /-- How many marks have been repeated, up to 15. -/
  length : Nat := 0

def Recall.note (mark : Nat) (key : UInt32) : Recall → Recall
  | ⟨marks, latest, next, length⟩ =>
    let i := (key >>> 14).toNat
    let place := latest.getD i 0
    let (next, length) :=
      if 0 < length && marks.getD next 0 = mark then (next + 1, min 15 (length + 1))
      else (place, min 1 place)
    let marks := marks.push mark
    ⟨marks, latest.set! i marks.size, next, length⟩

/-- The two figures of the mark that is expected. -/
def Recall.expected (r : Recall) : Nat × Nat :=
  if r.length = 0 then (0, 0)
  else
    let mark := r.marks.getD r.next 0
    (mark / 8 + 8, mark % 8 + 8)

structure Unpacking where
  experience : Experience := {}
  past : Recall := {}
  bounds : Bounds

/-- Reads some answers. The offset stands for those before, from one on. -/
def Unpacking.answers (rows : List Nat) (first second expected offset : Nat) :
    Nat → Unpacking → Nat × Unpacking
  | 0, u => (offset, u)
  | count + 1, ⟨⟨places, after, repeats, weights⟩, past, b⟩ =>
    let foreseen := expected >>> (count + 1) = offset
    let likely := expected >>> count % 2 = 1
    let known := oddsOf (repeats.getD past.length 0)
    let odds := oddsAt places after offset 0 rows ++
      [if !foreseen then 0 else if likely then known else -known]
    let i := 21 * (first + offset)
    let k := 21 * (second + offset)
    let one := weighed weights i odds
    let two := weighed weights k odds
    let middle := b.low + (b.high - b.low) * chanceOf ((one + two) / 131072) / 4096
    let answer : Bool := b.value ≤ middle
    let b := if answer then { b with high := middle } else { b with low := middle + 1 }
    let reweigh (i : Nat) (sum : Int) (weights : Array Int) : Array Int :=
      let error : Int := (if answer then 4096 else 0) - chanceOf (sum / 65536)
      if error.natAbs < 64 then weights else reweighed error i odds weights
    let (places, after) := learn answer offset places after 0 rows
    let repeats :=
      if foreseen then repeats.modify past.length (relearned (answer = likely)) else repeats
    answers rows first second expected (2 * offset + answer.toNat) count
      ⟨⟨places, after, repeats, reweigh k two (reweigh i one weights)⟩, past, b.settle 7⟩

/-- Reads three answers of a mark, where those before are known. -/
def Unpacking.figure (naming : Naming) (keys : List UInt32) (known expected : Nat) (u : Unpacking) :
    Nat × Unpacking :=
  let rows := keys.map fun key =>
    8 * (((key + known.toUInt32 * 0x85ebca6b) * 0xc2b2ae35) >>> 11).toNat
  let first := 8 * (2 * known + naming.atStart.toNat)
  let second := 256 + 8 * (2 * naming.inPiece + min 1 known)
  answers rows first second expected 1 3 u

def readMark (naming : Naming) (u : Unpacking) : Naming × Unpacking :=
  let keys := naming.keys
  let expected := u.past.expected
  let (high, u) := u.figure naming keys 0 expected.1
  let (low, ⟨experience, past, bounds⟩) :=
    u.figure naming keys high (if high = expected.1 then expected.2 else 0)
  let mark := 8 * high + low - 72
  let naming := naming.read (tableMarks.getD mark '~')
  (naming, ⟨experience, past.note mark (stirFirst 5 naming.last 0), bounds⟩)

/-- The first code point of each run, by how many have no name before it. -/
def placedRuns (start : Nat) : List Nat → List (Array String) → List (Nat × Array String)
  | gap :: gaps, names :: runs =>
    let first := (start + gap) % 0x200000
    (first, names) :: placedRuns (first + names.size) gaps runs
  | _, _ => []

/-- The runs of a packed table, with the number of its marks. -/
def unpack (gaps : String) (size : Nat) (text : String) : List (Nat × Array String) :=
  let digits := digitsOf text
  let bounds := { rest := digits.drop 7, value := (digits.take 7).foldl (90 * · + ·) 0 }
  let (naming, _) := (List.range size).foldl (fun (naming, u) _ => readMark naming u)
    ({}, { bounds })
  placedRuns 0 (numbersFrom 0 (digitsOf gaps)) naming.runs.toList

end BlockScript.Text
