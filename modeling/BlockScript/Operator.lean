import BlockScript.Percent

/-!
The operators of the language on compiled values. Where both operands are literals
the result is computed at once; where one is a block a block is built, and a
comparison with the block on its right is turned round.
-/
namespace BlockScript

inductive ArithOp
  | add | sub | mul | div | mod | pow | neg
  deriving DecidableEq, Repr

def ArithOp.spelling : ArithOp → String
  | add => "+"
  | sub => "-"
  | mul => "*"
  | div => "/"
  | mod => "%"
  | pow => "**"
  | neg => "negation"

inductive CompareOp
  | lt | gt | le | ge | eq | ne
  deriving DecidableEq, Repr

def CompareOp.spelling : CompareOp → String
  | lt => "<"
  | gt => ">"
  | le => "<="
  | ge => ">="
  | eq => "=="
  | ne => "!="

inductive LogicOp
  | not | and | or | isIn
  deriving DecidableEq, Repr

def LogicOp.spelling : LogicOp → String
  | not => "not"
  | and => "and"
  | or => "or"
  | isIn => "in"

namespace Value

/-- A literal as a number; truth values count as one and zero. -/
def number? : Value → Option Number
  | bool b => some (.int (if b then 1 else 0))
  | int n => some (.int n)
  | float x => some (.float x)
  | _ => none

def ofNumber : Number → Value
  | .int n => int n
  | .float x => float x

/-- A literal that counts how often something is repeated. -/
def count? : Value → Option Int
  | bool b => some (if b then 1 else 0)
  | int n => some n
  | _ => none

/-- No sequence may have as many items as this. -/
def lengthLimit : Int := Int.pow 2 63

/-- A sequence several times over; a negative number of times gives none of it. -/
def repeated {α : Type} (items : List α) (times : Int) : Except Fault (List α) :=
  if times < -lengthLimit || lengthLimit ≤ times || lengthLimit ≤ items.length * times then
    .error .overflow
  else if items.isEmpty then .ok []
  else .ok (List.replicate times.toNat items).flatten

def repeatedText (s : String) (times : Int) : Except Fault Value := do
  return str (String.ofList (← repeated s.toList times))

def repeatedList (items : List Value) (times : Int) : Except Fault Value := do
  return list (← repeated items times)

def numeric (f : Number → Number → Except Fault Number) (a b : Value) : Except Fault Value :=
  match a.number?, b.number? with
  | some m, some n => do return ofNumber (← f m n)
  | _, _ => .error .typeMismatch

def add (a b : Value) : Except Fault Value :=
  if a.isBlock || b.isBlock then .ok (op .add [a, b])
  else match a, b with
    | str s, str t => .ok (str (s ++ t))
    | list xs, list ys => .ok (list (xs ++ ys))
    | _, _ => numeric Number.add a b

def sub (a b : Value) : Except Fault Value :=
  if a.isBlock || b.isBlock then .ok (op .subtract [a, b]) else numeric Number.sub a b

def mul (a b : Value) : Except Fault Value :=
  if a.isBlock || b.isBlock then .ok (op .multiply [a, b])
  else match a, b, a.count?, b.count? with
    | str s, _, _, some n => repeatedText s n
    | _, str s, some n, _ => repeatedText s n
    | list xs, _, _, some n => repeatedList xs n
    | _, list xs, some n, _ => repeatedList xs n
    | _, _, _, _ => numeric Number.mul a b

def div (a b : Value) : Except Fault Value :=
  if a.isBlock || b.isBlock then .ok (op .divide [a, b]) else numeric Number.div a b

/-- A text before the sign is a template with a place for the value after it. -/
def mod (a b : Value) : Except Fault Value :=
  match a with
  | str s => do return str (← Percent.fill s b)
  | _ => if a.isBlock || b.isBlock then .ok (op .modulo [a, b]) else numeric Number.mod a b

def neg (a : Value) : Except Fault Value :=
  if a.isBlock then .ok (op .multiply [int (-1), a])
  else match a.number? with
    | some n => .ok (ofNumber n.neg)
    | none => .error .typeMismatch

/-- A block multiplied by itself `times + 1` times over. -/
def product (base : Value) : Nat → Value
  | 0 => op .multiply [base, base]
  | times + 1 => op .multiply [product base times, base]

/-- Products with more factors than this nest too deep. -/
def factorLimit : Nat := 1000

/-- A block multiplied by itself until there are as many factors as an exponent says. No
number of steps leads from an exponent below two, or between two integers, to two. -/
def chainedProduct (base exponent : Value) : Except Fault Value :=
  if exponent.isBlock then .ok (product base 0)
  else match exponent.number? with
    | some (.int n) =>
      if n < 2 || factorLimit < n then .error .tooDeep else .ok (product base (n - 2).toNat)
    | some (.float x) =>
      if x < 2.0 || x != x.floor || factorLimit.toFloat < x then .error .tooDeep
      else .ok (product base (x.toUInt64.toNat - 2))
    | none => .error .typeMismatch

def operation (name : String) (v : Value) : Value := op .operation [str name, v]

/-- A power by logarithms: the exponential of the exponent times the logarithm of the
size of the base. -/
def logPower (size exponent : Value) : Value :=
  operation "e_to_the" (op .multiply [operation "natural_logarithm" size, exponent])

/-- The sign of a power: negative for an odd exponent of a negative base. -/
def powerSign (base exponent : Value) : Value :=
  op .add [op .multiply [op .multiply
    [op .lessThan [op .modulo [op .add [exponent, int 1], int 2], int 1],
      op .multiply [int (-1), op .lessThan [base, int 0]]], int 2], int 1]

def signedPower (size exponent : Value) : Value :=
  op .multiply [logPower size exponent, powerSign size exponent]

/-- The size from which on multiplying out takes more blocks than logarithms. -/
def productLimit : Int := 13

abbrev Cheap (size : Nat) (n : Int) : Prop := 0 < size * (n - 1) ∧ size * (n - 1) < productLimit

def product? (base : Value) (exponent : Value) : Except Fault (Option Value) :=
  match exponent with
  | int n => do
    if Cheap (← base.depth) n then return some (← base.chainedProduct exponent) else return none
  | _ => .ok none

/-- What is multiplied out has at least two factors, and few enough. -/
theorem Cheap.chainedProduct {size : Nat} {n : Int} (h : Cheap size n) (base : Value) :
    2 ≤ n ∧ base.chainedProduct (int n) = .ok (base.product (n - 2).toNat) := by
  have hfactors : 2 ≤ n := Int.not_lt.1 fun hn =>
    Int.not_lt.2 (Int.mul_nonpos_of_nonneg_of_nonpos (by omega) (by omega)) h.1
  have hsize : (1 : Int) ≤ size := by
    rcases Nat.eq_zero_or_pos size with rfl | hpos
    · exact absurd h.1 (by simp)
    · omega
  have hfew : n - 1 < productLimit := Int.lt_of_le_of_lt
    (by simpa using Int.mul_le_mul_of_nonneg_right hsize (show 0 ≤ n - 1 by omega)) h.2
  rw [productLimit] at hfew
  refine ⟨hfactors, ?_⟩
  simp [Value.chainedProduct, isBlock, number?, factorLimit, show ¬ n < 2 by omega,
    show ¬ 1000 < n by omega]

theorem product?_int {base : Value} {size : Nat} (h : base.depth = .ok size) (n : Int) :
    product? base (int n) =
      .ok (if Cheap size n then some (base.product (n - 2).toNat) else none) := by
  simp only [product?, h, bind, Except.bind, pure, Except.pure]
  split
  · rename_i hcheap
    rw [(hcheap.chainedProduct base).2]
  · rfl

/-- Powers with a block as base and one of the exponents that have a block of their own. -/
def simplePower? (base : Value) (exponent : Number) : Option Value :=
  if exponent.equal (.int (-1)) then some (op .divide [int 1, base])
  else if exponent.equal (.int 0) then some (int 1)
  else if exponent.equal (.float 0.5) then some (operation "square_root" base)
  else if exponent.equal (.int 1) then some base
  else none

def pow (base exponent : Value) : Except Fault Value :=
  match base.number?, exponent.number? with
  | some m, some n => do
    match ← m.pow n with
    | .real p => return ofNumber p
    | .complex re im => return complex re im
  | some m, none =>
    let size := m.abs
    match size.order? (.int 0) with
    | none => .ok (signedPower (ofNumber size) exponent)
    | some _ => .ok (logPower (ofNumber size) exponent)
  | none, some n =>
    match simplePower? base n with
    | some v => .ok v
    | none => do
      match ← product? base exponent with
      | some v => return v
      | none => return signedPower (operation "absolute" base) exponent
  | none, none => .ok (signedPower (operation "absolute" base) exponent)

/-- A literal as a real number, also one written as a complex number. -/
def real? : Value → Option Number
  | complex re im => if im == 0.0 then some (.float re) else none
  | v => v.number?

mutual

/-- Whether two literals are the same. Blocks are only compared when a project runs, so
here they count as equal to anything. -/
def same : Value → Value → Bool
  | str s, str t => s == t
  | list xs, list ys => sameAll xs ys
  | null, null => true
  | flags s, flags t => s == t
  | target s, target t => s == t
  | complex a b, complex c d => a == c && b == d
  | a, b =>
    if a.isBlock || b.isBlock then true
    else match a.real?, b.real? with
      | some m, some n => m.equal n
      | _, _ => false

def sameAll : List Value → List Value → Bool
  | [], [] => true
  | a :: as, b :: bs => same a b && sameAll as bs
  | _, _ => false

end

def orderText (s t : String) : Ordering :=
  if s < t then .lt else if t < s then .gt else .eq

mutual

/-- The order of two literals of one kind. Lists are ordered by the first items that
differ, or else by their lengths. -/
def order? : Value → Value → Except Fault (Option Ordering)
  | str s, str t => .ok (some (orderText s t))
  | list xs, list ys => orderAll xs ys
  | a, b =>
    match a.number?, b.number? with
    | some m, some n => .ok (m.order? n)
    | _, _ => .error .typeMismatch

def orderAll : List Value → List Value → Except Fault (Option Ordering)
  | [], [] => .ok (some .eq)
  | [], _ :: _ => .ok (some .lt)
  | _ :: _, [] => .ok (some .gt)
  | a :: as, b :: bs => if same a b then orderAll as bs else order? a b

end

def holds : CompareOp → Option Ordering → Bool
  | .lt, o => o == some .lt
  | .gt, o => o == some .gt
  | .le, o => o == some .lt || o == some .eq
  | .ge, o => o == some .gt || o == some .eq
  | .eq, o => o == some .eq
  | .ne, o => o != some .eq

def compareLiterals (c : CompareOp) (a b : Value) : Except Fault Value :=
  match c with
  | .eq => .ok (bool (same a b))
  | .ne => .ok (bool (!same a b))
  | _ => do return bool (holds c (← order? a b))

def compareBlocks : CompareOp → Value → Value → Value
  | .lt, a, b => op .lessThan [a, b]
  | .gt, a, b => op .greaterThan [a, b]
  | .le, a, b => op .not [op .greaterThan [a, b]]
  | .ge, a, b => op .not [op .lessThan [a, b]]
  | .eq, a, b => op .equals [a, b]
  | .ne, a, b => op .not [op .equals [a, b]]

end Value

def CompareOp.flip : CompareOp → CompareOp
  | lt => gt
  | gt => lt
  | le => ge
  | ge => le
  | eq => eq
  | ne => ne

namespace Value

def compare (c : CompareOp) (a b : Value) : Except Fault Value :=
  if a.isBlock then .ok (compareBlocks c a b)
  else if b.isBlock then .ok (compareBlocks c.flip b a)
  else compareLiterals c a b

def truthBlock (b : Bool) : Value := op .equals [int (if b then 1 else 0), int 1]

/-- Negation. A negated block loses its negation. -/
def logicalNot : Value → Except Fault Value
  | bool b => .ok (op .equals [int (if b then 1 else 0), int 0])
  | block .not arguments _ _ =>
    match arguments.find? isBlock with
    | some inner => .ok inner
    | none => .error .outOfRange
  | v => .ok (op .not [v])

def logicalAnd : Value → Value → Value
  | bool x, bool y => truthBlock (x && y)
  | bool x, v => if x then v else op .not [v]
  | v, bool y => if y then v else op .not [v]
  | v, w => op .and [v, w]

def logicalOr : Value → Value → Value
  | bool x, bool y => truthBlock (x || y)
  | bool x, v => if x then op .equals [int 1, int 1] else v
  | v, bool y => if y then op .equals [int 1, int 1] else v
  | v, w => op .or [v, w]

def occursIn (part : List Char) : List Char → Bool
  | [] => part.isEmpty
  | c :: rest => part.isPrefixOf (c :: rest) || occursIn part rest

def contains (part whole : Value) : Except Fault Value :=
  match part, whole with
  | str s, str t => .ok (truthBlock (occursIn s.toList t.toList))
  | _, _ => do
    if (← whole.type?) == some (.typed .ofString) then return op .contains [whole, part]
    else return op .listContains [whole, part]

end Value

/-- Applies an operator to operands, of which there must be the right number. -/
def ArithOp.apply : ArithOp → List Value → Except Fault Value
  | add, [a, b] => a.add b
  | sub, [a, b] => a.sub b
  | mul, [a, b] => a.mul b
  | div, [a, b] => a.div b
  | mod, [a, b] => a.mod b
  | pow, [a, b] => a.pow b
  | neg, [a] => a.neg
  | _, _ => .error .typeMismatch

def CompareOp.apply (c : CompareOp) : List Value → Except Fault Value
  | [a, b] => a.compare c b
  | _ => .error .typeMismatch

def LogicOp.apply : LogicOp → List Value → Except Fault Value
  | not, [a] => a.logicalNot
  | and, [a, b] => .ok (a.logicalAnd b)
  | or, [a, b] => .ok (a.logicalOr b)
  | isIn, [a, b] => a.contains b
  | _, _ => .error .typeMismatch

end BlockScript
