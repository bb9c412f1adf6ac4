import BlockScript.Operator
import Mathlib

/-!
What the blocks of a power come to, with blocks read as real numbers. A power that is
multiplied out is exact. One by logarithms loses the sign of its base: the factor that should
bring it back looks at the absolute value. How many blocks either form takes shows where
multiplying out, which is chosen by an estimate, is the longer one.
-/
namespace BlockScript

section

open Float.Model UnpackedFloat

/-- Packing keeps the sign apart from the other fields. -/
theorem pack_abs (spec : Format) {u : UnpackedFloat} (h : u ≠ .notANumber) :
    ∃ s exponent mantissa, u.pack spec = packComponents spec s exponent mantissa ∧
      u.abs.pack spec = packComponents spec .positive exponent mantissa := by
  cases u with
  | notANumber => exact absurd rfl h
  | finite s m e hm =>
    simp only [UnpackedFloat.abs, UnpackedFloat.pack]
    split
    · exact ⟨s, _, _, rfl, rfl⟩
    · split <;> exact ⟨s, _, _, rfl, rfl⟩
  | _ s => exact ⟨s, _, _, rfl, rfl⟩

theorem unpack_positive (s : Sign) (exponent : BitVec spec.exponentBits)
    (mantissa : BitVec spec.mantissaBitsWithoutImplicit) :
    UnpackedFloat.unpack spec (packComponents spec .positive exponent mantissa) =
      (UnpackedFloat.unpack spec (packComponents spec s exponent mantissa)).abs := by
  simp only [UnpackedFloat.unpack, unpackExponent_packComponents, unpackMantissa_packComponents,
    unpackSign_packComponents, Sign.ofBitVec_toBitVec]
  repeat' split
  all_goals rfl

theorem unpack_abs (x : Float) : x.abs.toModel.unpack = x.toModel.unpack.abs := by
  change UnpackedFloat.unpack .binary64 (x.toModel.unpack.abs.pack .binary64) = _
  by_cases hx : x.toModel.unpack = .notANumber
  · rw [hx]
    exact unpack_packedNaN
  · obtain ⟨s, exponent, mantissa, hpack, habs⟩ := pack_abs .binary64 hx
    rw [habs, unpack_positive s, hpack.symm.trans (pack_unpack_of_valid x.toModel.valid)]
    rfl

/-- The exact size of a floating-point number; what is not finite counts as zero. -/
noncomputable def amount (x : Float) : ℝ :=
  match x.toModel.unpack with
  | .finite .positive m e _ => m * (2 : ℝ) ^ e
  | .finite .negative m e _ => -(m * (2 : ℝ) ^ e)
  | _ => 0

theorem amount_abs {x : Float} : amount x.abs = |amount x| := by
  unfold amount
  rw [unpack_abs]
  cases x.toModel.unpack with
  | finite s m e hm =>
    have hsize : (0 : ℝ) ≤ m * (2 : ℝ) ^ e := by positivity
    cases s <;> simp [UnpackedFloat.abs, abs_of_nonneg hsize]
  | _ => simp [UnpackedFloat.abs]

end

namespace Value

/-- What a block makes of two numbers; a comparison gives one or zero. -/
noncomputable def combination : Opcode → ℝ → ℝ → Option ℝ
  | .add, x, y => some (x + y)
  | .multiply, x, y => some (x * y)
  | .divide, x, y => if y = 0 then none else some (x / y)
  | .modulo, x, y => if y = 0 then none else some (x - y * ⌊x / y⌋)
  | .lessThan, x, y => some (if x < y then 1 else 0)
  | _, _, _ => none

noncomputable def function : String → ℝ → Option ℝ
  | "absolute", x => some |x|
  | "natural_logarithm", x => some (Real.log x)
  | "e_to_the", x => some (Real.exp x)
  | _, _ => none

/-- The number that a value stands for, where it is given what variables and other blocks stand
for. -/
noncomputable def quantity (given : Value → ℝ) : Value → ℝ
  | bool b => if b then 1 else 0
  | int n => n
  | float x => amount x
  | v@(block .operation [str name, a] _ _) => (function name (quantity given a)).getD (given v)
  | v@(block o [a, b] _ _) => (combination o (quantity given a) (quantity given b)).getD (given v)
  | v => given v

variable {given : Value → ℝ} {base exponent size : Value} {b e n : ℤ} {blocks : ℕ}

theorem quantity_op (ho : o ≠ .operation) (x y : Value) :
    quantity given (op o [x, y]) =
      (combination o (quantity given x) (quantity given y)).getD (given (op o [x, y])) := by
  rw [quantity]
  simp [ho]

theorem quantity_operation (name : String) (x : Value) :
    quantity given (operation name x) =
      (function name (quantity given x)).getD (given (operation name x)) := by
  rw [operation, quantity]

/-- The sign is minus one for an odd exponent of a negative base. -/
theorem quantity_powerSign (hbase : base.quantity given = b) (hexponent : exponent.quantity given = e) :
    (powerSign base exponent).quantity given = if b < 0 ∧ Odd e then -1 else 1 := by
  have hfloor : ⌊((e : ℝ) + 1) / 2⌋ = (e + 1) / 2 := by
    simpa using Int.floor_div_natCast ((e : ℝ) + 1) 2
  have hremainder : (e : ℝ) + 1 - 2 * ((e + 1) / 2 : ℤ) = if Odd e then 0 else 1 := by
    rcases Int.even_or_odd' e with ⟨k, rfl | rfl⟩
    · rw [show (2 * k + 1) / 2 = k by omega]
      simp
    · rw [show (2 * k + 1 + 1) / 2 = k + 1 by omega, if_pos (by simp)]
      push_cast
      ring
  simp only [powerSign, quantity_op, quantity, combination, hbase, hexponent, ne_eq, reduceCtorEq,
    not_false_eq_true, Option.getD_some, Int.cast_ofNat, OfNat.ofNat_ne_zero, if_false, Int.cast_one,
    hfloor, hremainder]
  split_ifs <;> simp_all
  all_goals norm_num

theorem quantity_logPower (hx : 0 < x) (hsize : size.quantity given = x)
    (hexponent : exponent.quantity given = e) :
    (logPower size exponent).quantity given = x ^ e := by
  simp [logPower, quantity_operation, quantity_op, combination, function, hsize, hexponent,
    ← Real.rpow_intCast, Real.rpow_def_of_pos hx]

/-- Of an absolute value the sign is always one. -/
theorem quantity_signedPower (hb : 0 < |(b : ℝ)|) (hsize : size.quantity given = |(b : ℝ)|)
    (hexponent : exponent.quantity given = e) :
    (signedPower size exponent).quantity given = |(b : ℝ)| ^ e := by
  have hsign := @quantity_powerSign given size exponent |b| e (by simpa using hsize) hexponent
  rw [if_neg fun h => absurd h.1 (abs_nonneg b).not_gt] at hsign
  simp [signedPower, quantity_op, combination, quantity_logPower hb hsize hexponent, hsign]

theorem quantity_abs (h : base.number? = some m) :
    (ofNumber m.abs).quantity given = |base.quantity given| := by
  cases base <;> cases h
  · rename_i t
    cases t <;> simp [ofNumber, Number.abs, quantity]
  · simp [ofNumber, Number.abs, quantity]
  · exact amount_abs

/-- A power left to logarithms: not both sides are literals, and where the exponent is one it
has no shortcut. -/
def ByLogarithm (base exponent : Value) : Prop :=
  match base.number?, exponent.number? with
  | some _, some _ => False
  | none, some n => simplePower? base n = none ∧ product? base exponent = .ok none
  | _, none => True

theorem ByLogarithm.pow (h : ByLogarithm base exponent) (given : Value → ℝ) :
    ∃ size, size.quantity given = |base.quantity given| ∧
      (base.pow exponent = .ok (logPower size exponent) ∨
        base.pow exponent = .ok (signedPower size exponent)) := by
  unfold ByLogarithm at h
  unfold Value.pow
  cases hbase : base.number? with
  | some m =>
    refine ⟨_, quantity_abs hbase, ?_⟩
    cases hexponent : exponent.number? with
    | some n => simp [hbase, hexponent] at h
    | none =>
      dsimp only
      cases m.abs.order? (.int 0) <;> simp
  | none =>
    refine ⟨operation "absolute" base, by simp [quantity_operation, function], .inr ?_⟩
    cases hexponent : exponent.number? with
    | some n =>
      simp only [hbase, hexponent] at h
      simp [h, bind, Except.bind, pure, Except.pure]
    | none => rfl

theorem abs_zpow_mul_sign (b e : ℤ) :
    |(b : ℝ)| ^ e * (if b < 0 ∧ Odd e then -1 else 1) = (b : ℝ) ^ e := by
  by_cases hneg : b < 0
  · rcases Int.even_or_odd e with heven | hodd
    · simp [heven.zpow_abs, heven]
    · simp [abs_of_neg (Int.cast_lt_zero.2 hneg), hodd.neg_zpow, hneg, hodd]
  · simp [abs_of_nonneg (Int.cast_nonneg (not_lt.1 hneg)), hneg]

/-- A power by logarithms is that of the absolute value, which differs from the power for an odd
exponent of a negative base. The sign that it lacks is that of the base itself. -/
theorem pow_by_logarithms (h : ByLogarithm base exponent) (hbase : base.quantity given = b)
    (hexponent : exponent.quantity given = e) (hb : b ≠ 0) :
    ∃ v, base.pow exponent = .ok v ∧ v.quantity given = |(b : ℝ)| ^ e ∧
      (v.quantity given = (b : ℝ) ^ e ↔ 0 < b ∨ Even e) ∧
      (op .multiply [v, powerSign base exponent]).quantity given = (b : ℝ) ^ e := by
  obtain ⟨size, hsize, hv⟩ := h.pow given
  rw [hbase] at hsize
  have habs : 0 < |(b : ℝ)| := abs_pos.2 (Int.cast_ne_zero.2 hb)
  obtain ⟨v, hpow, hvalue⟩ : ∃ v, base.pow exponent = .ok v ∧ v.quantity given = |(b : ℝ)| ^ e := by
    rcases hv with hv | hv
    · exact ⟨_, hv, quantity_logPower habs hsize hexponent⟩
    · exact ⟨_, hv, quantity_signedPower habs hsize hexponent⟩
  have hsign : (op .multiply [v, powerSign base exponent]).quantity given = (b : ℝ) ^ e := by
    rw [quantity_op (by decide), hvalue, quantity_powerSign hbase hexponent, ← abs_zpow_mul_sign]
    rfl
  refine ⟨v, hpow, hvalue, ?_, hsign⟩
  rw [hvalue, ← abs_zpow_mul_sign, left_eq_mul₀ (zpow_pos habs e).ne']
  split_ifs with hodd
  · norm_num [hodd.1.not_gt, Int.not_even_iff_odd.2 hodd.2]
  · simp only [not_and, Int.not_odd_iff_even, true_iff] at hodd ⊢
    exact or_iff_not_imp_left.2 fun hpos => hodd (lt_of_le_of_ne (not_lt.1 hpos) hb)

def numberVariable : Value := data ⟨"x", false, .typed .ofNumber, false⟩

/-- Minus two to the third comes to eight. -/
theorem pow_by_logarithms_negative :
    ∃ v, (int (-2)).pow numberVariable = .ok v ∧
      v.quantity (fun _ => 3) = |((-2 : ℤ) : ℝ)| ^ (3 : ℤ) ∧
      (v.quantity (fun _ => 3) = ((-2 : ℤ) : ℝ) ^ (3 : ℤ) ↔ 0 < (-2 : ℤ) ∨ Even (3 : ℤ)) ∧
      (op .multiply [v, powerSign (int (-2)) numberVariable]).quantity (fun _ => 3) =
        ((-2 : ℤ) : ℝ) ^ (3 : ℤ) :=
  pow_by_logarithms trivial (by simp [quantity]) (by simp [quantity, numberVariable]) (by decide)

theorem quantity_product (times : ℕ) :
    (base.product times).quantity given = base.quantity given ^ (times + 2) := by
  induction times with
  | zero => simp [product, quantity_op, combination, pow_two]
  | succ times ih => simp [product, quantity_op, combination, ih, pow_succ]

theorem equal_half (n : ℤ) : (Number.int n).equal (.float 0.5) = false := by
  have hparts : Decimal.parts 0.5 = .finite false 4503599627370496 (-53) := by decide +kernel
  have hne : n * 9007199254740992 ≠ 4503599627370496 := by omega
  simp [Number.equal, Number.order?, hparts, Number.compareParts, hne]

theorem pow_block (hblock : base.isBlock) (hblocks : base.depth = .ok blocks) (n : ℤ) :
    base.pow (int n) = .ok (
      if n = -1 then op .divide [int 1, base] else if n = 0 then int 1 else if n = 1 then base
      else if Cheap blocks n then base.product (n - 2).toNat
      else signedPower (operation "absolute" base) (int n)) := by
  have hnumber : base.number? = none := by cases base <;> first | rfl | cases hblock
  have hsimple : simplePower? base (.int n) =
      if n = -1 then some (op .divide [int 1, base]) else if n = 0 then some (int 1)
      else if n = 1 then some base else none := by
    simp only [simplePower?, equal_half]
    simp [Number.equal, Number.order?]
  unfold Value.pow
  rw [hnumber, show (int n).number? = some (.int n) from rfl]
  simp only [hsimple, product?_int hblocks]
  split_ifs <;> rfl

theorem pow_cheap (hblock : base.isBlock) (hblocks : base.depth = .ok blocks)
    (hcheap : Cheap blocks n) : base.pow (int n) = .ok (base.product (n - 2).toNat) := by
  have hfactors := (hcheap.chainedProduct base).1
  rw [pow_block hblock hblocks, if_neg (by omega), if_neg (by omega), if_neg (by omega),
    if_pos hcheap]

/-- A power without logarithms is exact, and what is multiplied out has two factors or more. -/
theorem pow_shortcut (hblock : base.isBlock) (hblocks : base.depth = .ok blocks)
    (hn : n = -1 ∨ n = 0 ∨ n = 1 ∨ Cheap blocks n) :
    ∃ v, base.pow (int n) = .ok v ∧
      (∀ given, (n = -1 → base.quantity given ≠ 0) → v.quantity given = base.quantity given ^ n) ∧
      (n = -1 ∨ n = 0 ∨ n = 1 ∨ 2 ≤ n ∧ base.chainedProduct (int n) = .ok v) := by
  have hpow := pow_block hblock hblocks n
  rcases hn with rfl | rfl | rfl | hcheap
  · exact ⟨_, hpow, fun given hzero => by simp [quantity_op, combination, quantity, hzero], by simp⟩
  · exact ⟨_, hpow, fun given _ => by simp [quantity], by simp⟩
  · exact ⟨_, hpow, fun given _ => by simp, by simp⟩
  · obtain ⟨hfactors, hchain⟩ := hcheap.chainedProduct base
    refine ⟨_, pow_cheap hblock hblocks hcheap, fun given _ => ?_, by simp [hfactors, hchain]⟩
    rw [quantity_product, ← zpow_natCast, show ((n - 2).toNat + 2 : ℕ) = n by omega]

theorem pow_shortcut_cube :
    ∃ v, numberVariable.pow (int 3) = .ok v ∧
      (∀ given, ((3 : ℤ) = -1 → numberVariable.quantity given ≠ 0) →
        v.quantity given = numberVariable.quantity given ^ (3 : ℤ)) ∧
      ((3 : ℤ) = -1 ∨ (3 : ℤ) = 0 ∨ (3 : ℤ) = 1 ∨
        2 ≤ (3 : ℤ) ∧ numberVariable.chainedProduct (int 3) = .ok v) :=
  pow_shortcut rfl rfl (.inr (.inr (.inr (by decide))))

theorem depth_block (hblock : base.isBlock) : base.depth = .ok base.blockCount := by
  cases base <;> first | rfl | cases hblock

theorem isBlock_product (base : Value) (times : ℕ) : (base.product times).isBlock := by
  cases times <;> rfl

theorem blockCount_product (hblock : base.isBlock) (times : ℕ) :
    (base.product times).blockCount = (times + 2) * base.blockCount + (times + 1) := by
  induction times with
  | zero =>
    simp only [product, blockCount, blockCounts, hblock, if_true]
    ring
  | succ times ih =>
    simp only [product, blockCount, blockCounts, hblock, isBlock_product, if_true, ih]
    ring

theorem blockCount_signedPower (hblock : base.isBlock) (n : ℤ) :
    (signedPower (operation "absolute" base) (int n)).blockCount = 2 * base.blockCount + 14 := by
  have hop : ∀ o arguments, (op o arguments).isBlock := fun _ _ => rfl
  simp only [signedPower, logPower, powerSign, operation, blockCount, blockCounts, hop, hblock,
    if_true]
  simp [isBlock]
  ring

/-- Of the powers that are multiplied out, those of one block from nine factors on and those of
two blocks with seven take more blocks than logarithms would. -/
theorem product_smaller_iff (hblock : base.isBlock) (hblocks : base.depth = .ok blocks)
    (hcheap : Cheap blocks n) :
    ∃ v chain logarithm, base.pow (int n) = .ok v ∧ base.chainedProduct (int n) = .ok v ∧
      v.depth = .ok chain ∧
      (signedPower (operation "absolute" base) (int n)).depth = .ok logarithm ∧
      (chain ≤ logarithm ↔ ¬ (blocks = 1 ∧ 9 ≤ n ∨ blocks = 2 ∧ n = 7)) := by
  obtain ⟨hfactors, hchain⟩ := hcheap.chainedProduct base
  have hcount : base.blockCount = blocks := Except.ok.inj ((depth_block hblock).symm.trans hblocks)
  refine ⟨_, _, _, pow_cheap hblock hblocks hcheap, hchain, depth_block (isBlock_product _ _),
    depth_block rfl, ?_⟩
  rw [blockCount_product hblock, blockCount_signedPower hblock, hcount]
  obtain ⟨hpos, hlimit⟩ := hcheap
  rw [productLimit] at hlimit
  have hsmall : blocks ≤ 12 := by nlinarith
  interval_cases blocks <;> omega

theorem product_smaller_iff_ninth :
    ∃ v chain logarithm, numberVariable.pow (int 9) = .ok v ∧
      numberVariable.chainedProduct (int 9) = .ok v ∧ v.depth = .ok chain ∧
      (signedPower (operation "absolute" numberVariable) (int 9)).depth = .ok logarithm ∧
      (chain ≤ logarithm ↔ ¬ (1 = 1 ∧ 9 ≤ (9 : ℤ) ∨ 1 = 2 ∧ (9 : ℤ) = 7)) :=
  product_smaller_iff rfl rfl (by decide)

end Value

end BlockScript
