import BlockScript.Proofs.NumberCode

/-!
The blocks for whole numbers. Variables hold numbers, reporters compute with them and
conditions compare them. Literals that the operators compute at once, comparisons that are
turned round and negations that are taken away all leave the meaning as it is.
-/
namespace BlockScript.NumberCode

abbrev Store := String → Int

def Store.set (store : Store) (name : String) (n : Int) : Store :=
  fun other => if other = name then n else store other

variable (byZero : Int → Int)

def number (store : Store) : Value → Option Int
  | .int n => some n
  | .data d => some (store d.name)
  | .block .add [a, b] _ _ => do return (← number store a) + (← number store b)
  | .block .subtract [a, b] _ _ => do return (← number store a) - (← number store b)
  | .block .multiply [a, b] _ _ => do return (← number store a) * (← number store b)
  | .block .modulo [a, b] _ _ => do
    return remainder byZero (← number store a) (← number store b)
  | _ => none
termination_by structural v => v

def truth (store : Store) : Value → Option Bool
  | .bool b => some b
  | .block .equals [a, b] _ _ => do
    return decide ((← number byZero store a) = (← number byZero store b))
  | .block .lessThan [a, b] _ _ => do
    return decide ((← number byZero store a) < (← number byZero store b))
  | .block .greaterThan [a, b] _ _ => do
    return decide ((← number byZero store b) < (← number byZero store a))
  | .block .not [c] _ _ => do return !(← truth store c)
  | .block .or [c, c'] _ _ => do return (← truth store c) || (← truth store c')
  | _ => none
termination_by structural v => v

/-- The engine whose variables hold whole numbers. -/
def engine : Engine Store where
  act
    | .block .setVariable [.data d, v] _ _, store => (number byZero store v).map (store.set d.name)
    | _, _ => none
  test c store := (truth byZero store c).map fun b => (b, store)

/-- A literal number or a block. -/
def IsNumeric (v : Value) : Prop := (∃ n, v = .int n) ∨ v.isBlock = true

variable {byZero}

def Operation.opcode : Operation → Opcode
  | add => .add
  | sub => .subtract
  | mul => .multiply
  | mod => .modulo

theorem number_op (op : Operation) (hm : number byZero store a = some m)
    (hn : number byZero store b = some n) :
    number byZero store (.op op.opcode [a, b]) = some (op.apply byZero m n) := by
  cases op <;> simp [Operation.opcode, Operation.apply, number, hm, hn]

/-- Operations on literals are computed, unless they divide by zero. -/
theorem apply_ints (byZero : Int → Int) (op : Operation)
    (h : op.arith.apply [.int m, .int n] = .ok v) : v = .int (op.apply byZero m n) := by
  cases op with
  | add | sub | mul => exact (Except.ok.inj h).symm
  | mod =>
    by_cases hzero : n = 0
    · subst hzero
      cases h
    · have hmod : Value.mod (.int m) (.int n) = .ok (.int (Int.fmod m n)) := by
        simp only [Value.mod, Value.isBlock, Bool.or_self, Bool.false_eq_true, if_false,
          Value.numeric, Value.number?, Number.mod, if_neg hzero]
        rfl
      have hv := Except.ok.inj (hmod.symm.trans h)
      rw [← hv, Operation.apply, remainder, if_neg hzero]

/-- Operations on a block give a block. -/
theorem apply_block (op : Operation) (ha : IsNumeric a) (h : (a.isBlock || b.isBlock) = true) :
    op.arith.apply [a, b] = .ok (.op op.opcode [a, b]) := by
  cases op with
  | add => simp [Operation.arith, ArithOp.apply, Value.add, h, Operation.opcode]
  | sub => simp [Operation.arith, ArithOp.apply, Value.sub, h, Operation.opcode]
  | mul => simp [Operation.arith, ArithOp.apply, Value.mul, h, Operation.opcode]
  | mod =>
    have htext : ∀ s, a ≠ .str s := by
      rintro s rfl
      rcases ha with ⟨n, hn⟩ | hblock
      · cases hn
      · cases hblock
    have hmod : a.mod b = .ok (.op .modulo [a, b]) := by
      unfold Value.mod
      split
      · exact absurd rfl (htext _)
      · simp [h]
    exact hmod

theorem number_apply (op : Operation) (ha : IsNumeric a) (hb : IsNumeric b)
    (h : op.arith.apply [a, b] = .ok v) (hm : number byZero store a = some m)
    (hn : number byZero store b = some n) : number byZero store v = some (op.apply byZero m n) := by
  by_cases hblock : (a.isBlock || b.isBlock) = true
  · rw [apply_block op ha hblock] at h
    rw [← Except.ok.inj h]
    exact number_op op hm hn
  · rw [Bool.or_eq_true, not_or] at hblock
    obtain ⟨k, rfl⟩ := ha.resolve_right hblock.1
    obtain ⟨l, rfl⟩ := hb.resolve_right hblock.2
    obtain rfl := Option.some.inj hm
    obtain rfl := Option.some.inj hn
    rw [apply_ints byZero op h]
    rfl

theorem isNumeric_apply (op : Operation) (ha : IsNumeric a) (hb : IsNumeric b)
    (h : op.arith.apply [a, b] = .ok v) : IsNumeric v := by
  by_cases hblock : (a.isBlock || b.isBlock) = true
  · rw [apply_block op ha hblock] at h
    rw [← Except.ok.inj h]
    exact .inr rfl
  · rw [Bool.or_eq_true, not_or] at hblock
    obtain ⟨k, rfl⟩ := ha.resolve_right hblock.1
    obtain ⟨l, rfl⟩ := hb.resolve_right hblock.2
    exact .inl ⟨_, apply_ints id op h⟩

theorem neg_number (byZero : Int → Int) (ha : IsNumeric a) (h : a.neg = .ok v) :
    IsNumeric v ∧ ∀ store m, number byZero store a = some m → number byZero store v = some (-m) := by
  unfold Value.neg at h
  rcases ha with ⟨n, rfl⟩ | hblock
  · obtain rfl := Except.ok.inj h
    refine ⟨.inl ⟨-n, rfl⟩, ?_⟩
    intro store m hm
    obtain rfl := Option.some.inj hm
    rfl
  · rw [if_pos hblock] at h
    obtain rfl := Except.ok.inj h
    refine ⟨.inr rfl, ?_⟩
    intro store m hm
    simp [number, hm]

/-! Conditions. -/

theorem truth_compareBlocks (op : CompareOp) (hm : number byZero store a = some m)
    (hn : number byZero store b = some n) :
    truth byZero store (Value.compareBlocks op a b) = some (compares op m n) := by
  have hle : ∀ x y : Int, (!decide (y < x)) = decide (x ≤ y) := by
    intro x y
    rw [← decide_not, decide_eq_decide]
    exact Int.not_lt
  cases op <;> simp only [Value.compareBlocks, truth, hm, hn, compares]
  case le => exact congrArg some (hle m n)
  case ge => exact congrArg some (hle n m)
  case ne => exact congrArg some decide_not.symm
  all_goals rfl

theorem compares_flip (op : CompareOp) (m n : Int) : compares op.flip n m = compares op m n := by
  cases op <;> simp [CompareOp.flip, compares, eq_comm]

theorem holds_compare (op : CompareOp) (m n : Int) :
    Value.holds op (some (Ord.compare m n)) = compares op m n := by
  have horder : Ord.compare m n = if m < n then .lt else if m = n then .eq else .gt := rfl
  rw [horder]
  rcases Int.lt_trichotomy m n with h | h | h
  · have hne : m ≠ n := by omega
    cases op <;> simp [Value.holds, compares, h, hne, Int.le_of_lt h]
  · subst h
    cases op <;> simp [Value.holds, compares]
  · have hnot : ¬ m < n := by omega
    have hne : m ≠ n := by omega
    cases op <;> simp [Value.holds, compares, h, hnot, hne, Int.le_of_lt h]

/-- Comparing literals is comparing numbers. -/
theorem compareLiterals_ints (op : CompareOp) (m n : Int) :
    Value.compareLiterals op (.int m) (.int n) = .ok (.bool (compares op m n)) := by
  rw [← holds_compare]
  cases op <;> rfl

theorem truth_compare (op : CompareOp) (ha : IsNumeric a) (hb : IsNumeric b)
    (h : op.apply [a, b] = .ok v) (hm : number byZero store a = some m)
    (hn : number byZero store b = some n) : truth byZero store v = some (compares op m n) := by
  rw [CompareOp.apply, Value.compare] at h
  by_cases hblock : a.isBlock = true
  · rw [if_pos hblock] at h
    rw [← Except.ok.inj h]
    exact truth_compareBlocks op hm hn
  · rw [if_neg hblock] at h
    obtain ⟨k, rfl⟩ := ha.resolve_right hblock
    by_cases hblock' : b.isBlock = true
    · rw [if_pos hblock'] at h
      rw [← Except.ok.inj h, ← compares_flip]
      exact truth_compareBlocks op.flip hn hm
    · rw [if_neg hblock'] at h
      obtain ⟨l, rfl⟩ := hb.resolve_right hblock'
      obtain rfl := Option.some.inj hm
      obtain rfl := Option.some.inj hn
      rw [compareLiterals_ints] at h
      rw [← Except.ok.inj h]
      rfl

theorem truth_truthBlock (x : Bool) : truth byZero store (Value.truthBlock x) = some x := by
  cases x <;> rfl

/-- A negation taken away is the opposite condition. -/
theorem truth_logicalNot (hx : truth byZero store v = some x) (h : v.logicalNot = .ok w) :
    truth byZero store w = some (!x) := by
  unfold Value.logicalNot at h
  split at h
  · rename_i y
    obtain rfl := Option.some.inj hx
    rw [← Except.ok.inj h]
    cases y <;> rfl
  · rename_i arguments retyped alternative
    match arguments, hx with
    | [c], hx =>
      cases hc : c.isBlock with
      | false => simp [List.find?, hc] at h
      | true =>
        simp only [List.find?, hc] at h
        rw [← Except.ok.inj h]
        obtain ⟨y, hy, hxy⟩ := Option.bind_eq_some_iff.mp hx
        obtain rfl := Option.some.inj hxy
        simpa using hy
  · rw [← Except.ok.inj h]
    simp [truth, hx]

theorem truth_logicalOr (hx : truth byZero store v = some x) (hy : truth byZero store w = some y) :
    truth byZero store (v.logicalOr w) = some (x || y) := by
  unfold Value.logicalOr
  split
  · obtain rfl := Option.some.inj hx
    obtain rfl := Option.some.inj hy
    exact truth_truthBlock _
  · obtain rfl := Option.some.inj hx
    split
    · rename_i hfirst
      rw [hfirst]
      rfl
    · rename_i hfirst
      rw [hy, Bool.eq_false_iff.mpr hfirst, Bool.false_or]
  · obtain rfl := Option.some.inj hy
    split
    · rename_i hsecond
      rw [hsecond, Bool.or_true]
      rfl
    · rename_i hsecond
      rw [hx, Bool.eq_false_iff.mpr hsecond, Bool.or_false]
  · simp [truth, hx, hy]

end BlockScript.NumberCode
