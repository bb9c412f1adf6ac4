import BlockScript.Proofs.GlobalValues

/-!
Calculations with literal numbers, which are done at once. No problem is ever reported for them. An
operation without a real result breaks the whole calculation off, except that a power off the real
line is given back if nothing more is done with it.
-/
namespace BlockScript

open Value

/-- How many operands an operator takes. -/
def ArithOp.operandCount : ArithOp → Nat
  | neg => 1
  | _ => 2

/-- A calculation with literal numbers. -/
inductive Expr.Calculates : Expr → Prop
  | number (n : Number) : Calculates (.value (ofNumber n))
  | operation {pos op es} (hpos : pos ≠ .missing) (hcount : es.length = op.operandCount)
      (hes : ∀ e ∈ es, Calculates e) : Calculates (.arith pos op es)

/-- A number, which may lie off the real line. -/
def Value.Numeric (v : Value) : Prop := (∃ n, v = ofNumber n) ∨ ∃ re im, v = .complex re im

theorem Value.eq_of_mapM_numeral? {vs : List Value} (h : vs.mapM numeral? = some ns) :
    vs = ns.map ofNumber := by
  induction vs generalizing ns with
  | nil =>
    cases h
    rfl
  | cons v vs ih =>
    simp only [List.mapM_cons, bind, Option.bind_eq_some_iff] at h
    obtain ⟨n, hn, ns, hns, h⟩ := h
    cases h
    obtain rfl : v = ofNumber n := by cases v <;> cases hn <;> rfl
    rw [ih hns, List.map_cons]

theorem Expr.ordinaryAll_forall {P : Value → Prop}
    (hes : ∀ e ∈ es, ∀ v, ordinary known e = some v → P v) (h : ordinaryAll known es = some vs) :
    vs.length = es.length ∧ ∀ v ∈ vs, P v := by
  induction es generalizing vs with
  | nil =>
    cases h
    simp
  | cons e es ih =>
    rw [List.forall_mem_cons] at hes
    simp only [ordinaryAll, bind, Option.bind_eq_some_iff] at h
    obtain ⟨v, hv, vs, hvs, h⟩ := h
    cases h
    simpa [hes.1 v hv] using ih hes.2 hvs

namespace Build

variable {d : Dialect} {s : BuildState} {e : Expr} {op : ArithOp}

/-- A step ends with a value if there is one to give, and otherwise with a fault. -/
def EndsAs {α : Type} (value : Option α) (x : Build α) : Prop :=
  ∀ s, ∃ t, (∀ a, value = some a → x s = .ok a t) ∧ (value = none → ∃ f, x s = fault f t)

theorem EndsAs.bind (hx : EndsAs value x) (hg : ∀ a, value = some a → EndsAs (k a) (g a)) :
    EndsAs (value.bind k) (x >>= g) := by
  intro s
  obtain ⟨t, hok, hfault⟩ := hx s
  cases value with
  | none =>
    obtain ⟨f, hf⟩ := hfault rfl
    exact ⟨t, by simp, fun _ => ⟨f, bind_of_error hf⟩⟩
  | some a =>
    obtain ⟨t', hends⟩ := hg a rfl t
    rw [bind_of_ok (hok a rfl)]
    exact ⟨t', hends⟩

theorem EndsAs.pure (a : α) : EndsAs (some a) (pure a) :=
  fun s => ⟨s, by rintro _ ⟨⟩; rfl, by simp⟩

theorem EndsAs.ofExcept (x : Except Fault α) : EndsAs x.toOption (ofExcept x) := by
  intro s
  cases x with
  | error f => exact ⟨s, by simp [Except.toOption], fun _ => ⟨f, rfl⟩⟩
  | ok a => exact ⟨s, by rintro _ ⟨⟩; rfl, by simp [Except.toOption]⟩

/-- Operands that are numbers can be calculated with if all of them are real. -/
theorem endsAs_requireNumbers (hvs : ∀ v ∈ vs, v.Numeric) (hcount : vs.length = op.operandCount) :
    EndsAs ((vs.mapM numeral?).map fun _ => ()) (requireNumbers vs) := by
  rcases vs with _ | ⟨v, _ | ⟨w, _ | _⟩⟩
  · cases op <;> cases hcount
  · rcases hvs v (by simp) with ⟨_ | _, rfl⟩ | ⟨_, _, rfl⟩
    · exact .pure ()
    · exact .pure ()
    · exact .ofExcept (.error .typeMismatch)
  · rcases hvs v (by simp) with ⟨_ | _, rfl⟩ | ⟨_, _, rfl⟩ <;>
      rcases hvs w (by simp) with ⟨_ | _, rfl⟩ | ⟨_, _, rfl⟩
    all_goals first | exact .pure () | exact .ofExcept (.error .typeMismatch)
  · cases op <;> simp [ArithOp.operandCount] at hcount

theorem endsAs_expressions (h : ∀ e ∈ es, EndsAs (e.ordinary []) (expression d e)) :
    EndsAs (Expr.ordinaryAll [] es) (expressions d es) := by
  induction es with
  | nil => exact .pure []
  | cons e es ih =>
    rw [List.forall_mem_cons] at h
    rw [expressions]
    exact .bind h.1 fun v _ => .bind (ih h.2) fun vs _ => .pure (v :: vs)

/-- A calculation gives its ordinary value if there is one. -/
theorem endsAs_calculation (he : e.Calculates) :
    EndsAs (e.ordinary []) (expression d e) ∧ ∀ v, e.ordinary [] = some v → v.Numeric := by
  induction he with
  | number n => exact ⟨.pure _, fun v h => .inl ⟨n, (Option.some.inj h).symm⟩⟩
  | @operation pos op es hpos hcount hes ih =>
    have hmove : EndsAs (some ()) (moveTo pos) :=
      fun s => ⟨_, fun _ _ => moveTo_ok.mpr ⟨hpos, rfl⟩, by simp⟩
    refine ⟨?_, fun v hv => ?_⟩
    · rw [expression]
      refine hmove.bind (k := fun _ => _) fun _ _ => ?_
      refine .bind (endsAs_expressions fun e he => (ih e he).1) fun vs hvs => ?_
      obtain ⟨hlength, hnumeric⟩ := Expr.ordinaryAll_forall (fun e he => (ih e he).2) hvs
      have hrequire := endsAs_requireNumbers hnumeric (hlength.trans hcount)
      have hends := hrequire.bind fun _ _ => .ofExcept (op.apply vs)
      cases hns : vs.mapM numeral? with
      | none => simpa [hns, calculated] using hends
      | some ns =>
        obtain rfl := eq_of_mapM_numeral? hns
        simpa [hns, calculated, ordinary_eq] using hends
    · simp only [Expr.ordinary, bind, Option.bind_eq_some_iff] at hv
      obtain ⟨vs, -, ns, -, hv⟩ := hv
      exact number_of_ordinary hv

/-- In scripts and in setups, a calculation with literal numbers gives its ordinary value, real or
not, and stops with a fault if it has none. -/
theorem calculation_ends (d : Dialect) (e : Expr) (he : e.Calculates) (s : BuildState) :
    ∃ t, (∀ v, e.ordinary [] = some v → expression d e s = .ok v t ∧
        ((∃ n, v = .ofNumber n) ∨ ∃ re im, v = .complex re im)) ∧
      (e.ordinary [] = none → ∃ f, expression d e s = fault f t) := by
  obtain ⟨hends, hnumeric⟩ := endsAs_calculation he
  obtain ⟨t, hok, hfault⟩ := hends s
  exact ⟨t, fun v hv => ⟨hok v hv, hnumeric v hv⟩, hfault⟩

/-- The divisor of `1 / (2 - 2)` is a zero that is not written. -/
theorem calculation_ends_zero : ∃ e : Expr, e.Calculates ∧
    e = .arith .nowhere .div [.int 1, .arith .nowhere .sub [.int 2, .int 2]] ∧
    ∀ d s, ∃ f t, expression d e s = fault f t := by
  have hnumber (n : Int) : (Expr.int n).Calculates := .number (.int n)
  have hzero : (Expr.arith .nowhere .sub [.int 2, .int 2]).Calculates :=
    .operation (by simp) rfl (by simp [hnumber])
  have he : (Expr.arith .nowhere .div [.int 1, .arith .nowhere .sub [.int 2, .int 2]]).Calculates :=
    .operation (by simp) rfl (by simp [hnumber, hzero])
  refine ⟨_, he, rfl, fun d s => ?_⟩
  obtain ⟨t, -, hfault⟩ := calculation_ends d _ he s
  obtain ⟨f, hf⟩ := hfault rfl
  exact ⟨f, t, hf⟩

end Build

end BlockScript
