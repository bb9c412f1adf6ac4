import BlockScript.Proofs.Steps

/-!
What a type check says that has been passed. The type of a single operand shares a flag with one
of those that are asked for, and the type of a value shares a flag with that of the variable it is
assigned to.
-/
namespace BlockScript

/-- The type of a value shares a flag with the one asked for. -/
def Value.Fits (v : Value) (wanted : TypeSet) : Prop :=
  ∃ type, v.type? = .ok (some (.typed type)) ∧ type.meets wanted = true

namespace Typing

/-- Operands pass a check if they fit one of the combinations. -/
theorem problem?_none
    (h : problem? allowed types template = .ok none) : fitsAny types allowed = .ok true := by
  obtain ⟨passed, hfits, h⟩ := ok_of_bind h
  cases passed with
  | true => exact hfits
  | false =>
    obtain ⟨_, -, h⟩ := ok_of_bind h
    cases h

theorem exists_fits
    (h : fitsAny types allowed = .ok true) : ∃ wanted ∈ allowed, fits types wanted = .ok true := by
  induction allowed with
  | nil => cases h
  | cons wanted rest ih =>
    obtain ⟨fit, hfit, h⟩ := ok_of_bind h
    cases fit with
    | true => exact ⟨wanted, List.mem_cons_self, hfit⟩
    | false =>
      obtain ⟨other, hother, h⟩ := ih h
      exact ⟨other, List.mem_cons_of_mem _ hother, h⟩

/-- Operands that fit a combination have the types asked for, as far as both lists reach. -/
theorem fits_typesOf
    (htypes : typesOf operands = .ok types) (h : fits types (wanted.map some) = .ok true) :
    ∀ p ∈ operands.zip wanted, p.1.Fits p.2 := by
  induction operands generalizing types wanted with
  | nil => simp
  | cons v rest ih =>
    cases wanted with
    | nil => simp
    | cons w wanted =>
      obtain ⟨type, htype, htypes⟩ := ok_of_bind htypes
      obtain ⟨types, hrest, htypes⟩ := ok_of_bind htypes
      obtain rfl := Except.ok.inj htypes
      obtain ⟨fit, hfit, h⟩ := ok_of_bind h
      rcases type with _ | t | _
      · cases hfit
      · obtain rfl := Except.ok.inj hfit
        split at h
        · rename_i hmeets
          simp only [List.zip_cons_cons, List.forall_mem_cons]
          exact ⟨⟨t, htype, hmeets⟩, ih hrest h⟩
        · cases h
      · cases hfit

end Typing

open Typing

variable {v : Value}

/-- Operands pass a check when their types are known and fit one of the combinations. -/
theorem Outcome.require_ok :
    Outcome.require allowed operands template = .ok u ↔ ∃ types,
      typesOf operands = .ok types ∧ fitsAny types (allowed.map (·.map some)) = .ok true := by
  unfold Outcome.require Typing.check
  constructor
  · intro h
    obtain ⟨problem, hproblem, h⟩ := ok_of_bind h
    cases hcheck : typesOf operands >>= fun types =>
        problem? (allowed.map (·.map some)) types template with
    | error f =>
      rw [hcheck] at hproblem
      cases hproblem
    | ok found =>
      rw [hcheck] at hproblem
      obtain rfl := Except.ok.inj hproblem
      cases found with
      | some p => cases h
      | none =>
        obtain ⟨types, htypes, hnone⟩ := ok_of_bind hcheck
        exact ⟨types, htypes, problem?_none hnone⟩
  · rintro ⟨types, htypes, hfits⟩
    simp only [htypes, bind, Except.bind, problem?, hfits]
    rfl

/-- Operands that pass a check fit one of its combinations. -/
theorem Outcome.fits_of_require (h : Outcome.require allowed operands template = .ok u) :
    ∃ wanted ∈ allowed, ∀ p ∈ operands.zip wanted, p.1.Fits p.2 := by
  obtain ⟨types, htypes, hfits⟩ := Outcome.require_ok.mp h
  obtain ⟨_, hmem, hfits⟩ := exists_fits hfits
  obtain ⟨wanted, hwanted, rfl⟩ := List.mem_map.mp hmem
  exact ⟨wanted, hwanted, fits_typesOf htypes hfits⟩

theorem Outcome.require_single {wanted : List TypeSet}
    (h : Outcome.require (wanted.map fun t => [t]) [v] template = .ok u) :
    ∃ t ∈ wanted, v.Fits t := by
  obtain ⟨_, hmem, hfits⟩ := Outcome.fits_of_require h
  obtain ⟨t, ht, rfl⟩ := List.mem_map.mp hmem
  exact ⟨t, ht, hfits (v, t) (by simp)⟩

theorem Outcome.require_one : Outcome.require [[wanted]] [v] template = .ok u ↔ v.Fits wanted := by
  constructor
  · intro h
    simpa using Outcome.fits_of_require h
  · rintro ⟨type, htype, hmeets⟩
    refine Outcome.require_ok.mpr ⟨[some (.typed type)], ?_, ?_⟩
    · rw [Typing.typesOf, htype]
      rfl
    · simp [fitsAny, fits, compatible, hmeets, bind, Except.bind, pure, Except.pure]

/-- Two operands of one type pass the check for it. -/
theorem Outcome.require_pair :
    Outcome.require [[wanted, wanted]] [a, b] template = .ok u ↔ a.Fits wanted ∧ b.Fits wanted := by
  constructor
  · intro h
    obtain ⟨_, hmem, hfits⟩ := Outcome.fits_of_require h
    obtain rfl := List.mem_singleton.mp hmem
    exact ⟨hfits (a, wanted) (by simp), hfits (b, wanted) (by simp)⟩
  · rintro ⟨⟨t, ha, hmeets⟩, t', hb, hmeets'⟩
    refine Outcome.require_ok.mpr ⟨[some (.typed t), some (.typed t')], ?_, ?_⟩
    · rw [typesOf, ha, typesOf, hb]
      rfl
    · simp [fitsAny, fits, compatible, hmeets, hmeets', bind, Except.bind, pure, Except.pure]

/-- A value may be assigned to a variable: their types have a flag in common. -/
def Data.Takes (d : Data) (v : Value) : Prop :=
  ∃ declared given, d.type = .typed declared ∧ v.type? = .ok (some (.typed given)) ∧
    given.meets declared = true

theorem Value.product?_ok (h : product? base exponent = .ok (some v)) :
    ∃ times, v = base.product times := by
  cases exponent with
  | int n =>
    cases hdepth : base.depth with
    | error f => simp [product?, hdepth, bind, Except.bind] at h
    | ok depth =>
      rw [product?_int hdepth] at h
      split at h
      · exact ⟨_, (Option.some.inj (Except.ok.inj h)).symm⟩
      · cases h
  | _ => cases h

/-- A power is the base itself or a number. -/
theorem Value.pow_type (h : base.pow exponent = .ok v) :
    (v = base ∧ ∃ n, exponent.number? = some n ∧ n.equal (.int 1) = true) ∨
      ∀ t, v.type? = .ok (some (.typed t)) → t = .ofNumber := by
  have hother : ∀ {w : Value}, (.ok w : Except Fault Value) = .ok v →
      (w.type? = .ok (some (.typed .ofNumber)) ∨ w.type? = .ok none) →
      ∀ t, v.type? = .ok (some (.typed t)) → t = .ofNumber := by
    rintro w ⟨⟩ (hw | hw) t ht <;> cases hw.symm.trans ht
    rfl
  unfold Value.pow at h
  split at h
  · obtain ⟨p, -, h⟩ := ok_of_bind h
    cases p with
    | real n => exact .inr (hother h (.inl (by cases n <;> rfl)))
    | complex => exact .inr (hother h (.inr rfl))
  · dsimp only at h
    split at h <;> exact .inr (hother h (.inl rfl))
  · rename_i n _ hn
    split at h
    · rename_i hsimple
      obtain rfl := Except.ok.inj h
      unfold simplePower? at hsimple
      repeat' split at hsimple
      all_goals cases hsimple
      · exact .inr (hother rfl (.inl rfl))
      · exact .inr (hother rfl (.inl rfl))
      · exact .inr (hother rfl (.inl rfl))
      · exact .inl ⟨rfl, n, hn, ‹_›⟩
    · obtain ⟨found, hfound, h⟩ := ok_of_bind h
      cases found with
      | none => exact .inr (hother h (.inl rfl))
      | some w =>
        obtain ⟨times, rfl⟩ := product?_ok hfound
        exact .inr (hother h (.inl (by cases times <;> rfl)))
  · exact .inr (hother h (.inl rfl))

/-- A calculation gives back an operand only as its first power, and it gives a list only if all
operands are literals. -/
theorem ArithOp.apply_type {op : ArithOp} {operands : List Value} {v : Value}
    (h : op.apply operands = .ok v) :
    (op = .pow ∧ ∃ exponent n, operands = [v, exponent] ∧ exponent.number? = some n ∧
      n.equal (.int 1) = true) ∨
    ∀ t, v.type? = .ok (some (.typed t)) →
      t = .ofNumber ∨ t = .ofString ∨ t = .ofList ∧ operands.all (!·.isBlock) = true := by
  have hnumeric : ∀ {f a b}, Value.numeric f a b = .ok v →
      v.type? = .ok (some (.typed .ofNumber)) := by
    intro f a b h
    unfold Value.numeric at h
    split at h
    · obtain ⟨n, -, h⟩ := ok_of_bind h
      cases n <;> cases h <;> rfl
    · cases h
  unfold ArithOp.apply at h
  split at h
  case h_6 base exponent =>
    rcases Value.pow_type h with ⟨rfl, n, hn, hone⟩ | htype
    · exact .inl ⟨rfl, exponent, n, rfl, hn, hone⟩
    · exact .inr fun t ht => .inl (htype t ht)
  all_goals
    refine .inr fun t ht => ?_
    try simp only [Value.add, Value.sub, Value.mul, Value.div, Value.mod, Value.neg] at h
    repeat' split at h
    all_goals first
      | (cases (hnumeric h).symm.trans ht; simp)
      | (obtain ⟨_, -, h⟩ := ok_of_bind h; cases h; cases ht; simp_all)
      | (cases h; cases ht; simp_all)
      | (rename_i n _; cases n <;> cases h <;> cases ht <;> simp)
      | cases h

/-- The only operator that gives back a list is the first power. -/
theorem UpdateOp.apply_list {op : UpdateOp} {d : Data} {operand v : Value}
    (hd : d.type = .typed .ofList) (h : op.apply (.data d) operand = .ok v) (hv : d.Takes v) :
    v = .data d ∧ op = .arith .pow ∧ ∃ n, operand.number? = some n ∧ n.equal (.int 1) = true := by
  obtain ⟨declared, given, hdeclared, hgiven, hmeets⟩ := hv
  obtain rfl := DataType.typed.inj (hdeclared.symm.trans hd)
  cases op with
  | concat =>
    obtain rfl := Except.ok.inj h
    cases hgiven
    cases hmeets
  | arith op =>
    rcases ArithOp.apply_type h with ⟨rfl, _, n, hoperands, hn⟩ | htype
    · cases hoperands
      exact ⟨rfl, rfl, n, hn⟩
    · rcases htype given hgiven with rfl | rfl | ⟨-, hall⟩
      · cases hmeets
      · cases hmeets
      · simp [Value.isBlock] at hall

namespace Build

/-- An assignment that is let through fits the variable. -/
theorem takes_of_problem? {d : Data} {v : Value} {found : Option DataType} {template : String}
    {wanted : Option TypeSet} (hwanted : ∀ t, d.type = .typed t → wanted = some t)
    (htype : v.type? = .ok found)
    (h : problem? [[wanted, wanted]] [some d.type, found] template = .ok none) : d.Takes v := by
  obtain ⟨_, hmem, hfits⟩ := exists_fits (problem?_none h)
  obtain rfl := List.mem_singleton.mp hmem
  cases hd : d.type with
  | message =>
    rw [hd] at hfits
    cases hfits
  | typed declared =>
    have htypes : typesOf [.data d, v] = .ok [some d.type, found] := by
      rw [typesOf, typesOf, htype]
      rfl
    rw [hwanted declared hd] at hfits
    obtain ⟨given, hgiven, hmeets⟩ :=
      @fits_typesOf _ _ [declared, declared] htypes hfits (v, declared) (by simp)
    exact ⟨declared, given, hd, hgiven, hmeets⟩

theorem takes_of_checkAssignment {d : Data} {v : Value} {u : Unit}
    (h : checkAssignment (some d.type) v s = .ok u s') : d.Takes v := by
  obtain ⟨found, htype, h⟩ := ofExcept_bind_ok.mp h
  obtain ⟨problem, hproblem, h⟩ := ofExcept_bind_ok.mp h
  cases problem with
  | some p => cases h
  | none =>
    refine takes_of_problem? (fun t ht => ?_) htype hproblem
    simp [ht]

end Build

end BlockScript
