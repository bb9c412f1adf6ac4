import BlockScript.Proofs.Formulas
import BlockScript.Proofs.Slots

/-!
What stands in the places of conditions. Types decide whether an expression may stand there, and
types may overlap, so some expressions stand there that are not translated to conditions: variables
of other types than truth values, results of functions, what tells clones apart, items of lists, and
comparisons of literals. Logical operators hand them on.
-/
namespace BlockScript

open Value

/-- What a negation negates. -/
def Value.negated? : Value → Option Value
  | block .not arguments _ _ => arguments.find? isBlock
  | _ => none

/-- What is no condition and is left as it is where a truth value is asked for. -/
def Value.Kept (v : Value) : Prop :=
  v.isCondition = false ∧ (∀ b, v ≠ bool b) ∧
    ∀ t ∈ [.ofNumber, .ofString, .ofList], v.type? ≠ .ok (some (.typed t))

/-- The expressions that logical operators combine in an expression. -/
def Expr.combined (e : Expr) : List Expr :=
  e.nodes.flatMap fun
    | .logic _ .isIn _ => []
    | .logic _ _ es => es
    | _ => []

theorem Expr.mem_nodesAll {e x : Expr} {es : List Expr} (he : e ∈ es) (hx : x ∈ e.nodes) :
    x ∈ Expr.nodesAll es := by
  induction es with
  | nil => cases he
  | cons first rest ih =>
    rcases List.mem_cons.mp he with rfl | he
    · exact List.mem_append_left _ hx
    · exact List.mem_append_right _ (ih he)

mutual

theorem Expr.nodes_trans {x y : Expr} (hx : x ∈ y.nodes) (e : Expr) (hy : y ∈ e.nodes) :
    x ∈ e.nodes := by
  cases e with
  | value | truth | name | malformed => exact List.mem_singleton.mp hy ▸ hx
  | list items | concat pos items | arith pos op items | compare pos op items | logic pos op items
  | unknown pos family items =>
    rcases List.mem_cons.mp hy with rfl | hy
    · exact hx
    · exact List.mem_cons_of_mem _ (nodesAll_trans hx items hy)
  | attr pos object n =>
    rcases List.mem_cons.mp hy with rfl | hy
    · exact hx
    · exact List.mem_cons_of_mem _ (nodes_trans hx object hy)
  | index pos a b =>
    rcases List.mem_cons.mp hy with rfl | hy
    · exact hx
    · refine List.mem_cons_of_mem _ (List.mem_append.mpr ?_)
      exact (List.mem_append.mp hy).imp (nodes_trans hx a) (nodes_trans hx b)
  | call pos f arguments =>
    rcases List.mem_cons.mp hy with rfl | hy
    · exact hx
    · refine List.mem_cons_of_mem _ (List.mem_append.mpr ?_)
      exact (List.mem_append.mp hy).imp (nodes_trans hx f) (nodesAll_trans hx arguments)

theorem Expr.nodesAll_trans {x y : Expr} (hx : x ∈ y.nodes) (es : List Expr)
    (hy : y ∈ Expr.nodesAll es) : x ∈ Expr.nodesAll es := by
  cases es with
  | nil => cases hy
  | cons e rest =>
    refine List.mem_append.mpr ?_
    exact (List.mem_append.mp hy).imp (nodes_trans hx e) (nodesAll_trans hx rest)

end

namespace Build

variable {s s' t t' : BuildState} {e object : Expr} {v w : Value} {pos : Position} {n : String}
  {d : Data} {entry : Entry} {type : TypeSet} {kind : Member} {arguments : List Value}

/-- The value that an expression has. -/
def Has (s : BuildState) (e : Expr) (v : Value) : Prop := ∃ s', expression .script e s = .ok v s'

/-- An expression that is known to be true or false. -/
def Folds (s : BuildState) (e : Expr) (b : Bool) : Prop := e = .truth b ∨ Has s e (.bool b)

/-- The calls of the language whose values may be of any type, and conversions of what is left as it
is. -/
def StrayCall (s : BuildState) (arguments : List Expr) : Builtin → Prop
  | .block op => op ∈ Opcode.generalReporters
  | .randomChoice => True
  | .toBoolean => ∃ e v, arguments = [e] ∧ Has s e v ∧ v.Kept
  | .toNumber | .toText => ∃ e index label, arguments = [e] ∧ Has s e (.parameter index label)
  | _ => False

/-- The expressions that are not translated to conditions where they are taken for truth values. -/
def Stray (s : BuildState) : Expr → Prop
  | .value v => v.isCondition = false
  | .name _ n => ∃ d, find? (.ofName n) s = .ok (some d) s ∧ d.type ≠ .typed .ofBoolean
  | .attr _ object n => find? (.ofExpr object) s = .ok none s ∧ object.isText "this" = true ∧
      n = "is_clone"
  | .index _ _ _ | .arith _ _ _ => True
  | .call _ f arguments =>
    (∃ pos n, f = .name pos n ∧ (Assoc.get? n s.frame.functions).isSome = true) ∨
      ∃ entry, Builtins.functionReporters.resolve f = some (.entry entry) ∧
        StrayCall s arguments entry.builtin
  | .compare _ _ es => ∀ e ∈ es, ∃ v, Has s e v ∧ v.isBlock = false
  | .logic _ .not [e] => ∃ v, Has s e v ∧ ∃ w, v.negated? = some w ∧ w.isCondition = false
  | .logic _ .and [a, b] => (Folds s a true ∧ (∀ x, ¬ Folds s b x) ∧ Stray s b) ∨
      (Folds s b true ∧ (∀ x, ¬ Folds s a x) ∧ Stray s a)
  | .logic _ .or [a, b] => (Folds s a false ∧ (∀ x, ¬ Folds s b x) ∧ Stray s b) ∨
      (Folds s b false ∧ (∀ x, ¬ Folds s a x) ∧ Stray s a)
  | _ => False

theorem Has.eq (h : Has s e v) (h' : Has s e w) : v = w := by
  obtain ⟨s₁, h⟩ := h
  obtain ⟨s₂, h'⟩ := h'
  exact (EStateM.Result.ok.inj (h.symm.trans h')).1

/-- An expression has the same value in every state that it is translated in the same way. -/
theorem Unmoved.has (hst : Unmoved s t) (h : expression .script e t = .ok v t') : Has s e v := by
  obtain ⟨s', hrun, -⟩ := Unmoved.reading.expression e t s v t' hst.symm h
  exact ⟨s', hrun⟩

/-- The literals of an expression are made of blocks with fitting arguments. -/
abbrev Fitted (e : Expr) : Prop := ∀ w, .value w ∈ e.nodes → w.Every (Fitting fun _ => True)

theorem Fitted.every (he : Fitted e) (h : expression .script e s = .ok v s') :
    v.Every (Fitting fun _ => True) :=
  (fitting_expression (fun _ _ _ _ _ => trivial)
    ⟨fun _ _ _ => trivial, fun _ _ _ _ _ => trivial, trivial⟩ he h).1

theorem isCondition_name (h : expression .script (.name pos n) s = .ok v s') :
    v.isCondition = true ↔ ¬ Stray s (.name pos n) := by
  obtain ⟨_, t, hmove, h⟩ := bind_ok.mp h
  obtain ⟨d, hnamed, h⟩ := (reads.variableNamed n).bind_ok h
  have hfind := (keeps_moveTo _ _ _ _ hmove).find?_iff.mp (variableNamed_ok hnamed).1
  obtain ⟨rfl, -⟩ := pure_ok.mp h
  have hstray : Stray s (.name pos n) ↔ d.type ≠ .typed .ofBoolean := by
    constructor
    · rintro ⟨d', hfind', htype⟩
      cases hfind.symm.trans hfind'
      exact htype
    · exact fun htype => ⟨d, hfind, htype⟩
  rw [hstray, not_not]
  by_cases htype : d.type = .typed .ofBoolean
  · simp [htype, isCondition, Opcode.isCondition, Opcode.conditions]
  · simp [htype, isCondition]

theorem isCondition_index {a b : Expr} (h : expression .script (.index pos a b) s = .ok v s') :
    v.isCondition = false := by
  obtain ⟨_, _, -, _, _, -, h⟩ := bind_bind_ok.mp h
  obtain ⟨_, _, -, h⟩ := bind_ok.mp h
  obtain ⟨_, _, -, _, _, -, h⟩ := bind_bind_ok.mp h
  obtain ⟨_, _, -, _, _, -, h⟩ := bind_bind_ok.mp h
  split at h
  · obtain ⟨rfl, -⟩ := pure_ok.mp h
    rfl
  · obtain ⟨rfl, -⟩ := pure_ok.mp h
    rfl

theorem not_fits_of_type (h : v.type? = .ok (some (.typed type)))
    (htype : type.meets .ofBoolean = false) : ¬ v.Fits .ofBoolean := by
  rintro ⟨type', htype', hmeets⟩
  obtain rfl := DataType.typed.inj (Option.some.inj (Except.ok.inj (h.symm.trans htype')))
  rw [htype] at hmeets
  cases hmeets

/-- What a member of a variable gives is a number. -/
theorem not_fits_member (hkind : kind ≠ .function)
    (h : member kind pos object n arguments d s = .ok v s') : ¬ v.Fits .ofBoolean := by
  obtain ⟨table, htable, h⟩ := ofExcept_bind_ok.mp h
  cases haction : Assoc.get? n table with
  | some action =>
    simp only [haction] at h
    have hmem := Assoc.mem_of_get? haction
    have happly := (ofExcept_ok.mp h).1
    unfold MemberAction.tableOf at htable
    split at htable <;> cases htable <;> simp at hmem hkind <;> obtain ⟨-, rfl⟩ := hmem
    iterate 3
      simp only [MemberAction.apply] at happly
      rw [Value.apply_ok happly]
      exact not_fits_of_type rfl rfl
    · rcases arguments with _ | ⟨item, _ | ⟨_, _⟩⟩ <;> cases happly
      exact not_fits_of_type rfl rfl
  | none =>
    simp only [haction] at h
    obtain ⟨_, _, -, _, _, -, h⟩ := bind_bind_ok.mp h
    cases h

/-- An attribute that passes for a truth value is a condition. -/
def Builtin.isShaped (b : Builtin) : Bool :=
  match b.apply [] with
  | .ok v => v.isCondition || match v.type? with
    | .ok (some (.typed t)) => !t.meets .ofBoolean
    | _ => true
  | .error _ => true

theorem isCondition_attribute (hentry : entry ∈ Builtins.reporters.entries)
    (h : entry.builtin.apply [] = .ok v) (hfits : v.Fits .ofBoolean) : v.isCondition = true := by
  have hall : (Builtins.reporters.entries.all fun entry =>
    Builtin.isShaped entry.builtin) = true := by decide
  have hshape := List.all_eq_true.mp hall entry hentry
  obtain ⟨type, htype, hmeets⟩ := hfits
  simpa [Builtin.isShaped, h, htype, hmeets] using hshape

theorem isCondition_attr {object : Expr} (h : expression .script (.attr pos object n) s = .ok v s')
    (hfits : v.Fits .ofBoolean) : v.isCondition = true ↔ ¬ Stray s (.attr pos object n) := by
  obtain ⟨_, t, hmove, h⟩ := bind_ok.mp h
  obtain ⟨found, hfind, h⟩ := (readOnly_find? _).bind_ok h
  have hfind := (keeps_moveTo _ _ _ _ hmove).find?_iff.mp hfind
  cases found with
  | some d => exact absurd hfits (not_fits_member (by decide) h)
  | none =>
    simp only at h
    split at h
    · rename_i hclone
      obtain ⟨d, -, rfl⟩ := (cloneFlag_ok h).2
      have hstray : Stray s (.attr pos object n) := ⟨hfind, by simpa using hclone⟩
      simp [hstray, isCondition]
    · rename_i hclone
      obtain ⟨b, hb, h⟩ := (reads.builtin _ _ _).bind_ok h
      obtain ⟨entry, hresolve, rfl, -⟩ := builtin_ok hb
      have hstray : ¬ Stray s (.attr pos object n) := fun h => hclone (by simpa using h.2)
      simp [hstray, isCondition_attribute (NameTable.mem_entries_of_resolve hresolve)
        (ofOutcome_ok.mp h).1 hfits]

theorem not_fits_retyped (h : v.retyped type = .ok w) (htype : type.meets .ofBoolean = false)
    (hv : ∀ index label, v ≠ .parameter index label) (hflags : v.isBlock = true) :
    ¬ w.Fits .ofBoolean := by
  unfold retyped retype at h
  split at h
  · cases h
    exact not_fits_of_type rfl htype
  · cases h
    exact not_fits_of_type rfl htype
  · exact absurd rfl (hv _ _)
  · cases h
    rintro ⟨_, htype', -⟩
    cases htype'
  · cases hflags
  · cases h

theorem not_fits_toNumber (h : v.toNumber = .ok w)
    (hv : ∀ index label, v ≠ .parameter index label) : ¬ w.Fits .ofBoolean := by
  obtain ⟨_, -, h⟩ := ok_of_bind h
  split at h
  · exact not_fits_retyped h rfl hv ‹_›
  · split at h
    · cases h
      exact not_fits_of_type rfl rfl
    · cases h
      exact not_fits_of_type rfl rfl
    · cases h
      exact not_fits_of_type rfl rfl
    · split at h
      · rename_i number hnumber
        cases h
        unfold numberOfText? at hnumber
        split at hnumber <;>
          · obtain ⟨x, -, rfl⟩ := Option.map_eq_some_iff.mp hnumber
            exact not_fits_of_type rfl rfl
      · cases h
    · obtain ⟨_, -, h⟩ := ok_of_bind h
      cases h

theorem not_fits_toText (h : v.toText = .ok w) (hv : ∀ index label, v ≠ .parameter index label) :
    ¬ w.Fits .ofBoolean := by
  obtain ⟨_, -, h⟩ := ok_of_bind h
  split at h
  · exact not_fits_retyped h rfl hv ‹_›
  · obtain ⟨text, -, h⟩ := ok_of_bind h
    cases h
    exact not_fits_of_type rfl rfl

/-- The conversion to a truth value gives a condition, or what it is given. -/
theorem isCondition_toBoolean (h : v.toBoolean = .ok w) (hfits : w.Fits .ofBoolean) :
    w.isCondition = true ↔ ¬ v.Kept := by
  obtain ⟨_, -, h⟩ := ok_of_bind h
  have hapart : ∀ t ∈ [TypeSet.ofNumber, .ofString, .ofList], t.meets .ofBoolean = false := by
    decide
  have hfits' : v = w → ∀ t ∈ [TypeSet.ofNumber, .ofString, .ofList],
      v.type? ≠ .ok (some (.typed t)) := by
    rintro rfl t ht htype
    exact not_fits_of_type htype (hapart t ht) hfits
  have hsame : (∀ b, v ≠ .bool b) → v = w → (w.isCondition = true ↔ ¬ v.Kept) := by
    rintro hbool rfl
    simp [Kept, hbool, hfits' rfl]
  have hconverted : ∀ t ∈ [TypeSet.ofNumber, .ofString, .ofList], v.type? = .ok (some (.typed t)) →
      w.isCondition = true → (w.isCondition = true ↔ ¬ v.Kept) := fun t ht htype hcondition =>
    iff_of_true hcondition fun hkept => hkept.2.2 t ht htype
  split at h
  · cases h
    exact iff_of_true rfl fun hkept => hkept.2.1 _ rfl
  iterate 3
    cases h
    exact hconverted _ (by simp) rfl rfl
  · rename_i hbool _ _ _
    split at h
    · obtain ⟨type, htype, h⟩ := ok_of_bind h
      have htype := Outcome.ok_of_ofFault htype
      split at h
      · iterate 3
          split at h
          · rename_i ht
            subst ht
            cases h
            exact hconverted _ (by simp) htype rfl
        split at h
        · cases h
        · exact hsame hbool (Except.ok.inj h)
      · exact hsame hbool (Except.ok.inj h)
    · exact hsame hbool (Except.ok.inj h)

theorem Keeps.moved {u : Unit} (h : moveTo pos s = .ok u t) : Unmoved s t :=
  (keeps_moveTo _ _ _ _ h).unmoved

theorem has_expressions {es : List Expr} {values : List Value} (hst : Unmoved s t)
    (h : expressions .script es t = .ok values t') : List.Forall₂ (Has s) es values := by
  induction es generalizing t values with
  | nil =>
    obtain ⟨rfl, -⟩ := pure_ok.mp h
    exact .nil
  | cons e rest ih =>
    obtain ⟨v, t₁, hv, vs, t₂, hvs, h⟩ := bind_bind_ok.mp h
    obtain ⟨rfl, rfl⟩ := pure_ok.mp h
    exact .cons (hst.has hv) (ih (hst.trans (keeps_expression _ _ _ _ _ hv).unmoved) hvs)

/-- The value of an operand of a logical operator. -/
def Operand (s : BuildState) (e : Expr) (v : Value) : Prop :=
  (∃ b, e = .truth b ∧ v = .bool b) ∨ (∀ b, e ≠ .truth b) ∧ Has s e v

theorem Unmoved.operand (hst : Unmoved s t) (h : comparand .script e t = .ok v t') :
    Operand s e v ∧ Unmoved s t' := by
  cases e with
  | truth b =>
    obtain ⟨rfl, rfl⟩ := pure_ok.mp h
    exact ⟨.inl ⟨b, rfl, rfl⟩, hst⟩
  | _ => exact ⟨.inr ⟨by simp, hst.has h⟩, hst.trans (keeps_expression _ _ _ _ _ h).unmoved⟩

theorem operand_comparands {es : List Expr} {values : List Value} (hst : Unmoved s t)
    (h : comparands .script es t = .ok values t') : List.Forall₂ (Operand s) es values := by
  induction es generalizing t values with
  | nil =>
    obtain ⟨rfl, -⟩ := pure_ok.mp h
    exact .nil
  | cons e rest ih =>
    rw [comparands_cons] at h
    obtain ⟨v, t₁, hv, vs, t₂, hvs, h⟩ := bind_bind_ok.mp h
    obtain ⟨rfl, rfl⟩ := pure_ok.mp h
    obtain ⟨hoperand, ht₁⟩ := hst.operand hv
    exact .cons hoperand (ih ht₁ hvs)

theorem Operand.folds_iff {b : Bool} (h : Operand s e v) : Folds s e b ↔ v = .bool b := by
  rcases h with ⟨b', rfl, rfl⟩ | ⟨htruth, hv⟩
  · constructor
    · rintro (h | ⟨_, h⟩)
      · cases h
        rfl
      · cases h
    · rintro ⟨⟩
      exact .inl rfl
  · constructor
    · rintro (h | h)
      · exact absurd h (htruth b)
      · exact hv.eq h
    · rintro rfl
      exact .inr hv

theorem Operand.has (h : Operand s e v) (hv : ∀ b, v = .bool b → False) : Has s e v := by
  rcases h with ⟨b, -, rfl⟩ | h
  · exact (hv b rfl).elim
  · exact h.2

theorem Has.exists_iff {P : Value → Prop} (h : Has s e v) : (∃ w, Has s e w ∧ P w) ↔ P v := by
  constructor
  · rintro ⟨w, hw, hP⟩
    rwa [h.eq hw]
  · exact fun hP => ⟨v, h, hP⟩

theorem isCondition_compareBlocks (op : CompareOp) (a b : Value) :
    (compareBlocks op a b).isCondition = true := by
  cases op <;> rfl

theorem isCondition_compare {op : CompareOp} {es : List Expr}
    (h : expression .script (.compare pos op es) s = .ok v s') :
    v.isCondition = true ↔ ¬ Stray s (.compare pos op es) := by
  obtain ⟨_, t, hmove, values, t₁, hvalues, h⟩ := bind_bind_ok.mp h
  have hhas := has_expressions (Keeps.moved hmove) hvalues
  unfold compared at h
  split at h
  · rename_i a b
    obtain ⟨_, _, -, h⟩ := bind_ok.mp h
    have hcompare : Value.compare op a b = .ok v := (ofExcept_ok.mp h).1
    obtain _ | ⟨ha, _ | ⟨hb, ⟨⟩⟩⟩ := hhas
    simp only [Stray, List.forall_mem_cons, ha.exists_iff, hb.exists_iff, List.not_mem_nil,
      false_implies, implies_true, and_true]
    unfold Value.compare at hcompare
    split at hcompare
    · rename_i hblock
      cases hcompare
      simp [hblock, isCondition_compareBlocks]
    · split at hcompare
      · rename_i hblock
        cases hcompare
        simp [hblock, isCondition_compareBlocks]
      · rename_i hleft hright
        have hbool : ∃ x, v = .bool x := by
          unfold compareLiterals at hcompare
          split at hcompare
          · exact ⟨_, (Except.ok.inj hcompare).symm⟩
          · exact ⟨_, (Except.ok.inj hcompare).symm⟩
          · obtain ⟨_, -, hcompare⟩ := ok_of_bind hcompare
            exact ⟨_, (Except.ok.inj hcompare).symm⟩
        obtain ⟨x, rfl⟩ := hbool
        simp [hleft, hright, isCondition]
  · cases h

theorem combined_ok {op : LogicOp} {operands : List Value} (hop : op ≠ .isIn)
    (h : combined op operands s = .ok v s') :
    (∀ p ∈ operands.zip [.ofBoolean, .ofBoolean], p.1.Fits p.2) ∧ op.apply operands = .ok v := by
  unfold combined at h
  split at h
  · exact absurd rfl hop
  · obtain ⟨_, _, hrequire, h⟩ := bind_ok.mp h
    have hfits := Outcome.fits_of_require (ofOutcome_ok.mp hrequire).1
    exact ⟨by simpa using hfits, (ofExcept_ok.mp h).1⟩

theorem isCondition_truthBlock (b : Bool) : (truthBlock b).isCondition = true := rfl

theorem apply_not {operands : List Value} (h : LogicOp.apply .not operands = .ok v) :
    ∃ a, operands = [a] ∧ a.logicalNot = .ok v := by
  rcases operands with _ | ⟨a, _ | ⟨b, rest⟩⟩
  · cases h
  · exact ⟨a, rfl, h⟩
  · cases rest <;> cases h

/-- What a negation gives is no condition only if it takes away a negation of what is none. -/
theorem isCondition_logicalNot (h : v.logicalNot = .ok w) :
    w.isCondition = true ↔ ¬ ∃ u, v.negated? = some u ∧ u.isCondition = false := by
  unfold logicalNot at h
  split at h
  · cases h
    exact iff_of_true rfl (by simp [negated?])
  · split at h
    · rename_i hinner
      cases h
      simp [negated?, hinner]
    · cases h
  · rename_i hother
    cases h
    refine iff_of_true rfl ?_
    rintro ⟨u, hnegated, -⟩
    unfold negated? at hnegated
    split at hnegated
    · exact hother _ _ _ rfl
    · cases hnegated

theorem isCondition_not {es : List Expr}
    (h : expression .script (.logic pos .not es) s = .ok v s') :
    v.isCondition = true ↔ ¬ Stray s (.logic pos .not es) := by
  obtain ⟨_, t, hmove, values, t₁, hvalues, h⟩ := bind_bind_ok.mp h
  have hoperands := operand_comparands (Keeps.moved hmove) hvalues
  obtain ⟨a, rfl, hnot⟩ := apply_not (combined_ok (by decide) h).2
  obtain _ | ⟨ha, ⟨⟩⟩ := hoperands
  rcases ha with ⟨b, rfl, rfl⟩ | ⟨-, ha⟩
  · cases hnot
    refine iff_of_true rfl ?_
    rintro ⟨_, ⟨_, hrun⟩, w, hnegated, -⟩
    cases hrun
    cases hnegated
  · rw [Stray, ha.exists_iff]
    exact isCondition_logicalNot hnot

/-- A conjunction or a disjunction hands on an operand if the other one is a truth value that does
not decide it, and else it gives a condition. -/
theorem isCondition_join {op : LogicOp} {x : Bool} {a b : Value}
    (hop : op = .and ∧ x = true ∨ op = .or ∧ x = false) (h : op.apply [a, b] = .ok v) :
    (a = .bool x ∧ (∀ y, b ≠ .bool y) ∧ v = b) ∨ (b = .bool x ∧ (∀ y, a ≠ .bool y) ∧ v = a) ∨
      ¬ (a = .bool x ∧ ∀ y, b ≠ .bool y) ∧ ¬ (b = .bool x ∧ ∀ y, a ≠ .bool y) ∧
        v.isCondition = true := by
  rcases hop with ⟨rfl, rfl⟩ | ⟨rfl, rfl⟩
  · have hv : a.logicalAnd b = v := Except.ok.inj h
    unfold logicalAnd at hv
    split at hv
    · subst hv
      simp [isCondition_truthBlock]
    · rename_i y hb
      cases y with
      | true => exact .inl ⟨rfl, hb, hv.symm⟩
      | false => exact .inr (.inr ⟨by simp, fun h => hb _ h.1, hv ▸ rfl⟩)
    · rename_i y ha
      cases y with
      | true => exact .inr (.inl ⟨rfl, ha, hv.symm⟩)
      | false => exact .inr (.inr ⟨fun h => ha _ h.1, by simp, hv ▸ rfl⟩)
    · rename_i ha hb _
      exact .inr (.inr ⟨fun h => ha _ h.1, fun h => hb _ h.1, hv ▸ rfl⟩)
  · have hv : a.logicalOr b = v := Except.ok.inj h
    unfold logicalOr at hv
    split at hv
    · subst hv
      simp [isCondition_truthBlock]
    · rename_i y hb
      cases y with
      | false => exact .inl ⟨rfl, hb, hv.symm⟩
      | true => exact .inr (.inr ⟨by simp, fun h => hb _ h.1, hv ▸ rfl⟩)
    · rename_i y ha
      cases y with
      | false => exact .inr (.inl ⟨rfl, ha, hv.symm⟩)
      | true => exact .inr (.inr ⟨fun h => ha _ h.1, by simp, hv ▸ rfl⟩)
    · rename_i ha hb _
      exact .inr (.inr ⟨fun h => ha _ h.1, fun h => hb _ h.1, hv ▸ rfl⟩)

/-- The names of the language that are called where a value is asked for. -/
def Builtin.isReporter : Builtin → Bool
  | .block _ | .operation _ | .randomChoice | .toNumber | .toText | .toBoolean => true
  | _ => false

theorem isReporter_of_mem (h : entry ∈ Builtins.functionReporters.entries) :
    Builtin.isReporter entry.builtin = true := by
  have hall : (Builtins.functionReporters.entries.all fun entry =>
    Builtin.isReporter entry.builtin) = true := by decide
  exact List.all_eq_true.mp hall entry h

/-- A block that passes for a truth value is a condition or may give values of any type. -/
theorem isCondition_block {op : Opcode} {retyped : Option TypeSet}
    {alternative : Option (List Value)}
    (hv : (Value.block op arguments retyped alternative).Every (Fitting fun _ => True))
    (hfits : (Value.block op arguments retyped alternative).Fits .ofBoolean) :
    op.isCondition = true ↔ op ∉ Opcode.generalReporters := by
  have hboth : op.isCondition = true → op ∉ Opcode.generalReporters := by cases op <;> decide
  refine ⟨hboth, fun hother => ?_⟩
  obtain ⟨type, htype, hmeets⟩ := hfits
  rcases hv.1.2 with rfl | (rfl | rfl) | ⟨rfl, -⟩
  · simp only [type?, Option.none_or, Opcode.resultType] at htype
    split at htype <;> cases htype
    rename_i hresult
    split at hresult
    · assumption
    · repeat' split at hresult
      all_goals cases hresult
      · cases hmeets
      · cases hmeets
      · exact absurd (by simpa using ‹Opcode.generalReporters.contains op = true›) hother
  · cases htype
    cases hmeets
  · cases htype
    cases hmeets
  · exact absurd (by decide) hother

/-- Only a parameter is left as it is by the conversions to numbers and texts. -/
theorem isCondition_parameter (hx : Has s e w)
    (hother : ¬ ∀ index label, w ≠ .parameter index label)
    (h : ∀ index label, w = .parameter index label → v = w) : v.isCondition = true ↔
      ¬ ∃ e' index label, [e] = [e'] ∧ Has s e' (.parameter index label) := by
  simp only [not_forall, not_not] at hother
  obtain ⟨index, label, rfl⟩ := hother
  obtain rfl := h _ _ rfl
  exact iff_of_false (by simp [isCondition]) (not_not.mpr ⟨e, index, label, rfl, hx⟩)

theorem isCondition_builtin {f : Expr} {es : List Expr} (hv : v.Every (Fitting fun _ => True))
    (hes : List.Forall₂ (Has s) es arguments) (h : builtinValue f arguments t = .ok v t')
    (hfits : v.Fits .ofBoolean) : v.isCondition = true ↔
      ¬ ∃ entry, Builtins.functionReporters.resolve f = some (.entry entry) ∧
        StrayCall s es entry.builtin := by
  obtain ⟨b, hb, h⟩ := (reads.builtin _ _ _).bind_ok h
  obtain ⟨entry, hresolve, rfl, -⟩ := builtin_ok hb
  have hstray : (∃ entry, Builtins.functionReporters.resolve f = some (.entry entry) ∧
      StrayCall s es entry.builtin) ↔ StrayCall s es entry.builtin := by
    simp [hresolve]
  rw [hstray]
  obtain ⟨_, _, -, h⟩ := bind_ok.mp h
  have happly : entry.builtin.apply arguments = .ok v ∨
      entry.builtin = .block .touchingObject ∧ ∃ sprite, v = .op .touchingObject [sprite] := by
    generalize entry.builtin = b at h
    split at h
    · obtain ⟨found, _, -, h⟩ := bind_ok.mp h
      cases found with
      | some sprite => exact .inr ⟨rfl, sprite, (pure_ok.mp h).1.symm⟩
      | none => exact .inl (ofOutcome_ok.mp h).1
    · exact .inl (ofOutcome_ok.mp h).1
  rcases happly with happly | ⟨hbuiltin, sprite, rfl⟩
  · have hreporter := isReporter_of_mem (NameTable.mem_entries_of_resolve hresolve)
    generalize entry.builtin = b at happly hreporter
    unfold Builtin.apply at happly
    split at happly <;> try cases hreporter
    · rename_i op
      obtain rfl := Value.apply_ok (Outcome.ok_of_ofFault happly)
      exact isCondition_block hv hfits
    · cases happly
      exact absurd hfits (not_fits_of_type rfl rfl)
    · have hfalse : v.isCondition = false := by
        unfold randomChoice at happly
        repeat' split at happly
        all_goals
          cases happly
          rfl
      exact iff_of_false (by simp [hfalse]) (not_not.mpr trivial)
    · obtain _ | ⟨hx, ⟨⟩⟩ := hes
      refine isCondition_parameter hx (fun hother => not_fits_toNumber happly hother hfits) ?_
      rintro index label rfl
      obtain ⟨_, -, happly⟩ := ok_of_bind happly
      exact (Except.ok.inj happly).symm
    · obtain _ | ⟨hx, ⟨⟩⟩ := hes
      refine isCondition_parameter hx (fun hother => not_fits_toText happly hother hfits) ?_
      rintro index label rfl
      obtain ⟨_, -, happly⟩ := ok_of_bind happly
      exact (Except.ok.inj happly).symm
    · obtain _ | ⟨hx, ⟨⟩⟩ := hes
      rw [isCondition_toBoolean happly hfits]
      simp [StrayCall, hx.exists_iff]
    · cases happly
  · rw [hbuiltin]
    exact iff_of_true rfl (by simp [StrayCall, Opcode.generalReporters])

theorem isCondition_call {f : Expr} {es : List Expr} (he : Fitted (.call pos f es))
    (h : expression .script (.call pos f es) s = .ok v s') (hfits : v.Fits .ofBoolean) :
    v.isCondition = true ↔ ¬ Stray s (.call pos f es) := by
  have hv := he.every h
  obtain ⟨_, t, hmove, values, t₁, hvalues, h⟩ := bind_bind_ok.mp h
  have hes := has_expressions (Keeps.moved hmove) hvalues
  have hkeeps : Keeps s t₁ :=
    IsTrans.trans _ _ _ (keeps_moveTo _ _ _ _ hmove) (keeps_expressions _ _ _ hvalues)
  have hbuiltin : builtinValue f values t₁ = .ok v s' →
      (¬ ∃ p n, f = .name p n ∧ (Assoc.get? n s.frame.functions).isSome = true) →
      (v.isCondition = true ↔ ¬ Stray s (.call pos f es)) := by
    intro h huser
    rw [Stray, or_iff_right huser]
    exact isCondition_builtin hv hes h hfits
  cases f with
  | value | truth | list => cases h
  | name p n =>
    simp only [callValue, get_bind_ok, hkeeps.functions] at h
    cases hfunction : Assoc.get? n s.frame.functions with
    | some function =>
      simp only [hfunction] at h
      obtain ⟨output, _, -, -, rfl, -⟩ := functionValue_ok h
      refine iff_of_false (by simp [isCondition]) (not_not.mpr (.inl ⟨p, n, rfl, ?_⟩))
      simp [hfunction]
    | none =>
      simp only [hfunction] at h
      exact hbuiltin h (by simp [hfunction])
  | attr p object n =>
    obtain ⟨found, hfind, h⟩ := (readOnly_find? _).bind_ok h
    cases found with
    | some d => exact absurd hfits (not_fits_member (by decide) h)
    | none => exact hbuiltin h (by simp)
  | malformed p fault =>
    cases fault with
    | missingField => cases h
    | _ => exact hbuiltin h (by simp)
  | _ => exact hbuiltin h (by simp)

theorem isCondition_operands {op : LogicOp} {x : Bool} {e₁ e₂ : Expr} {a b : Value}
    (hop : op = .and ∧ x = true ∨ op = .or ∧ x = false) (ha : Operand s e₁ a) (hb : Operand s e₂ b)
    (h : op.apply [a, b] = .ok v)
    (iha : Has s e₁ a → (a.isCondition = true ↔ ¬ Stray s e₁))
    (ihb : Has s e₂ b → (b.isCondition = true ↔ ¬ Stray s e₂)) :
    v.isCondition = true ↔ ¬ ((Folds s e₁ x ∧ (∀ y, ¬ Folds s e₂ y) ∧ Stray s e₂) ∨
      (Folds s e₂ x ∧ (∀ y, ¬ Folds s e₁ y) ∧ Stray s e₁)) := by
  simp only [ha.folds_iff, hb.folds_iff]
  rcases isCondition_join hop h with ⟨rfl, hb', rfl⟩ | ⟨rfl, ha', rfl⟩ | ⟨hleft, hright, hv⟩
  · simp [ihb (hb.has hb'), hb']
  · simp [iha (ha.has ha'), ha']
  · refine iff_of_true hv ?_
    rintro (⟨ha', hb', -⟩ | ⟨hb', ha', -⟩)
    · exact hleft ⟨ha', hb'⟩
    · exact hright ⟨hb', ha'⟩

theorem type_of_isCondition (hv : v.Every (Fitting fun _ => True)) (hfits : v.Fits .ofBoolean)
    (h : v.isCondition = true) : v.type? = .ok (some (.typed .ofBoolean)) := by
  cases v with
  | block op operands retyped alternative =>
    have hop : Opcode.conditions.contains op = true := h
    rcases hv.1.2 with rfl | (rfl | rfl) | ⟨rfl, -⟩
    · simp only [type?, Option.none_or, Opcode.resultType, hop, if_true]
    · exact absurd hfits (not_fits_of_type rfl rfl)
    · exact absurd hfits (not_fits_of_type rfl rfl)
    · cases hop
  | _ => cases h

/-- A calculation passes for a truth value only as the first power of what may be a number as
well. -/
theorem isCondition_arith {op : ArithOp} {es : List Expr} (he : Fitted (.arith pos op es))
    (h : expression .script (.arith pos op es) s = .ok v s') (hfits : v.Fits .ofBoolean) :
    v.isCondition = false := by
  have hv := he.every h
  obtain ⟨_, _, -, values, _, -, h⟩ := bind_bind_ok.mp h
  obtain ⟨_, _, hrequire, h⟩ := bind_ok.mp h
  rcases ArithOp.apply_type (ofExcept_ok.mp h).1 with ⟨rfl, exponent, _, rfl, -, -⟩ | htype
  · obtain ⟨wanted, hwanted, hnumbers⟩ := Outcome.fits_of_require (ofOutcome_ok.mp hrequire).1
    obtain rfl := List.mem_singleton.mp hwanted
    have hnumber : v.Fits .ofNumber := hnumbers (v, .ofNumber) (by simp)
    rw [Bool.eq_false_iff]
    intro hcondition
    obtain ⟨type, htype, hmeets⟩ := hnumber
    rw [type_of_isCondition hv hfits hcondition] at htype
    cases htype
    cases hmeets
  · obtain ⟨type, hown, hmeets⟩ := hfits
    rcases htype type hown with rfl | rfl | ⟨rfl, -⟩ <;> cases hmeets

theorem isCondition_isIn {operands : List Value} (h : combined .isIn operands s = .ok v s') :
    v.isCondition = true := by
  have happly : LogicOp.isIn.apply operands = .ok v := by
    simp only [combined] at h
    cases hwhole : operands[1]? <;> simp only [hwhole] at h <;>
      obtain ⟨_, _, -, h⟩ := bind_ok.mp h <;> exact (ofExcept_ok.mp h).1
  rcases operands with _ | ⟨a, _ | ⟨b, _ | ⟨c, rest⟩⟩⟩ <;> try cases happly
  change a.contains b = .ok v at happly
  unfold contains at happly
  split at happly
  · cases happly
    rfl
  · obtain ⟨type, -, happly⟩ := ok_of_bind happly
    split at happly <;> cases happly <;> rfl

theorem apply_join {op : LogicOp} {operands : List Value} (hop : op = .and ∨ op = .or)
    (h : op.apply operands = .ok v) : ∃ a b, operands = [a, b] := by
  rcases operands with _ | ⟨a, _ | ⟨b, _ | ⟨c, rest⟩⟩⟩
  · rcases hop with rfl | rfl <;> cases h
  · rcases hop with rfl | rfl <;> cases h
  · exact ⟨a, b, rfl⟩
  · rcases hop with rfl | rfl <;> cases h

theorem isCondition_joined {op : LogicOp} {x : Bool} {es : List Expr} {operands : List Value}
    (hop : op = .and ∧ x = true ∨ op = .or ∧ x = false)
    (hes : List.Forall₂ (Operand s) es operands) (h : combined op operands t = .ok v t')
    (ih : ∀ e ∈ es, ∀ w s', expression .script e s = .ok w s' → w.Fits .ofBoolean →
      (w.isCondition = true ↔ ¬ Stray s e)) :
    v.isCondition = true ↔ ¬ Stray s (.logic pos op es) := by
  have hboth : op ≠ .isIn ∧ (op = .and ∨ op = .or) := by
    rcases hop with ⟨rfl, -⟩ | ⟨rfl, -⟩ <;> simp
  obtain ⟨hfits, happly⟩ := combined_ok hboth.1 h
  obtain ⟨a, b, rfl⟩ := apply_join hboth.2 happly
  cases hes with
  | @cons e₁ _ _ _ ha hrest =>
    cases hrest with
    | @cons e₂ _ _ _ hb hrest =>
      cases hrest
      have hstray := isCondition_operands hop ha hb happly
        (fun h => ih e₁ (by simp) a _ h.choose_spec (hfits (a, .ofBoolean) (by simp)))
        fun h => ih e₂ (by simp) b _ h.choose_spec (hfits (b, .ofBoolean) (by simp))
      rcases hop with ⟨rfl, rfl⟩ | ⟨rfl, rfl⟩ <;> exact hstray

/-- An expression that is taken for a truth value is translated to a condition unless it is
stray. -/
theorem isCondition_iff_not_stray {s s' : BuildState} {v : Value} (e : Expr) (he : Fitted e)
    (h : expression .script e s = .ok v s') (hfits : v.Fits .ofBoolean) :
    v.isCondition = true ↔ ¬ Stray s e := by
  cases e with
  | value w =>
    obtain ⟨rfl, -⟩ := pure_ok.mp h
    simp [Stray]
  | truth b =>
    obtain ⟨rfl, -⟩ := pure_ok.mp h
    exact iff_of_true rfl id
  | list items =>
    obtain ⟨values, _, -, h⟩ := bind_ok.mp h
    obtain ⟨rfl, -⟩ := pure_ok.mp h
    exact absurd hfits (not_fits_of_type rfl rfl)
  | name pos n => exact isCondition_name h
  | attr pos object n => exact isCondition_attr h hfits
  | index pos a b => simp [isCondition_index h, Stray]
  | call pos f es => exact isCondition_call he h hfits
  | concat pos es =>
    obtain ⟨_, _, -, values, _, -, h⟩ := bind_bind_ok.mp h
    unfold concatenated at h
    split at h
    · obtain ⟨_, _, -, h⟩ := bind_ok.mp h
      split at h <;> obtain ⟨rfl, -⟩ := pure_ok.mp h <;>
        exact absurd hfits (not_fits_of_type rfl rfl)
    · cases h
  | arith pos op es =>
    exact iff_of_false (by simp [isCondition_arith he h hfits]) (not_not.mpr trivial)
  | compare pos op es => exact isCondition_compare h
  | logic pos op es =>
    obtain ⟨_, t, hmove, values, t₁, hvalues, hcombined⟩ := bind_bind_ok.mp h
    have hoperands := operand_comparands (Keeps.moved hmove) hvalues
    cases op with
    | not => exact isCondition_not h
    | isIn => exact iff_of_true (isCondition_isIn hcombined) id
    | and =>
      exact isCondition_joined (.inl ⟨rfl, rfl⟩) hoperands hcombined fun e hmem w s' hw =>
        isCondition_iff_not_stray e (fun w hw => he w (by simp [Expr.mem_nodesAll hmem hw])) hw
    | or =>
      exact isCondition_joined (.inr ⟨rfl, rfl⟩) hoperands hcombined fun e hmem w s' hw =>
        isCondition_iff_not_stray e (fun w hw => he w (by simp [Expr.mem_nodesAll hmem hw])) hw
  | unknown pos family es =>
    have hnever := fun values => gives_unknownOperation (P := fun _ => False) family values
    obtain ⟨_, _, -, h⟩ := bind_ok.mp h
    cases family <;> obtain ⟨values, _, -, h⟩ := bind_ok.mp h <;> exact (hnever values _ _ _ h).elim
  | malformed pos f =>
    obtain ⟨_, _, -, h⟩ := bind_ok.mp h
    cases h

/-- Logical operators combine no truth values, and what they combine is a condition or the value of
a stray operand. -/
def Decided (s : BuildState) (e : Expr) : Value → Prop
  | .block op arguments _ _ => op ∈ logical → ∀ w ∈ arguments, (∀ b, w ≠ .bool b) ∧
      (w.isCondition = false → ∃ a ∈ e.combined, Has s a w ∧ Stray s a)
  | _ => True

/-- What logical operators may combine in an expression. -/
def Allowed (s : BuildState) (e : Expr) (w : Value) : Prop :=
  w.Fits .ofBoolean → (∀ b, w ≠ .bool b) → w.isCondition = false →
    ∃ a ∈ e.combined, Has s a w ∧ Stray s a

theorem lenient_decided (s : BuildState) (e : Expr) : Lenient (Allowed s e) (Decided s e) where
  operator op arguments _ hsuits hallowed hlogical w hw := by
    have hoperand : w.Fits .ofBoolean ∧ ∀ x, w ≠ .bool x := by
      simp only [logical, List.mem_cons, List.not_mem_nil, or_false] at hlogical
      rcases hlogical with rfl | rfl | rfl <;> exact hsuits w hw
    refine ⟨hoperand.2, fun hfalse => ?_⟩
    rcases hallowed hlogical w hw with htrue | hallowed
    · rw [hfalse] at htrue
      cases htrue
    · exact hallowed hoperand.1 hoperand.2 hfalse
  item _ h := absurd h (by decide)
  retypedBlock _ _ _ _ _ h _ := h
  retypedData _ _ _ _ _ := trivial

theorem mem_combined {op : LogicOp} {es : List Expr} (hmem : .logic pos op es ∈ e.nodes)
    (hop : op ≠ .isIn) {a : Expr} (ha : a ∈ es) : a ∈ e.combined := by
  refine List.mem_flatMap.mpr ⟨_, hmem, ?_⟩
  cases op with
  | isIn => exact absurd rfl hop
  | _ => exact ha

/-- The literals of an expression are numbers and texts. -/
abbrev Written (e : Expr) : Prop := ∀ a ∈ e.nodes, a.Written

theorem Written.fitted (he : Written e) : Fitted e := by
  intro w hw
  have hwritten := he _ hw w rfl
  cases w with
  | int | float | str => trivial
  | _ => cases hwritten

theorem decided_expression (he : Written e) (h : expression .script e s = .ok v s') :
    v.Every (Decided s e) ∧ ∃ calls, s'.frame.unfinished = addBlocks calls s.frame.unfinished ∧
      EveryAll (Decided s e) calls := by
  have hknown : Known (fun _ => True) s := ⟨fun _ _ _ => trivial, fun _ _ _ _ _ => trivial, trivial⟩
  have hoffers : ∀ entry ∈ Builtins.entries, ∀ op ∈ entry.builtin.opcodes, ∀ arguments,
      Decided s e (.op op arguments) := by
    have hall : (Builtins.entries.all fun entry => entry.builtin.opcodes.all fun op =>
      !logical.contains op) = true := by decide
    intro entry hentry op hop arguments hlogical
    have hother := List.all_eq_true.mp (List.all_eq_true.mp hall entry hentry) op hop
    simp [hlogical] at hother
  have hliteral : ∀ w, .value w ∈ e.nodes → ∀ _ : BuildState, w.Every (Decided s e) := by
    intro w hw _
    have hwritten := he _ hw w rfl
    cases w with
    | int | float | str => trivial
    | _ => cases hwritten
  have hallowed : ∀ {I : BuildState → Prop}, (∀ t, I t → Keeps s t) →
      Combines (Allowed s e) I e.nodes := by
    intro I hI pos op es hmem hop a ha t w t' ht hw hfits hbool hfalse
    have hhas := ((hI t ht).unmoved.operand hw).1.has hbool
    have hfitted : Fitted a := Written.fitted fun x hx =>
      he x (Expr.nodes_trans (List.mem_cons_of_mem _ (Expr.mem_nodesAll ha hx)) e hmem)
    have hstray := isCondition_iff_not_stray a hfitted hhas.choose_spec hfits
    exact ⟨a, mem_combined hmem hop ha, hhas, by simpa [hfalse] using hstray⟩
  obtain ⟨⟨⟨-, hcalls⟩, -⟩, hv⟩ := (stock_known hknown (lenient_decided s e) hoffers
    (fun _ _ => trivial) fun _ _ => trivial).expression e hliteral (hallowed fun _ ht => ht.1) s v
    s' ⟨Std.Refl.refl s, [], by simp, trivial⟩ h
  exact ⟨hv, hcalls⟩

/-- The block of a statement with a condition, the condition, and what stands in its place. A loop
stops where its condition does not hold; one that never ends has none. -/
def slot? : Stmt → Option (Opcode × Expr × Expr)
  | .ifThen _ c _ | .ifElse _ c _ _ => some (.ifThen, c, c)
  | .whileLoop _ (.truth true) _ => none
  | .whileLoop pos c _ => some (.repeatUntil, c, .logic pos .not [c])
  | _ => none

/-- What is built before the condition of a statement. -/
def opening : Stmt → Build Unit
  | .ifThen pos _ _ | .ifElse pos _ _ _ => moveTo pos
  | .whileLoop pos _ body => do
    moveTo pos
    let _ ← inScript true (statements body)
  | _ => pure ()

theorem condition_value {c : Expr} (h : condition c s = .ok v s') :
    expression .script c s = .ok v s' ∧ v.Fits .ofBoolean := by
  obtain ⟨v, t, hv, _, t', hrequire, h⟩ := bind_bind_ok.mp h
  obtain ⟨hfits, rfl⟩ := ofOutcome_ok.mp hrequire
  obtain ⟨rfl, rfl⟩ := pure_ok.mp h
  exact ⟨hv, Outcome.require_one.mp hfits⟩

theorem Decided.mono {e' : Expr} (he : ∀ a ∈ e.combined, a ∈ e'.combined) (h : Decided s e v) :
    Decided s e' v := by
  cases v with
  | block op arguments retyped alternative =>
    intro hlogical w hw
    obtain ⟨hbool, hstray⟩ := h hlogical w hw
    refine ⟨hbool, fun hfalse => ?_⟩
    obtain ⟨a, ha, hvalue⟩ := hstray hfalse
    exact ⟨a, he a ha, hvalue⟩
  | _ => trivial

/-- Where a condition belongs, there is a condition unless what stands there is stray. This holds of
branches and loops, of every expression that is taken for a truth value, and of what logical
operators combine in the value of every expression and in the calls that it adds. -/
theorem condition_slots (s s' : BuildState) :
    (∀ stmt o c e, slot? stmt = some (o, c, e) → Written c → statement stmt s = .ok () s' →
      ∃ t v script alternative u, opening stmt s = .ok () t ∧
        emit (.block o (v :: script) none alternative) u = .ok () s' ∧
        (v.isCondition = true ↔ ¬ Stray t e) ∧ v.Every (Decided t e)) ∧
    ∀ e v, Written e → expression .script e s = .ok v s' →
      (v.Fits .ofBoolean → (v.isCondition = true ↔ ¬ Stray s e)) ∧ v.Every (Decided s e) ∧
        ∃ calls, s'.frame.unfinished = addBlocks calls s.frame.unfinished ∧
          EveryAll (Decided s e) calls := by
  refine ⟨fun stmt o c e hslot hc h => ?_, fun e v he h =>
    ⟨isCondition_iff_not_stray e he.fitted h, decided_expression he h⟩⟩
  have hvalue : ∀ {t t' v}, condition c t = .ok v t' →
      (v.isCondition = true ↔ ¬ Stray t c) ∧ v.Every (Decided t c) := by
    intro t t' v hv
    obtain ⟨hv, hfits⟩ := condition_value hv
    exact ⟨isCondition_iff_not_stray c hc.fitted hv hfits, (decided_expression hc hv).1⟩
  unfold slot? at hslot
  split at hslot
  · cases hslot
    obtain ⟨_, t, hmove, v, _, hv, h⟩ := bind_bind_ok.mp h
    obtain ⟨script, u, -, h⟩ := bind_ok.mp h
    exact ⟨t, v, script, none, u, hmove, h, hvalue hv⟩
  · cases hslot
    obtain ⟨_, t, hmove, v, _, hv, h⟩ := bind_bind_ok.mp h
    obtain ⟨script, _, -, alternative, u, -, h⟩ := bind_bind_ok.mp h
    exact ⟨t, v, script, some alternative, u, hmove, h, hvalue hv⟩
  · cases hslot
  · rename_i pos c body hforever
    cases hslot
    obtain ⟨_, t₀, hmove, script, t, hscript, h⟩ := bind_bind_ok.mp h
    split at h
    · exact (hforever rfl).elim
    · obtain ⟨v, _, hv, _, _, -, h⟩ := bind_bind_ok.mp h
      obtain ⟨w, u, hw, h⟩ := bind_ok.mp h
      have hw := (ofExcept_ok.mp hw).1
      obtain ⟨hrun, hfits⟩ := condition_value hv
      have hhas : Has t c v := ⟨_, hrun⟩
      refine ⟨t, w, script, none, u, bind_ok.mpr ⟨_, t₀, hmove, bind_ok.mpr ⟨_, t, hscript, rfl⟩⟩,
        h, ?_, ?_⟩
      · rw [Stray, hhas.exists_iff]
        exact isCondition_logicalNot hw
      · have hmem : c ∈ Expr.combined (.logic pos .not [c]) :=
          mem_combined List.mem_cons_self (by decide) List.mem_cons_self
        have hallowed : Allowed t (.logic pos .not [c]) v := fun _ _ hfalse =>
          ⟨c, hmem, hhas, by simpa [hfalse] using (hvalue hv).1⟩
        refine yields_logicalNot (lenient_decided t _) ((hvalue hv).2.mono fun _ => .mono ?_) hfits
          hallowed w hw
        intro a ha
        obtain ⟨x, hx, ha⟩ := List.mem_flatMap.mp ha
        exact List.mem_flatMap.mpr ⟨x, List.mem_cons_of_mem _ (Expr.mem_nodesAll (by simp) hx), ha⟩
  · cases hslot

/-- A variable that may hold anything stands in the place of a condition as it is. -/
theorem condition_slots_general :
    ∃ s', statement (.ifThen (.start 0) (.name (.start 0) "x") []) generalBuilder = .ok () s' ∧
      ∃ t v script alternative u, moveTo (.start 0) generalBuilder = .ok () t ∧
        emit (.block .ifThen (v :: script) none alternative) u = .ok () s' ∧
        (v.isCondition = true ↔ ¬ Stray t (.name (.start 0) "x")) ∧
        v.Every (Decided t (.name (.start 0) "x")) := by
  obtain ⟨s', hrun⟩ : ∃ s', statement (.ifThen (.start 0) (.name (.start 0) "x") [])
    generalBuilder = .ok () s' := ⟨_, rfl⟩
  have hwritten : Written (.name (.start 0) "x") := by
    intro a ha v hv
    cases List.mem_singleton.mp ha
    cases hv
  exact ⟨s', hrun, (condition_slots generalBuilder s').1 _ _ _ _ rfl hwritten hrun⟩

end Build

end BlockScript
