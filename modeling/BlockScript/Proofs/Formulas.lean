import BlockScript.Proofs.Consistency

/-!
The meaning of logical operators. A formula is made of truth values, boolean variables and
comparisons by negation, conjunction and disjunction. Its translation leaves out blocks where
an operand is a truth value, and removes double negations. The condition that results says
what the formula says, with one exception: where `and` joins a false truth value and a formula
that is none, the condition is the negation of that formula.
-/
namespace BlockScript

namespace Value

/-- What a condition says in a world that decides the blocks that are no logical operators. -/
def truth (world : Value → Bool) : Value → Bool
  | bool b => b
  | block .not [v] _ _ => !truth world v
  | block .and [v, w] _ _ => truth world v && truth world w
  | block .or [v, w] _ _ => truth world v || truth world w
  | block .equals [int m, int n] _ _ => m == n
  | v => world v

/-- A block that is a condition. A negation has nothing but the condition that it negates. -/
inductive Conditional : Value → Prop
  | not {v : Value} (h : Conditional v) : Conditional (op .not [v])
  | other {o : Opcode} {arguments : List Value} (ho : o ≠ .not)
      (htype : o.resultType = some .ofBoolean) : Conditional (op o arguments)

namespace Conditional

section

variable (h : Conditional v)

include h

theorem isBlock : v.isBlock = true := by
  cases h <;> rfl

theorem type?_eq : v.type? = .ok (some (.typed .ofBoolean)) := by
  cases h with
  | not h => rfl
  | other ho htype => simp [type?, htype]

theorem logicalNot :
    ∃ w, v.logicalNot = .ok w ∧ Conditional w ∧ ∀ world, w.truth world = !v.truth world := by
  cases h with
  | @not inner h =>
    refine ⟨inner, ?_, h, fun world => ?_⟩
    · simp [Value.logicalNot, h.isBlock]
    · simp [truth]
  | @other o arguments ho htype =>
    refine ⟨op .not [op o arguments], ?_, .not (.other ho htype), fun world => ?_⟩
    · simp [Value.logicalNot, ho]
    · simp [truth]

theorem logicalAnd (h' : Conditional w) : v.logicalAnd w = op .and [v, w] := by
  cases h <;> cases h' <;> rfl

theorem logicalOr (h' : Conditional w) : v.logicalOr w = op .or [v, w] := by
  cases h <;> cases h' <;> rfl

theorem bool_logicalAnd (b : Bool) :
    (bool b).logicalAnd v = (if b then v else op .not [v]) ∧
      v.logicalAnd (bool b) = if b then v else op .not [v] := by
  cases h <;> exact ⟨rfl, rfl⟩

theorem bool_logicalOr (b : Bool) :
    (bool b).logicalOr v = (if b then op .equals [int 1, int 1] else v) ∧
      v.logicalOr (bool b) = if b then op .equals [int 1, int 1] else v := by
  cases h <;> exact ⟨rfl, rfl⟩

end

theorem equals (arguments : List Value) : Conditional (op .equals arguments) :=
  .other (by decide) rfl

theorem compareBlocks (c : CompareOp) (v w : Value) : Conditional (compareBlocks c v w) := by
  cases c with
  | lt | gt | eq => exact .other (by decide) rfl
  | le | ge | ne => exact .not (.other (by decide) rfl)

end Conditional

variable {v : Value} {known : Option Bool}

/-- A comparison is a condition, or a truth value if both sides are literals. -/
theorem compare_conditional {c : CompareOp} {a b : Value} (h : a.compare c b = .ok v) :
    (∃ truth, v = bool truth) ∨ Conditional v := by
  unfold Value.compare at h
  split at h
  · obtain rfl := Except.ok.inj h
    exact .inr (.compareBlocks c a b)
  · split at h
    · obtain rfl := Except.ok.inj h
      exact .inr (.compareBlocks c.flip b a)
    · refine .inl ?_
      unfold compareLiterals at h
      split at h
      · exact ⟨_, (Except.ok.inj h).symm⟩
      · exact ⟨_, (Except.ok.inj h).symm⟩
      · cases horder : order? a b with
        | error f =>
          rw [horder] at h
          cases h
        | ok o =>
          rw [horder] at h
          exact ⟨_, (Except.ok.inj h).symm⟩

/-- An operand of a logical operator: a truth value, if one is known, and a condition otherwise. -/
def Operand (known : Option Bool) (v : Value) : Prop :=
  match known with
  | some b => v = bool b
  | none => Conditional v

theorem Operand.type?_eq (h : Operand known v) : v.type? = .ok (some (.typed .ofBoolean)) := by
  cases known with
  | some b =>
    obtain rfl := h
    rfl
  | none => exact Conditional.type?_eq h

theorem Operand.logicalNot (h : Operand known v) :
    ∃ w, v.logicalNot = .ok w ∧ Conditional w ∧ ∀ world, w.truth world = !v.truth world := by
  cases known with
  | some b =>
    obtain rfl := h
    refine ⟨_, rfl, .equals _, fun world => ?_⟩
    cases b <;> rfl
  | none => exact Conditional.logicalNot h

/-- The value of a conjunction as it is built: where a truth value that is false is joined with
a condition, the condition is negated. -/
def joined (known known' : Option Bool) (a b : Bool) : Bool :=
  match known, known' with
  | none, some false => !a
  | some false, none => !b
  | _, _ => a && b

theorem Operand.logicalAnd (h : Operand known v) (h' : Operand known' w) :
    Conditional (v.logicalAnd w) ∧ ∀ world, (v.logicalAnd w).truth world =
      joined known known' (v.truth world) (w.truth world) := by
  rcases known with _ | b <;> rcases known' with _ | b'
  · rw [Conditional.logicalAnd h h']
    exact ⟨.other (by decide) rfl, fun world => by simp [truth, joined]⟩
  · obtain rfl := h'
    rw [(Conditional.bool_logicalAnd h b').2]
    cases b' with
    | false => exact ⟨.not h, fun world => by simp [truth, joined]⟩
    | true => exact ⟨h, fun world => by simp [truth, joined]⟩
  · obtain rfl := h
    rw [(Conditional.bool_logicalAnd h' b).1]
    cases b with
    | false => exact ⟨.not h', fun world => by simp [truth, joined]⟩
    | true => exact ⟨h', fun world => by simp [truth, joined]⟩
  · obtain ⟨rfl, rfl⟩ := And.intro h h'
    exact ⟨.equals _, fun world => by cases b <;> cases b' <;> rfl⟩

theorem Operand.logicalOr (h : Operand known v) (h' : Operand known' w) :
    Conditional (v.logicalOr w) ∧
      ∀ world, (v.logicalOr w).truth world = (v.truth world || w.truth world) := by
  rcases known with _ | b <;> rcases known' with _ | b'
  · rw [Conditional.logicalOr h h']
    exact ⟨.other (by decide) rfl, fun world => by simp [truth]⟩
  · obtain rfl := h'
    rw [(Conditional.bool_logicalOr h b').2]
    cases b' with
    | false => exact ⟨h, fun world => by simp [truth]⟩
    | true => exact ⟨.equals _, fun world => by simp [truth]⟩
  · obtain rfl := h
    rw [(Conditional.bool_logicalOr h' b).1]
    cases b with
    | false => exact ⟨h', fun world => by simp [truth]⟩
    | true => exact ⟨.equals _, fun world => by simp [truth]⟩
  · obtain ⟨rfl, rfl⟩ := And.intro h h'
    exact ⟨.equals _, fun world => by cases b <;> cases b' <;> rfl⟩

end Value

/-- A formula over truth values and the expressions that decide something by themselves. -/
inductive Formula
  | truth (b : Bool)
  | atom (e : Expr)
  | not (pos : Position) (a : Formula)
  | and (pos : Position) (a b : Formula)
  | or (pos : Position) (a b : Formula)

namespace Formula

variable {f g x : Formula} {block : Expr → Value} {world : Value → Bool}

def expr : Formula → Expr
  | truth b => .truth b
  | atom e => e
  | not pos a => .logic pos .not [a.expr]
  | and pos a b => .logic pos .and [a.expr, b.expr]
  | or pos a b => .logic pos .or [a.expr, b.expr]

def atoms : Formula → List Expr
  | truth _ => []
  | atom e => [e]
  | not _ a => a.atoms
  | and _ a b | or _ a b => a.atoms ++ b.atoms

/-- A formula and all formulas that it is made of. -/
def parts : Formula → List Formula
  | truth b => [truth b]
  | atom e => [atom e]
  | not pos a => not pos a :: a.parts
  | and pos a b => and pos a b :: (a.parts ++ b.parts)
  | or pos a b => or pos a b :: (a.parts ++ b.parts)

/-- Every operator of a formula has a position. -/
def Placed : Formula → Prop
  | truth _ | atom _ => True
  | not pos a => pos ≠ .missing ∧ a.Placed
  | and pos a b | or pos a b => pos ≠ .missing ∧ a.Placed ∧ b.Placed

/-- The value of a formula in ordinary logic, where an atom has the value of its block. -/
def holds (block : Expr → Value) (world : Value → Bool) : Formula → Bool
  | truth b => b
  | atom e => (block e).truth world
  | not _ a => !a.holds block world
  | and _ a b => a.holds block world && b.holds block world
  | or _ a b => a.holds block world || b.holds block world

/-- The truth value that a formula is known to be before any block is made of it. -/
def known (block : Expr → Value) : Formula → Option Bool
  | truth b => some b
  | atom e =>
    match block e with
    | .bool b => some b
    | _ => none
  | _ => none

/-- The operand of a conjunction that is negated, because the other one is known to be false. -/
def negated? (block : Expr → Value) : Formula → Option Formula
  | and _ a b =>
    match a.known block, b.known block with
    | none, some false => some a
    | some false, none => some b
    | _, _ => none
  | _ => none

/-- The value of the condition that a formula is translated to. -/
def built (block : Expr → Value) (world : Value → Bool) : Formula → Bool
  | truth b => b
  | atom e => (block e).truth world
  | not _ a => !a.built block world
  | or _ a b => a.built block world || b.built block world
  | and _ a b =>
    Value.joined (a.known block) (b.known block) (a.built block world) (b.built block world)

theorem self_mem_parts (f : Formula) : f ∈ f.parts := by
  cases f <;> simp [parts]

/-- What a formula hands down to its operands it hands down to all its parts. -/
theorem forall_parts {P : Formula → Prop} (hnot : ∀ {pos a}, P (not pos a) → P a)
    (hand : ∀ {pos a b}, P (and pos a b) → P a ∧ P b)
    (hor : ∀ {pos a b}, P (or pos a b) → P a ∧ P b) (h : P f) : ∀ g ∈ f.parts, P g := by
  induction f with
  | truth b | atom e => exact List.forall_mem_singleton.mpr h
  | not pos a ih => exact List.forall_mem_cons.mpr ⟨h, ih (hnot h)⟩
  | and pos a b iha ihb =>
    exact List.forall_mem_cons.mpr
      ⟨h, List.forall_mem_append.mpr ⟨iha (hand h).1, ihb (hand h).2⟩⟩
  | or pos a b iha ihb =>
    exact List.forall_mem_cons.mpr ⟨h, List.forall_mem_append.mpr ⟨iha (hor h).1, ihb (hor h).2⟩⟩

theorem mem_parts_trans (hx : x ∈ g.parts) (hg : g ∈ f.parts) : x ∈ f.parts :=
  forall_parts (P := fun g => g.parts ⊆ f.parts) (by grind [parts]) (by grind [parts])
    (by grind [parts]) (List.Subset.refl _) g hg hx

theorem Placed.of_mem (h : f.Placed) (hg : g ∈ f.parts) : g.Placed :=
  forall_parts (fun h => h.2) (fun h => h.2) (fun h => h.2) h g hg

theorem atoms_of_mem (hg : g ∈ f.parts) : ∀ e ∈ g.atoms, e ∈ f.atoms :=
  forall_parts (P := fun g => g.atoms ⊆ f.atoms) id List.append_subset.mp List.append_subset.mp
    (List.Subset.refl _) g hg

theorem holds_of_known (h : f.known block = some b) : f.holds block world = b := by
  cases f with
  | truth b' => exact Option.some.inj h
  | atom e =>
    rw [known] at h
    split at h
    · rename_i hblock
      rw [holds, hblock]
      exact Option.some.inj h
    · cases h
  | not pos a | and pos a a' | or pos a a' => cases h

/-- A conjunction with an operand that is negated. -/
theorem negated?_eq (h : g.negated? block = some x) :
    x ∈ g.parts ∧ (∀ world, g.built block world = !x.built block world) ∧
      ∀ world, g.holds block world = false := by
  cases g with
  | truth b | atom e | not pos a | or pos a b => cases h
  | and pos a b =>
    rw [negated?] at h
    split at h <;> cases h
    all_goals
      rename_i ha hb
      refine ⟨by simp [parts, self_mem_parts], fun world => by simp [built, Value.joined, ha, hb],
        fun world => ?_⟩
      simp [holds, holds_of_known ‹_ = some false›]

theorem built_and (h : (and pos a b).negated? block = none) :
    (and pos a b).built block world = (a.built block world && b.built block world) := by
  rw [negated?] at h
  rw [built]
  unfold Value.joined
  split
  · rename_i ha hb
    simp [ha, hb] at h
  · rename_i ha hb
    simp [ha, hb] at h
  · rfl

/-- The conditions of a formula and its parts have the values of ordinary logic exactly if
every operand that is negated is always true. -/
theorem built_eq_holds_iff (f : Formula) :
    (∀ g ∈ f.parts, ∀ world, g.built block world = g.holds block world) ↔
      ∀ g ∈ f.parts, ∀ x, g.negated? block = some x → ∀ world, x.holds block world = true := by
  constructor
  · intro hsame g hg x hx world
    obtain ⟨hpart, hbuilt, hholds⟩ := negated?_eq hx
    have hmember : x ∈ f.parts := mem_parts_trans hpart hg
    have hnot : (!x.built block world) = false := by
      rw [← hbuilt, hsame g hg, hholds]
    rw [← hsame x hmember]
    simpa using hnot
  · intro htrue
    suffices h : ∀ g : Formula, (∀ x ∈ g.parts, x ∈ f.parts) →
        ∀ world, g.built block world = g.holds block world from
      fun g hg => h g fun x hx => mem_parts_trans hx hg
    intro g hparts world
    induction g with
    | truth b | atom e => rfl
    | not pos a ih =>
      rw [built, holds, ih fun x hx => hparts x (List.mem_cons_of_mem _ hx)]
    | or pos a b iha ihb =>
      rw [built, holds, iha fun x hx => hparts x (by simp [parts, hx]),
        ihb fun x hx => hparts x (by simp [parts, hx])]
    | and pos a b iha ihb =>
      have ha := iha fun x hx => hparts x (by simp [parts, hx])
      have hb := ihb fun x hx => hparts x (by simp [parts, hx])
      cases hnegated : (and pos a b).negated? block with
      | none => rw [built_and hnegated, holds, ha, hb]
      | some x =>
        obtain ⟨hpart, hbuilt, hholds⟩ := negated?_eq hnegated
        have hx := htrue _ (hparts _ (self_mem_parts _)) x hnegated world
        have hsame : x.built block world = x.holds block world := by
          rw [negated?] at hnegated
          split at hnegated <;> cases hnegated
          · exact ha
          · exact hb
        rw [hbuilt, hholds, hsame, hx]
        rfl

end Formula

namespace Build

variable {s t t' : BuildState}

variable {v : Value} {e : Expr}

/-- Telling clones apart succeeds exactly in a sprite, and the variable is known beforehand. -/
theorem exists_cloneFlag_iff :
    (∃ t, cloneFlag s = .ok v t) ↔
      s.frame.place.isSprite = true ∧ v = .data (s.frame.cloneFlag.getD cloneData) := by
  cases hsprite : s.frame.place.isSprite with
  | false =>
    refine iff_of_false ?_ (by simp)
    rintro ⟨t, h⟩
    obtain ⟨sprite, t₁, hkind, h⟩ := bind_ok.mp h
    obtain ⟨rfl, rfl⟩ := inSprite_ok.mp hkind
    rw [hsprite] at h
    obtain ⟨_, _, hreject, -⟩ := bind_ok.mp h
    cases hreject
  | true =>
    have hrun : ∃ t, cloneFlag s = .ok (.data (s.frame.cloneFlag.getD cloneData)) t := by
      cases hflag : s.frame.cloneFlag with
      | some d =>
        refine ⟨s, bind_ok.mpr ⟨true, s, inSprite_ok.mpr ⟨hsprite, rfl⟩, ?_⟩⟩
        rw [if_neg (by decide), get_bind_ok, hflag]
        rfl
      | none =>
        obtain ⟨t, hadd⟩ : ∃ t, addCloneFlag s = .ok cloneData t := ⟨_, rfl⟩
        refine ⟨t, bind_ok.mpr ⟨true, s, inSprite_ok.mpr ⟨hsprite, rfl⟩, ?_⟩⟩
        rw [if_neg (by decide), get_bind_ok, hflag]
        exact bind_ok.mpr ⟨cloneData, t, hadd, rfl⟩
    obtain ⟨t, hrun⟩ := hrun
    constructor
    · rintro ⟨t', h⟩
      exact ⟨rfl, (EStateM.Result.ok.inj (h.symm.trans hrun)).1⟩
    · rintro ⟨-, rfl⟩
      exact ⟨t, hrun⟩

/-- What the translation of expressions depends on. -/
def surroundings (s : BuildState) :=
  (bindings s, s.draft.sprites, s.frame.functions, s.frame.cloneFlag.getD cloneData,
    s.frame.unfinished.isEmpty)

/-- A later state in which expressions are translated in the same way. -/
def Unmoved (s t : BuildState) : Prop := surroundings t = surroundings s

theorem Keeps.unmoved (h : Keeps s t) : Unmoved s t := by
  obtain ⟨blocks, hscript⟩ := h.script
  simp only [Unmoved, surroundings, h.bindings, h.sprites, h.functions, h.clone, hscript]
  cases s.frame.unfinished <;> rfl

namespace Unmoved

theorem refl (s : BuildState) : Unmoved s s := rfl

theorem symm (h : Unmoved s t) : Unmoved t s := Eq.symm h

theorem trans (h : Unmoved s t) (k : Unmoved t t') : Unmoved s t' := Eq.trans k h

theorem writing (h : Unmoved s t) : t.frame.unfinished.isEmpty = s.frame.unfinished.isEmpty :=
  congrArg (fun v => v.2.2.2.2) h

/-- A step that leaves either state as it was is the same step in both. -/
theorem respects (hx : Within Keeps x)
    (hsame : ∀ s t a s', Unmoved s t → x s = .ok a s' → ∃ t', x t = .ok a t') :
    Respects Unmoved x := by
  intro s t a s' h hrun
  obtain ⟨t', hrun'⟩ := hsame s t a s' h hrun
  have hbefore : Unmoved s' t := (hx s a s' hrun).unmoved.symm.trans h
  exact ⟨t', hrun', hbefore.trans (hx t a t' hrun').unmoved⟩

theorem reading : Reading Unmoved where
  moveTo p := by
    refine respects (keeps_moveTo p) fun s t a s' h hrun => ?_
    cases p with
    | missing => cases hrun
    | nowhere | start n => exact ⟨_, rfl⟩
  find? key := by
    refine respects (.of_readOnly (readOnly_find? key)) fun s t a s' h hrun => ?_
    simp only [Unmoved, surroundings, bindings, Prod.mk.injEq] at h
    obtain ⟨⟨hlocals, hglobals, hplace, -, hscopes, hcurrent⟩, -⟩ := h
    exact ⟨t, (find?_congr (fun name => by rw [hglobals]) hlocals.symm (by rw [hplace]) hcurrent.symm
      hscopes.symm hrun).1⟩
  emitAll blocks := by
    refine respects (keeps_emitAll blocks) fun s t a s' h hrun => ?_
    obtain ⟨hopen, -⟩ := emitAll_ok.mp hrun
    refine ⟨_, emitAll_ok.mpr ⟨fun hclosed => hopen ?_, rfl⟩⟩
    simpa [hclosed] using h.writing.symm
  cloneFlag := by
    refine respects keeps_cloneFlag fun s t a s' h hrun => ?_
    have hvalue := exists_cloneFlag_iff.mp ⟨s', hrun⟩
    simp only [Unmoved, surroundings, bindings, Prod.mk.injEq] at h
    rw [← h.1.2.2.1, ← h.2.2.2.1] at hvalue
    exact exists_cloneFlag_iff.mpr hvalue
  alike h := by
    simp only [Unmoved, surroundings, bindings, Prod.mk.injEq] at h
    exact ⟨h.2.2.1.symm, by rw [h.1.2.2.1], fun name => by rw [h.2.1]⟩

end Unmoved

theorem comparand_eq (h : ∀ b, e ≠ .truth b) : comparand d e = expression d e := by
  cases e with
  | truth b => exact absurd rfl (h b)
  | _ => rfl

theorem comparands_one (h : comparand d e s = .ok v t) : comparands d [e] s = .ok [v] t := by
  rw [comparands_cons]
  exact bind_ok.mpr ⟨v, t, h, rfl⟩

theorem comparands_two (h : comparand d e s = .ok v t) (h' : comparand d e' t = .ok v' t') :
    comparands d [e, e'] s = .ok [v, v'] t' := by
  rw [comparands_cons]
  exact bind_ok.mpr ⟨v, t, h, bind_ok.mpr ⟨[v'], t', comparands_one h', rfl⟩⟩

/-- One or two operands that are truth values pass the check of a logical operator. -/
theorem requireTruths_ok (h : v.type? = .ok (some (.typed .ofBoolean)))
    (h' : w.type? = .ok (some (.typed .ofBoolean))) :
    requireTruths [v] s = .ok () s ∧ requireTruths [v, w] s = .ok () s := by
  constructor
  · refine ofOutcome_ok.mpr ⟨?_, rfl⟩
    simp only [Outcome.require, Typing.check, Typing.typesOf, h]
    rfl
  · refine ofOutcome_ok.mpr ⟨?_, rfl⟩
    simp only [Outcome.require, Typing.check, Typing.typesOf, h, h']
    rfl

/-- An expression that decides something by itself, with its block: a variable for a truth value
or a comparison. -/
structure Atom (s : BuildState) (e : Expr) (v : Value) : Prop where
  shape : (∃ pos op operands, e = .compare pos op operands) ∨
    ∃ pos name d, e = .name pos name ∧ find? (.ofName name) s = .ok (some d) s ∧
      d.type = .typed .ofBoolean
  translated : ∃ s', expression .script e s = .ok v s'

theorem Atom.conditional (h : Atom s e v) : (∃ b, v = .bool b) ∨ v.Conditional := by
  obtain ⟨s', hrun⟩ := h.translated
  rcases h.shape with ⟨pos, op, operands, rfl⟩ | ⟨pos, name, d, rfl, hfind, htype⟩
  · obtain ⟨_, _, -, vs, t, -, hrun⟩ := bind_bind_ok.mp hrun
    unfold compared at hrun
    split at hrun
    · obtain ⟨_, _, -, hrun⟩ := bind_ok.mp hrun
      exact Value.compare_conditional (ofExcept_ok.mp hrun).1
    · cases hrun
  · refine .inr ?_
    obtain ⟨_, t, hmove, d', t', hnamed, hrun⟩ := bind_bind_ok.mp hrun
    obtain ⟨found, t'', hfind', hnamed⟩ := bind_ok.mp hnamed
    have hmoved := (keeps_moveTo pos _ _ _ hmove).find? hfind
    obtain ⟨rfl, rfl⟩ := EStateM.Result.ok.inj (hmoved.symm.trans hfind')
    obtain ⟨rfl, rfl⟩ := pure_ok.mp hnamed
    obtain ⟨rfl, -⟩ := pure_ok.mp hrun
    rw [htype]
    exact .equals _

theorem Atom.operand (h : Atom s e v) : v.Operand ((Formula.atom e).known fun _ => v) := by
  rw [Formula.known]
  split
  · rfl
  · rename_i hnot
    exact h.conditional.resolve_left fun ⟨b, hb⟩ => hnot b hb

theorem Atom.ne_truth (h : Atom s e v) (b : Bool) : e ≠ .truth b := by
  rcases h.shape with ⟨pos, op, operands, rfl⟩ | ⟨pos, name, d, rfl, -, -⟩ <;> exact nofun

/-- An operator whose operands have been translated. -/
theorem logic_ok (hop : op ≠ .isIn) (hmove : moveTo pos t = .ok () t₁)
    (hvs : comparands .script operands t₁ = .ok vs t') (hcheck : requireTruths vs t' = .ok () t')
    (happly : op.apply vs = .ok v) : comparand .script (.logic pos op operands) t = .ok v t' := by
  refine bind_ok.mpr ⟨(), t₁, hmove, bind_ok.mpr ⟨vs, t', hvs, ?_⟩⟩
  cases op with
  | isIn => exact absurd rfl hop
  | not | and | or => exact bind_ok.mpr ⟨(), t', hcheck, ofExcept_ok.mpr ⟨happly, rfl⟩⟩

theorem Unmoved.exists_moveTo (hst : Unmoved s t) (hpos : pos ≠ .missing) :
    ∃ t₁, moveTo pos t = .ok () t₁ ∧ Unmoved s t₁ := by
  have hmove := moveTo_ok (s := t) (u := ()).mpr ⟨hpos, rfl⟩
  exact ⟨_, hmove, hst.trans (keeps_moveTo pos _ _ _ hmove).unmoved⟩

/-- Every formula is translated, as an operand, to a truth value or a condition. -/
theorem exists_operand (block : Expr → Value) (f : Formula) (hplaced : f.Placed)
    (hatoms : ∀ e ∈ f.atoms, Atom s e (block e)) (hst : Unmoved s t) :
    ∃ v t', comparand .script f.expr t = .ok v t' ∧ Unmoved s t' ∧ v.Operand (f.known block) ∧
      ∀ world, v.truth world = f.built block world := by
  induction f generalizing t with
  | truth b => exact ⟨.bool b, t, rfl, hst, rfl, fun _ => rfl⟩
  | atom e =>
    have hatom := hatoms e (List.mem_singleton_self e)
    obtain ⟨s', hrun⟩ := hatom.translated
    obtain ⟨t', hrun', hafter⟩ := Unmoved.reading.expression e s t _ s' hst hrun
    have hkept : Unmoved s s' := (keeps_expression .script e s _ s' hrun).unmoved
    refine ⟨block e, t', ?_, hkept.trans hafter, hatom.operand, fun _ => rfl⟩
    exact (comparand_eq hatom.ne_truth).symm ▸ hrun'
  | not pos a ih =>
    obtain ⟨t₁, hmove, hst₁⟩ := hst.exists_moveTo hplaced.1
    obtain ⟨v, t', hv, hst', hoperand, htruth⟩ := ih hplaced.2 hatoms hst₁
    obtain ⟨w, hw, hcondition, hnot⟩ := hoperand.logicalNot
    have hcheck := (requireTruths_ok (s := t') hoperand.type?_eq hoperand.type?_eq).1
    refine ⟨w, t', logic_ok nofun hmove (comparands_one hv) hcheck hw, hst', hcondition, ?_⟩
    intro world
    rw [hnot, htruth, Formula.built]
  | and pos a b iha ihb | or pos a b iha ihb =>
    obtain ⟨t₁, hmove, hst₁⟩ := hst.exists_moveTo hplaced.1
    obtain ⟨v, t₂, hv, hst₂, hleft, htruth⟩ :=
      iha hplaced.2.1 (fun e he => hatoms e (List.mem_append_left _ he)) hst₁
    obtain ⟨w, t', hw, hst', hright, htruth'⟩ :=
      ihb hplaced.2.2 (fun e he => hatoms e (List.mem_append_right _ he)) hst₂
    have hcheck := (requireTruths_ok (s := t') hleft.type?_eq hright.type?_eq).2
    refine ⟨_, t', logic_ok nofun hmove (comparands_two hv hw) hcheck rfl, hst', ?_, fun world => ?_⟩
    · first | exact (hleft.logicalAnd hright).1 | exact (hleft.logicalOr hright).1
    · rw [Formula.built, ← htruth, ← htruth']
      first | exact (hleft.logicalAnd hright).2 world | exact (hleft.logicalOr hright).2 world

/-- A formula by itself is translated to a condition or, if it is a comparison of literals, to
its truth value. -/
theorem exists_condition (block : Expr → Value) (f : Formula) (hplaced : f.Placed)
    (hatoms : ∀ e ∈ f.atoms, Atom s e (block e)) :
    ∃ v s', expression .script f.expr s = .ok v s' ∧
      ∀ world, v.truth world = f.built block world := by
  by_cases htruth : ∃ b, f.expr = .truth b
  · obtain ⟨b, hb⟩ := htruth
    cases f with
    | truth b' =>
      refine ⟨_, s, rfl, fun world => ?_⟩
      cases b' <;> rfl
    | atom e => exact absurd hb ((hatoms e (List.mem_singleton_self e)).ne_truth b)
    | not pos a | and pos a a' | or pos a a' => cases hb
  · obtain ⟨v, s', hrun, -, -, hvalue⟩ := exists_operand block f hplaced hatoms (.refl s)
    rw [comparand_eq fun b hb => htruth ⟨b, hb⟩] at hrun
    exact ⟨v, s', hrun, hvalue⟩

/-- A formula is translated to a condition that has its value in ordinary logic, whatever the
values of the blocks are. -/
def Faithful (s : BuildState) (block : Expr → Value) (f : Formula) : Prop :=
  ∃ v s', expression .script f.expr s = .ok v s' ∧
    ∀ world, v.truth world = f.holds block world

theorem faithful_iff (hplaced : f.Placed) (hatoms : ∀ e ∈ f.atoms, Atom s e (block e)) :
    Faithful s block f ↔ ∀ world, f.built block world = f.holds block world := by
  obtain ⟨v, s', hrun, hvalue⟩ := exists_condition block f hplaced hatoms
  constructor
  · rintro ⟨w, t, hrun', hfaithful⟩ world
    obtain ⟨rfl, rfl⟩ := EStateM.Result.ok.inj (hrun.symm.trans hrun')
    rw [← hvalue, hfaithful]
  · intro hsame
    exact ⟨v, s', hrun, fun world => by rw [hvalue, hsame]⟩

/-- Every formula is translated, at any depth, and what its condition says is known. A formula
and all its parts mean what they say exactly if an operand that is joined by `and` with a
false truth value, and is none itself, is always true. -/
theorem logic_faithful_iff (s : BuildState) (block : Expr → Value) (f : Formula)
    (hplaced : f.Placed) (hatoms : ∀ e ∈ f.atoms, Atom s e (block e)) :
    (∀ g ∈ f.parts, ∃ v s', expression .script g.expr s = .ok v s' ∧
      ∀ world, v.truth world = g.built block world) ∧
    ((∀ g ∈ f.parts, Faithful s block g) ↔
      ∀ g ∈ f.parts, ∀ x, g.negated? block = some x → ∀ world, x.holds block world = true) := by
  have hpart : ∀ g ∈ f.parts, ∀ e ∈ g.atoms, Atom s e (block e) :=
    fun g hg e he => hatoms e (Formula.atoms_of_mem hg e he)
  refine ⟨fun g hg => exists_condition block g (hplaced.of_mem hg) (hpart g hg), ?_⟩
  rw [← Formula.built_eq_holds_iff]
  exact forall₂_congr fun g hg => faithful_iff (hplaced.of_mem hg) (hpart g hg)

/-- With a variable for a truth value, `flag and false` is translated to the negation of
`flag`. -/
theorem logic_faithful_iff_false :
    let flag : Data := ⟨"b_flag", false, .typed .ofBoolean, false⟩
    let fresh := BuildState.fresh (Session.fresh none false) "project"
    let s := { fresh with draft.stageLocals := [("b_flag", flag)] }
    let condition : Value := .op .equals [.data flag, .int 1]
    let name : Formula := .atom (.name (.start 0) "flag")
    let f : Formula := .and (.start 0) name (.truth false)
    f.Placed ∧ (∀ e ∈ f.atoms, Atom s e condition) ∧ f.negated? (fun _ => condition) = some name ∧
      ∃ s', expression .script f.expr s = .ok (.op .not [condition]) s' ∧
        ¬ ∀ g ∈ f.parts, Faithful s (fun _ => condition) g := by
  intro flag fresh s condition name f
  have hplaced : f.Placed := ⟨nofun, trivial, trivial⟩
  have hatoms : ∀ e ∈ f.atoms, Atom s e condition := by
    intro e he
    obtain rfl : e = .name (.start 0) "flag" := by simpa [f, name, Formula.atoms] using he
    exact ⟨.inr ⟨_, _, flag, rfl, rfl, rfl⟩, _, rfl⟩
  refine ⟨hplaced, hatoms, rfl, _, rfl, fun hfaithful => ?_⟩
  have htrue := (logic_faithful_iff s (fun _ => condition) f hplaced hatoms).2.mp hfaithful f
    (Formula.self_mem_parts f) name rfl fun _ => false
  exact absurd htrue (by decide)

end Build

end BlockScript
