import BlockScript.Proofs.Consistency
import BlockScript.Proofs.ParsedScripts
import BlockScript.Proofs.TypeChecks

/-!
The parts of the value of an expression: its variables and its blocks. Operators and conversions
build blocks around their operands or give one of them back; none of them makes a variable of its
own. So the variables in a value are those that names stand for, the results of functions, and the
one that tells clones apart, each perhaps with another type. The blocks are those of operators and
those of names of the language that may be used. The same goes for the arguments of the calls that
an expression adds to the script.
-/
namespace BlockScript

/-- The blocks that operators, conversions and the values of variables' members are made of. -/
def Opcode.isOperator : Opcode → Bool
  | .add | .subtract | .multiply | .divide | .modulo | .operation | .lessThan | .greaterThan
  | .equals | .not | .and | .or | .contains | .listContains | .join | .letterOf | .lengthOf
  | .itemOfList | .listLength | .listIndexOf | .pickRandom => true
  | _ => false

namespace Value

mutual

/-- Every variable, every broadcast, every call and every block in a value has a property. -/
def Every (P : Value → Prop) : Value → Prop
  | list items => EveryAll P items
  | broadcast name => P (broadcast name)
  | data d => P (data d)
  | call label arguments => P (call label arguments) ∧ EveryAll P arguments
  | block op arguments retyped alternative =>
    P (block op arguments retyped alternative) ∧ EveryAll P arguments ∧ EveryElse P alternative
  | _ => True

def EveryAll (P : Value → Prop) : List Value → Prop
  | [] => True
  | v :: rest => Every P v ∧ EveryAll P rest

def EveryElse (P : Value → Prop) : Option (List Value) → Prop
  | none => True
  | some script => EveryAll P script

end

attribute [simp] Every EveryAll EveryElse

variable {P P' : Value → Prop} {Q : Data → Prop} {a b v : Value}

theorem everyAll_iff : EveryAll P values ↔ ∀ v ∈ values, v.Every P := by
  induction values with
  | nil => simp
  | cons v rest ih => simp [ih]

theorem everyAll_append : EveryAll P (first ++ second) ↔ EveryAll P first ∧ EveryAll P second := by
  simp only [everyAll_iff, List.forall_mem_append]

mutual

theorem Every.mono {v : Value} (hP : ∀ part, P part → P' part) (h : v.Every P) : v.Every P' := by
  cases v with
  | list items => exact EveryAll.mono hP h
  | broadcast name | data d => exact hP _ h
  | call label arguments => exact ⟨hP _ h.1, EveryAll.mono hP h.2⟩
  | block op arguments retyped alternative =>
    refine ⟨hP _ h.1, EveryAll.mono hP h.2.1, ?_⟩
    cases alternative with
    | none => trivial
    | some script => exact EveryAll.mono hP h.2.2
  | _ => trivial

theorem EveryAll.mono {values : List Value} (hP : ∀ part, P part → P' part)
    (h : EveryAll P values) : EveryAll P' values := by
  cases values with
  | nil => trivial
  | cons v rest => exact ⟨Every.mono hP h.1, EveryAll.mono hP h.2⟩

end

mutual

/-- Every variable in a value has a property. -/
def Reads (Q : Data → Prop) : Value → Prop
  | list items => ReadsAll Q items
  | data d => Q d
  | call _ arguments => ReadsAll Q arguments
  | block _ arguments _ alternative => ReadsAll Q arguments ∧ ReadsElse Q alternative
  | _ => True

def ReadsAll (Q : Data → Prop) : List Value → Prop
  | [] => True
  | v :: rest => Reads Q v ∧ ReadsAll Q rest

def ReadsElse (Q : Data → Prop) : Option (List Value) → Prop
  | none => True
  | some script => ReadsAll Q script

end

attribute [simp] Reads ReadsAll ReadsElse

/-- A property of variables, as one of all parts of values. -/
def OfData (Q : Data → Prop) : Value → Prop
  | data d => Q d
  | _ => True

mutual

theorem reads_iff (v : Value) : v.Reads Q ↔ v.Every (OfData Q) := by
  cases v with
  | list items => exact readsAll_iff items
  | call label arguments => exact (readsAll_iff arguments).trans (iff_of_eq (true_and _)).symm
  | block op arguments retyped alternative =>
    refine (and_congr (readsAll_iff arguments) ?_).trans (iff_of_eq (true_and _)).symm
    cases alternative with
    | none => exact Iff.rfl
    | some script => exact readsAll_iff script
  | _ => exact Iff.rfl

theorem readsAll_iff (values : List Value) : ReadsAll Q values ↔ EveryAll (OfData Q) values := by
  cases values with
  | nil => exact Iff.rfl
  | cons v rest => exact and_congr (reads_iff v) (readsAll_iff rest)

end

/-- A value that holds no variables. -/
def Plain (v : Value) : Prop := v.Reads fun _ => False

theorem Plain.reads (h : v.Plain) : v.Reads Q := by
  refine (reads_iff v).mpr (((reads_iff v).mp h).mono fun part hpart => ?_)
  cases part with
  | data d => exact hpart.elim
  | _ => trivial

/-- A value that is taken for a list: a variable by its kind or its type, all else by its type. -/
def AsList : Value → Prop
  | data d => d.isList = true ∨ d.type = .typed .ofList
  | v => v.type? = .ok (some (.typed .ofList))

/-- A value that is taken for a text, though it may be a literal list. -/
def AsText : Value → Prop
  | data d => d.isList = false ∨ d.type ≠ .typed .ofList
  | _ => True

theorem asList_of_type? (h : v.type? = .ok (some (.typed .ofList))) : v.AsList := by
  cases v with
  | data d => exact .inr (by simpa [type?] using h)
  | _ => exact h

theorem asText_of_type? (h : v.type? ≠ .ok (some (.typed .ofList))) : v.AsText := by
  cases v with
  | data d => exact .inr (by simpa [type?] using h)
  | _ => trivial

theorem fits_condition {op : Opcode} (h : op.isCondition = true) :
    (Value.op op arguments).Fits .ofBoolean := by
  rw [Opcode.isCondition] at h
  exact ⟨.ofBoolean, by simp only [type?, Option.none_or, Opcode.resultType, h, if_true], rfl⟩

/-- What is sure of the arguments of an operator when its block is built. -/
def Suits (arguments : List Value) : Opcode → Prop
  | .itemOfList | .listIndexOf | .listLength => ∀ v ∈ arguments.getLast?, v.AsList
  | .letterOf | .lengthOf => ∀ v ∈ arguments.getLast?, v.AsText
  | .contains => ∀ v ∈ arguments.head?, v.type? = .ok (some (.typed .ofString))
  | .listContains => ∀ v ∈ arguments.head?, v.type? ≠ .ok (some (.typed .ofString)) ∧
      (v.Fits .ofList ∨ v.Fits .ofString)
  | .and | .or | .not => ∀ v ∈ arguments, v.Fits .ofBoolean ∧ ∀ x, v ≠ bool x
  | _ => True

def isCondition : Value → Bool
  | block o _ _ _ => o.isCondition
  | _ => false

def logical : List Opcode := [.and, .or, .not]

/-- The operators whose blocks ask anything of their arguments. -/
def choosy : List Opcode :=
  [.itemOfList, .listIndexOf, .listLength, .letterOf, .lengthOf, .contains, .listContains, .and, .or,
    .not]

theorem suits_of_plain {op : Opcode} (h : op ∉ choosy) : Suits arguments op := by
  cases op <;> trivial

/-- A property that operators keep. All their blocks have it, if logical operators combine
conditions and what else is allowed, and what has it may be read as a number or a text, unless it is
a list. -/
structure Lenient (L P : Value → Prop) : Prop where
  operator : ∀ op arguments, op.isOperator = true → Suits arguments op →
    (op ∈ logical → ∀ v ∈ arguments, v.isCondition = true ∨ L v) → P (block op arguments none none)
  item : ∀ {place v}, v.AsList → P (block .itemOfList [place, v] (some .general) none)
  retypedBlock : ∀ op arguments retyped alternative t, P (block op arguments retyped alternative) →
    t = .ofNumber ∨ t = .ofString → P (block op arguments (some t) alternative)
  retypedData : ∀ d t, P (data d) → d.type ≠ .typed .ofList → t = .ofNumber ∨ t = .ofString →
    P (data { d with type := .typed t })

theorem Lenient.plain (hP : Lenient L P) (op : Opcode) (arguments : List Value)
    (h : op.isOperator = true ∧ op ∉ choosy) : P (block op arguments none none) := by
  have hlogical : logical ⊆ choosy := by decide
  exact hP.operator op arguments h.1 (suits_of_plain h.2) fun hop => absurd (hlogical hop) h.2

theorem Outcome.ok_of_ofFault {α : Type} {x : Except Fault α} {a : α}
    (h : Outcome.ofFault x = .ok a) : x = .ok a := by
  cases x with
  | error f => cases h
  | ok b =>
    cases h
    rfl

/-- Every value that an operation can give has only parts with a property. -/
def Yields (P : Value → Prop) {ε : Type} (x : Except ε Value) : Prop := ∀ v, x = .ok v → v.Every P

namespace Yields

theorem ok (h : v.Every P) : Yields P (.ok v : Except ε Value) := fun _ hw => Except.ok.inj hw ▸ h

theorem error : Yields P (.error e : Except ε Value) := fun _ hw => by cases hw

theorem bind {x : Except ε α} {f : α → Except ε Value} (h : ∀ a, x = .ok a → Yields P (f a)) :
    Yields P (x >>= f) := by
  cases x with
  | error e => exact error
  | ok a => exact h a rfl

theorem ofFault (h : Yields P x) : Yields P (Outcome.ofFault x) := by
  cases x with
  | error e => exact error
  | ok w => exact ok (h w rfl)

end Yields

section

theorem every_ofNumber (n : Number) : (ofNumber n).Every P := by
  cases n <;> simp [ofNumber]

theorem yields_numeric : Yields P (numeric f a b) := by
  unfold numeric
  split
  · exact .bind fun n _ => .ok (every_ofNumber n)
  · exact .error

theorem mem_repeated (h : repeated items times = .ok copies) (hx : x ∈ copies) : x ∈ items := by
  unfold repeated at h
  split at h
  · cases h
  · split at h
    · cases h
      cases hx
    · cases h
      obtain ⟨row, hrow, hx⟩ := List.mem_flatten.mp hx
      rw [List.eq_of_mem_replicate hrow] at hx
      exact hx

variable (hP : Lenient L P)

include hP

/-- A block of an operator with arguments that suit it. -/
theorem Lenient.every {op : Opcode} (hop : op.isOperator = true ∧ op ∉ logical)
    (hsuits : Suits arguments op) (h : EveryAll P arguments) : (Value.op op arguments).Every P :=
  ⟨hP.operator _ _ hop.1 hsuits fun hlogical => absurd hlogical hop.2, h, trivial⟩

theorem every_truthBlock (x : Bool) : (truthBlock x).Every P := by
  simp +decide [truthBlock, hP.plain]

variable (ha : a.Every P)

include ha

theorem yields_neg : Yields P a.neg := by
  unfold neg
  split
  · exact .ok (by simp +decide [hP.plain, ha])
  · split
    · exact .ok (every_ofNumber _)
    · exact .error

theorem every_product (times : Nat) : (a.product times).Every P := by
  induction times with
  | zero => simp +decide [product, hP.plain, ha]
  | succ times ih => simp +decide [product, hP.plain, ha, ih]

theorem every_not (hfits : a.Fits .ofBoolean) (hbool : ∀ x, a = bool x → False)
    (hallowed : a.isCondition = true ∨ L a) : (Value.op .not [a]).Every P :=
  ⟨hP.operator _ _ rfl (List.forall_mem_singleton.mpr ⟨hfits, hbool⟩) fun _ =>
    List.forall_mem_singleton.mpr hallowed, ⟨ha, trivial⟩, trivial⟩

theorem yields_logicalNot (hfits : a.Fits .ofBoolean) (hallowed : L a) : Yields P a.logicalNot := by
  unfold logicalNot
  split
  · exact .ok (by simp +decide [hP.plain])
  · split
    · rename_i arguments _ _ _ inner hinner
      exact .ok (everyAll_iff.mp ha.2.1 inner (List.mem_of_find?_eq_some hinner))
    · exact .error
  · rename_i hbool _
    exact .ok (every_not hP ha hfits hbool (.inr hallowed))

variable (hb : b.Every P)

include hb

theorem yields_add : Yields P (a.add b) := by
  unfold add
  split
  · exact .ok (by simp +decide [hP.plain, ha, hb])
  · split
    · exact .ok trivial
    · rename_i xs ys
      refine .ok (everyAll_iff.mpr fun v hv => ?_)
      rcases List.mem_append.mp hv with hv | hv
      · exact everyAll_iff.mp ha v hv
      · exact everyAll_iff.mp hb v hv
    · exact yields_numeric

theorem yields_sub : Yields P (a.sub b) := by
  unfold sub
  split
  · exact .ok (by simp +decide [hP.plain, ha, hb])
  · exact yields_numeric

theorem yields_mul : Yields P (a.mul b) := by
  have hlist : ∀ {items : List Value} {times : Int}, EveryAll P items →
      Yields P (repeatedList items times) := by
    intro items times hitems
    refine .bind fun copies hcopies => .ok (everyAll_iff.mpr fun v hv => ?_)
    exact everyAll_iff.mp hitems v (mem_repeated hcopies hv)
  unfold mul
  split
  · exact .ok (by simp +decide [hP.plain, ha, hb])
  · split
    · exact .bind fun _ _ => .ok trivial
    · exact .bind fun _ _ => .ok trivial
    · exact hlist ha
    · exact hlist hb
    · exact yields_numeric

theorem yields_div : Yields P (a.div b) := by
  unfold div
  split
  · exact .ok (by simp +decide [hP.plain, ha, hb])
  · exact yields_numeric

theorem yields_mod : Yields P (a.mod b) := by
  unfold mod
  split
  · exact .bind fun _ _ => .ok trivial
  · split
    · exact .ok (by simp +decide [hP.plain, ha, hb])
    · exact yields_numeric

theorem yields_pow : Yields P (a.pow b) := by
  have hlog : ∀ {size : Value}, size.Every P → (logPower size b).Every P := by
    intro size hsize
    simp +decide [logPower, operation, hP.plain, hsize, hb]
  have hsigned : ∀ {size : Value}, size.Every P → (signedPower size b).Every P := by
    intro size hsize
    simp +decide [signedPower, powerSign, hP.plain, hlog hsize, hsize, hb]
  have hproduct : ∀ v, product? a b = .ok (some v) → v.Every P := by
    intro v hv
    obtain ⟨times, rfl⟩ := product?_ok hv
    exact every_product hP ha times
  have hsimple : ∀ n v, simplePower? a n = some v → v.Every P := by
    intro n v hv
    unfold simplePower? at hv
    repeat' split at hv
    all_goals
      cases hv
      try simp +decide [operation, hP.plain, ha]
  have habs : (operation "absolute" a).Every P := by simp +decide [operation, hP.plain, ha]
  unfold pow
  split
  · refine .bind fun power _ => ?_
    split
    · exact .ok (every_ofNumber _)
    · exact .ok trivial
  · dsimp only
    split
    · exact .ok (hsigned (every_ofNumber _))
    · exact .ok (hlog (every_ofNumber _))
  · split
    · rename_i v hv
      exact .ok (hsimple _ v hv)
    · refine .bind fun found hfound => ?_
      split
      · rename_i v
        exact .ok (hproduct v hfound)
      · exact .ok (hsigned habs)
  · exact .ok (hsigned habs)

theorem every_compareBlocks (c : CompareOp) : (compareBlocks c a b).Every P := by
  have hblock : ∀ op, op.isOperator = true ∧ op ∉ choosy → (Value.op op [a, b]).Every P :=
    fun op hop => ⟨hP.plain _ _ hop, ⟨ha, hb, trivial⟩, trivial⟩
  have hnot : ∀ op, op.isOperator = true ∧ op ∉ choosy → op.isCondition = true →
      (Value.op .not [.op op [a, b]]).Every P := fun op hop hcondition =>
    every_not hP (hblock op hop) (fits_condition hcondition) (fun _ h => by cases h)
      (.inl hcondition)
  cases c with
  | lt | gt | eq => exact hblock _ (by decide)
  | le | ge | ne => exact hnot _ (by decide) rfl

theorem yields_compare (c : CompareOp) : Yields P (compare c a b) := by
  unfold compare
  split
  · exact .ok (every_compareBlocks hP ha hb c)
  · split
    · exact .ok (every_compareBlocks hP hb ha c.flip)
    · unfold compareLiterals
      split
      · exact .ok trivial
      · exact .ok trivial
      · exact .bind fun _ _ => .ok trivial

theorem yields_contains (hfits : b.Fits .ofList ∨ b.Fits .ofString) : Yields P (contains a b) := by
  unfold contains
  split
  · exact .ok (every_truthBlock hP _)
  · refine .bind fun type htype => ?_
    split
    · rename_i heq
      exact .ok (hP.every (by decide) (by simpa [Suits, htype] using heq) ⟨hb, ha, trivial⟩)
    · rename_i hne
      exact .ok (hP.every (by decide) (by simpa [Suits, htype, hfits] using hne) ⟨hb, ha, trivial⟩)

variable (hfits : a.Fits .ofBoolean) (hfits' : b.Fits .ofBoolean) (hallowed : L a)
  (hallowed' : L b)

include hfits hfits' hallowed hallowed'

theorem every_combined {op : Opcode} (hop : op = .and ∨ op = .or) (hleft : ∀ x, a = bool x → False)
    (hright : ∀ x, b = bool x → False) : (Value.op op [a, b]).Every P := by
  have hsuits : Suits [a, b] .and :=
    List.forall_mem_cons.mpr ⟨⟨hfits, hleft⟩, List.forall_mem_singleton.mpr ⟨hfits', hright⟩⟩
  have hboth : ∀ v ∈ [a, b], v.isCondition = true ∨ L v :=
    List.forall_mem_cons.mpr ⟨.inr hallowed, List.forall_mem_singleton.mpr (.inr hallowed')⟩
  rcases hop with rfl | rfl <;>
    exact ⟨hP.operator _ _ rfl hsuits fun _ => hboth, ⟨ha, hb, trivial⟩, trivial⟩

theorem every_logicalAnd : (logicalAnd a b).Every P := by
  unfold logicalAnd
  split
  · exact every_truthBlock hP _
  · rename_i hbool
    split
    · exact hb
    · exact every_not hP hb hfits' hbool (.inr hallowed')
  · rename_i hbool
    split
    · exact ha
    · exact every_not hP ha hfits hbool (.inr hallowed)
  · rename_i hleft hright _
    exact every_combined hP ha hb hfits hfits' hallowed hallowed' (.inl rfl) hleft hright

theorem every_logicalOr : (logicalOr a b).Every P := by
  unfold logicalOr
  split
  · exact every_truthBlock hP _
  · split <;> simp +decide [hP.plain, hb]
  · split <;> simp +decide [hP.plain, ha]
  · rename_i hleft hright _
    exact every_combined hP ha hb hfits hfits' hallowed hallowed' (.inr rfl) hleft hright

end

end Value

open Value

variable {P : Value → Prop} {operands : List Value}

section

variable (hP : Lenient L P) (h : EveryAll P operands)

include hP h

theorem ArithOp.yields (op : ArithOp) : Yields P (op.apply operands) := by
  unfold ArithOp.apply
  split
  · exact yields_add hP h.1 h.2.1
  · exact yields_sub hP h.1 h.2.1
  · exact yields_mul hP h.1 h.2.1
  · exact yields_div hP h.1 h.2.1
  · exact yields_mod hP h.1 h.2.1
  · exact yields_pow hP h.1 h.2.1
  · exact yields_neg hP h.1
  · exact .error

theorem CompareOp.yields (op : CompareOp) : Yields P (op.apply operands) := by
  unfold CompareOp.apply
  split
  · exact yields_compare hP h.1 h.2.1 op
  · exact .error

/-- Operands of the types that a logical operator asks for. -/
def LogicOp.Takes (operands : List Value) : LogicOp → Prop
  | isIn => ∀ v ∈ operands[1]?, v.Fits .ofList ∨ v.Fits .ofString
  | _ => ∀ p ∈ operands.zip [.ofBoolean, .ofBoolean], p.1.Fits p.2

theorem LogicOp.yields (op : LogicOp) (htakes : op.Takes operands)
    (hallowed : op ≠ .isIn → ∀ v ∈ operands, L v) : Yields P (op.apply operands) := by
  unfold LogicOp.apply
  split <;> simp [Takes] at htakes hallowed
  · exact yields_logicalNot hP h.1 htakes hallowed
  · exact .ok (every_logicalAnd hP h.1 h.2.1 htakes.1 htakes.2 hallowed.1 hallowed.2)
  · exact .ok (every_logicalOr hP h.1 h.2.1 htakes.1 htakes.2 hallowed.1 hallowed.2)
  · exact yields_contains hP h.1 h.2.1 htakes
  · exact .error

end

theorem UpdateOp.yields (op : UpdateOp) (hP : Lenient L P) (hv : v.Every P)
    (hoperand : operand.Every P) : Yields P (op.apply v operand) := by
  cases op with
  | concat => exact .ok (by simpa +decide [hP.plain] using ⟨hv, hoperand⟩)
  | arith op =>
    have h : EveryAll P [v, operand] := ⟨hv, hoperand, trivial⟩
    exact op.yields hP h

/-- A property of variables that does not depend on the type they are read with. -/
def Untyped (Q : Data → Prop) : Prop := ∀ (d : Data) (t : DataType), Q d → Q { d with type := t }

theorem Untyped.lenient (h : Untyped Q) : Lenient (fun _ => True) (OfData Q) where
  operator _ _ _ _ _ := trivial
  item _ := trivial
  retypedBlock _ _ _ _ _ _ _ := trivial
  retypedData d _ hd _ _ := h d _ hd

section

variable {v : Value}

/-- Lists are not taken for single values. -/
theorem not_list_of_require (wanted : List TypeSet)
    (hwanted : ∀ t ∈ wanted, TypeSet.ofList.meets t = false)
    (h : Outcome.require (wanted.map fun t => [t]) [v] template = .ok u) :
    ∃ type, v.type? = .ok (some (.typed type)) ∧ type ≠ .ofList := by
  obtain ⟨t, ht, type, htype, hmeets⟩ := Outcome.require_single h
  refine ⟨type, htype, ?_⟩
  rintro rfl
  rw [hwanted t ht] at hmeets
  cases hmeets

section

variable (hP : Lenient L P) (h : v.Every P)

include hP h

theorem yields_retyped (htype : v.type? = .ok (some (.typed type)))
    (hlist : type ≠ .ofList) (ht : t = .ofNumber ∨ t = .ofString) : Yields P (v.retyped t) := by
  refine .ofFault ?_
  unfold retype
  split
  · rename_i d
    refine .ok (hP.retypedData d t h (fun heq => hlist ?_) ht)
    simpa [type?, heq, eq_comm] using htype
  · exact .ok ⟨hP.retypedBlock _ _ _ _ _ h.1 ht, h.2⟩
  iterate 3 exact .ok h
  · exact .error

theorem yields_toNumber : Yields P v.toNumber := by
  refine .bind fun _ hrequire => ?_
  split
  · obtain ⟨type, htype, hlist⟩ :=
      not_list_of_require [.ofNumber, .ofString, .ofBoolean] (by decide) hrequire
    exact yields_retyped hP h htype hlist (by decide)
  · split
    iterate 3 exact .ok trivial
    · split
      · rename_i n hn
        refine .ok ?_
        unfold numberOfText? at hn
        split at hn <;>
          · obtain ⟨x, -, rfl⟩ := Option.map_eq_some_iff.mp hn
            trivial
      · exact .error
    · exact .bind fun _ _ => .error

theorem yields_toText : Yields P v.toText := by
  refine .bind fun _ hrequire => ?_
  split
  · obtain ⟨type, htype, hlist⟩ :=
      not_list_of_require [.ofNumber, .ofString] (by decide) hrequire
    exact yields_retyped hP h htype hlist (by decide)
  · exact .bind fun _ _ => .ok trivial

theorem yields_toBoolean : Yields P v.toBoolean := by
  have hlength : ∀ {op : Opcode}, op.isOperator = true ∧ op ∉ logical → Suits [v] op →
      Yields P (.ok (.op .greaterThan [.op op [v], .int 0]) : Outcome Value) := fun hop hsuits =>
    .ok ⟨hP.plain _ _ (by decide), ⟨hP.every hop hsuits ⟨h, trivial⟩, trivial, trivial⟩, trivial⟩
  refine .bind fun _ _ => ?_
  split
  iterate 4 exact .ok (every_truthBlock hP _)
  · split
    · refine .bind fun type htype => ?_
      have htype := Outcome.ok_of_ofFault htype
      split
      · split
        · exact .ok (every_not hP (by simp +decide [hP.plain, h]) (fits_condition rfl)
            (fun _ h => by cases h) (.inl rfl))
        · split
          · subst_vars
            exact hlength (by decide)
              (by simpa [Suits] using asText_of_type? (by simp +decide [htype]))
          · split
            · subst_vars
              exact hlength (by decide) (by simpa [Suits] using asList_of_type? htype)
            · split
              · exact .error
              · exact .ok h
      · exact .ok h
    · exact .ok h

theorem yields_randomChoice : Yields P v.randomChoice := by
  have hplace : ∀ {op : Opcode}, op.isOperator = true ∧ op ∉ logical → Suits [v] op →
      (Value.op .pickRandom [.int 1, .op op [v]]).Every P := fun hop hsuits =>
    ⟨hP.plain _ _ (by decide), ⟨trivial, hP.every hop hsuits ⟨h, trivial⟩, trivial⟩, trivial⟩
  have hletter : v.AsText → (randomChoice.letter v).Every P := fun htext =>
    hP.every (by decide) (by simpa [Suits] using htext)
      ⟨hplace (by decide) (by simpa [Suits] using htext), h, trivial⟩
  unfold randomChoice
  split
  · split
    · rename_i hlist
      have hlist : AsList (.data _) := .inl hlist
      exact .ok ⟨hP.item hlist, ⟨hplace (by decide) (by simpa [Suits] using hlist), h, trivial⟩,
        trivial⟩
    · rename_i hlist
      exact .ok (hletter (.inl (by simpa using hlist)))
  · rename_i hdata
    refine .ok (hletter ?_)
    cases v with
    | data d => exact (hdata d rfl).elim
    | _ => trivial

end

theorem yields_apply {op : Opcode} (hop : P (.op op operands)) (h : EveryAll P operands) :
    Yields P (Value.apply op operands) := by
  intro w hw
  rw [apply_ok hw]
  exact ⟨hop, h, trivial⟩

theorem Builtin.every_constant (hP : Lenient L P) (hsimple : v.isSimple = true)
    (hb : ∀ op ∈ (constant v).opcodes, ∀ arguments, P (.op op arguments)) : v.Every P := by
  unfold Value.isSimple at hsimple
  split at hsimple
  · trivial
  · trivial
  · rename_i op arguments retyped
    obtain ⟨htypes, htexts⟩ := Bool.and_eq_true_iff.mp hsimple
    have hblock := hb _ List.mem_cons_self
    refine ⟨?_, everyAll_iff.mpr fun w hw => ?_, trivial⟩
    · cases retyped with
      | none => exact hblock _
      | some t => exact hP.retypedBlock _ _ _ _ t (hblock _) (by simpa using htypes)
    · have htext := List.all_eq_true.mp htexts w hw
      cases w with
      | str => trivial
      | _ => cases htext
  · cases hsimple

/-- A name of the language gives back what it is given, or builds one of its blocks. -/
theorem Builtin.yields {b : Builtin} (hP : Lenient L P) (hsimple : b.isSimple = true)
    (hb : ∀ op ∈ b.opcodes, ∀ arguments, P (.op op arguments)) (h : EveryAll P operands) :
    Yields P (b.apply operands) := by
  have hop : ∀ {op : Opcode} {arguments : List Value}, op ∈ b.opcodes → EveryAll P arguments →
      Yields P (.ok (.op op arguments) : Outcome Value) := fun hop harguments =>
    .ok ⟨hb _ hop _, harguments, trivial⟩
  unfold Builtin.apply
  split
  · exact .ofFault (yields_apply (hb _ (by simp [opcodes]) _) h)
  · exact .ok (every_constant hP hsimple hb)
  · exact .ok (by simpa +decide [Value.operation, hP.plain] using h.1)
  · exact yields_randomChoice hP h.1
  · exact yields_toNumber hP h.1
  · exact yields_toText hP h.1
  · exact yields_toBoolean hP h.1
  · exact hop (by split <;> simp [opcodes]) h
  · exact hop (by split <;> simp [opcodes]) h
  · exact hop (by simp [opcodes]) ⟨trivial, h⟩
  · exact hop (by simp [opcodes]) h
  · exact hop (by simp [opcodes]) ⟨h.1, trivial⟩
  · exact hop (by simp [opcodes]) ⟨trivial, trivial⟩
  · exact hop (by simp [opcodes]) h
  · exact hop (by simp [opcodes]) ⟨h.2.1, h.1, trivial⟩
  · exact hop (by simp [opcodes]) ⟨h.2.2.1, h.1, h.2.1, trivial⟩
  · exact .error

theorem DataType.name_list {type : DataType} : type.name = "list" ↔ type = .typed .ofList := by
  cases type with
  | message => decide
  | typed t =>
    obtain ⟨number, string, boolean, list⟩ := t
    cases number <;> cases string <;> cases boolean <;> cases list <;> decide

/-- The values of members are made by operators that suit the variable. -/
theorem MemberAction.yields {d : Data} {action : MemberAction} (hP : Lenient L P) {kind : Member}
    {name : String} {table : Assoc String MemberAction} (hkind : kind ≠ .function)
    (htable : tableOf d.type.name kind = .ok table) (haction : Assoc.get? name table = some action)
    (hd : P (.data d)) (h : EveryAll P operands) : Yields P (action.apply operands (.data d)) := by
  have hmem := Assoc.mem_of_get? haction
  have hblock : ∀ op, op.isOperator = true ∧ op ∉ logical → Suits (operands ++ [.data d]) op →
      Yields P (Value.apply op (operands ++ [.data d])) := fun op hop hsuits =>
    yields_apply (hP.operator _ _ hop.1 hsuits fun hlogical => absurd hlogical hop.2)
      (everyAll_append.mpr ⟨h, hd, trivial⟩)
  have htext : d.type.name ≠ "list" → (Value.data d).AsText :=
    fun hne => .inr fun heq => hne (DataType.name_list.mpr heq)
  have hlist : d.type.name = "list" → (Value.data d).AsList :=
    fun heq => .inr (DataType.name_list.mp heq)
  unfold tableOf at htable
  split at htable <;> cases htable <;> simp at hmem hkind <;> obtain ⟨-, rfl⟩ := hmem <;>
    rename_i heq
  · exact hblock .lengthOf (by decide) (by simpa [Suits] using htext (by simp [heq]))
  · exact hblock .lengthOf (by decide) (by simpa [Suits] using htext (by simp [heq]))
  · exact hblock .listLength (by decide) (by simpa [Suits] using hlist heq)
  · rcases operands with _ | ⟨item, _ | ⟨_, _⟩⟩
    · exact .error
    · have hplace : (Value.op .listIndexOf [item, .data d]).Every P :=
        hP.every (by decide) (by simpa [Suits] using hlist heq) ⟨h.1, hd, trivial⟩
      exact yields_sub hP hplace trivial
    · exact .error

end

namespace Build

variable {s s' : BuildState}

theorem Gives.of_yields (h : Yields P x) : Gives (Every P) (Build.ofExcept x) :=
  fun _ _ _ hrun => h _ (ofExcept_ok.mp hrun).1

theorem Gives.of_outcome (h : Yields P x) : Gives (Every P) (Build.ofOutcome x) :=
  fun _ _ _ hrun => h _ (ofOutcome_ok.mp hrun).1

section

theorem gives_unknownOperation (family : Family) (operands : List Value) :
    Gives P (unknownOperation family operands) := by
  unfold unknownOperation
  split
  · exact .bind (.any _) fun _ _ => .fault
  · split
    · exact .bind (.any _) fun _ _ => .bind (.any _) fun _ _ => .fault
    · exact .bind (.any _) fun _ _ => .fault
  · exact .bind (.any _) fun _ _ => .fault

/-- A sprite that is touched by its name is no part that is asked for anything. -/
theorem gives_touchedSprite? :
    Gives (fun found => ∀ v, found = some v → v.Every P) (touchedSprite? operands) := by
  unfold touchedSprite?
  split
  · exact .fault
  · refine .bind (.any _) fun t _ => .pure fun v hv => ?_
    split at hv
    · exact Option.some.inj hv ▸ trivial
    · cases hv
  · exact .fault
  · exact .pure fun v hv => by cases hv

variable (hP : Lenient L P)

include hP

theorem gives_indexed {target index : Value} (ht : target.Every P) (hi : index.Every P) :
    Gives (Every P) (indexed target index) := by
  refine .bind (.any _) fun _ _ => .bind (.any _) fun _ _ => ?_
  refine .bind (.of_yields (yields_add hP hi (by simp))) fun place hplace => ?_
  refine .bind (.ofExcept _) fun type htype => ?_
  split
  · rename_i hlist
    refine .pure ⟨hP.item (asList_of_type? ?_), ⟨hplace, ht, trivial⟩, trivial⟩
    rw [htype, eq_of_beq hlist]
  · rename_i hlist
    have htext : target.AsText := asText_of_type? (by simpa [htype] using hlist)
    exact .pure (hP.every (by decide) (by simpa [Suits] using htext) ⟨hplace, ht, trivial⟩)

variable (h : EveryAll P operands)

include h

theorem gives_concatenated : Gives (Every P) (concatenated operands) := by
  unfold concatenated
  split
  · refine .bind (.any _) fun _ _ => ?_
    split
    · exact .pure trivial
    · exact .pure (hP.every (by decide) trivial h)
  · exact .fault

theorem gives_calculated (op : ArithOp) : Gives (Every P) (calculated op operands) :=
  .bind (.any _) fun _ _ => .of_yields (op.yields hP h)

theorem gives_compared (op : CompareOp) : Gives (Every P) (compared op operands) := by
  unfold compared
  split
  · exact .bind (.any _) fun _ _ => .of_yields (op.yields hP h)
  · exact .fault

theorem gives_combined (op : LogicOp) (hallowed : op ≠ .isIn → ∀ v ∈ operands, L v) :
    Gives (Every P) (combined op operands) := by
  unfold combined
  split
  · split
    · exact .bind (P := fun _ => False) .fault fun _ hfalse => hfalse.elim
    · rename_i whole hwhole
      refine .bind (.ofOutcome _) fun _ hrequire => .of_yields (LogicOp.yields hP h _ ?_ hallowed)
      have hfits := @Outcome.require_single _ _ _ [.ofList, .ofString] hrequire
      simpa [LogicOp.Takes, hwhole] using hfits
  · refine .bind (.ofOutcome _) fun _ hrequire => .of_yields (op.yields hP h ?_ hallowed)
    rename_i hin
    have hfits := Outcome.fits_of_require hrequire
    cases op <;> simp_all [LogicOp.Takes]

theorem gives_memberValue (pos : Position) (object : Expr) (name : String)
    (hkind : kind ≠ .function) (hd : P (.data d)) :
    Gives (Every P) (member kind pos object name operands d) := by
  refine .bind (.ofExcept _) fun table htable => ?_
  split
  · rename_i action haction
    exact .of_yields (MemberAction.yields hP hkind htable haction hd h)
  · exact .bind (.any _) fun _ _ => .bind (.any _) fun _ _ => .reject

end

/-- From one state to another, a property of states goes on to hold, and what was true of parts of
values stays true. -/
structure Lasts (I : BuildState → Prop) (P : BuildState → Value → Prop) (s s' : BuildState) :
    Prop where
  holds : I s'
  grows : ∀ part, P s part → P s' part

section

variable {I : BuildState → Prop} {P : BuildState → Value → Prop} {α β : Type} {t : BuildState}
  {post : BuildState → α → Prop}

theorem Lasts.refl (h : I s) : Lasts I P s s := ⟨h, fun _ hpart => hpart⟩

theorem Lasts.trans (h : Lasts I P s t) (h' : Lasts I P t s') : Lasts I P s s' :=
  ⟨h'.holds, fun part hpart => h'.grows part (h.grows part hpart)⟩

/-- From a state, every success of a step lasts, and what it gives has a property in the state
after it. -/
def Safe (I : BuildState → Prop) (P : BuildState → Value → Prop) (s : BuildState) (x : Build α)
    (post : BuildState → α → Prop) : Prop :=
  ∀ a s', I s → x s = .ok a s' → Lasts I P s s' ∧ post s' a

/-- A safe step that gives a value all parts of which have the property. -/
abbrev Valued (I : BuildState → Prop) (P : BuildState → Value → Prop) (s : BuildState)
    (x : Build Value) : Prop :=
  Safe I P s x fun t v => v.Every (P t)

namespace Safe

theorem fault : Safe I P s (Build.fault f) post :=
  fun _ _ _ h => (fault_ok.mp h).elim

theorem reject : Safe I P s (Build.reject p) post :=
  fun _ _ _ h => (reject_ok.mp h).elim

theorem fault_bind : Safe I P s ((Build.fault f : Build α) >>= k) post' := by
  intro b s' hs h
  obtain ⟨_, _, hfault, -⟩ := bind_ok.mp h
  cases hfault

theorem of_readOnly (hx : ReadOnly x) (hpost : I s → ∀ a, x s = .ok a s → post s a) :
    Safe I P s x post := by
  intro a s' hs h
  obtain rfl := hx _ _ _ h
  exact ⟨.refl hs, hpost hs a h⟩

theorem of_gives (hx : ReadOnly x) (hpost : Gives (post s) x) : Safe I P s x post :=
  of_readOnly hx fun _ a h => hpost s a s h

theorem pure (h : post s a) : Safe I P s (Pure.pure a) post :=
  of_gives (.pure a) (.pure h)

theorem bind (hx : Safe I P s x post)
    (hf : ∀ t a, Lasts I P s t → post t a → Safe I P t (f a) post') :
    Safe I P s (x >>= f) post' := by
  intro b s' hs h
  obtain ⟨a, t, hfirst, hsecond⟩ := bind_ok.mp h
  obtain ⟨ht, ha⟩ := hx a t hs hfirst
  obtain ⟨hs', hb⟩ := hf t a ht ha b s' ht.holds hsecond
  exact ⟨ht.trans hs', hb⟩

/-- After a step that only looks at the state, building goes on where it was. -/
theorem read (hx : ReadOnly x)
    (hf : ∀ a, I s → x s = .ok a s → Safe I P s (f a) post') : Safe I P s (x >>= f) post' := by
  intro b s' hs h
  obtain ⟨a, t, hfirst, hsecond⟩ := bind_ok.mp h
  obtain rfl := hx _ _ _ hfirst
  exact hf a hs hfirst b s' hs hsecond

theorem get_bind (hf : I s → Safe I P s (f s) post') : Safe I P s (get >>= f) post' :=
  fun b s' hs h => hf hs b s' hs (get_bind_ok.mp h)

theorem of_holds (h : I s → Safe I P s x post) : Safe I P s x post :=
  fun a s' hs hrun => h hs a s' hs hrun

theorem forM {f : α → Build Unit} {items : List α}
    (h : ∀ item ∈ items, ∀ t, Lasts I P s t → Safe I P t (f item) fun _ _ => True) :
    Safe I P s (items.forM f : Build Unit) fun _ _ => True := by
  induction items generalizing s with
  | nil => exact pure trivial
  | cons item rest ih =>
    obtain ⟨hfirst, hrest⟩ := List.forall_mem_cons.mp h
    refine of_holds fun hs => (hfirst s (.refl hs)).bind fun t _ ht _ => ?_
    exact ih fun other hother t' ht' => hrest other hother t' (ht.trans ht')

theorem map (f : α → β) (hx : Safe I P s x fun t a => post' t (f a)) :
    Safe I P s (f <$> x) post' := by
  intro b s' hs h
  obtain ⟨a, hrun, rfl⟩ := map_ok.mp h
  exact hx a s' hs hrun

end Safe

end

/-- What building expressions asks of a property of states and of one of parts of values: operators
keep it, and what can be named has it, as have the results of functions, what tells clones apart,
and the blocks of those names of the language that may be used. -/
structure Stock (L : Value → Prop) (I : BuildState → Prop) (P : BuildState → Value → Prop) : Prop
    where
  lenient : ∀ s, Lenient L (P s)
  offers : ∀ {s entry op arguments}, I s → entry ∈ Builtins.entries →
    (entry.spriteOnly = true → s.frame.place.isSprite = true) → op ∈ entry.builtin.opcodes →
    P s (.op op arguments)
  named : ∀ {s key d}, I s → find? key s = .ok (some d) s → P s (.data d)
  results : ∀ {s name function d}, I s → Assoc.get? name s.frame.functions = some function →
    function.output = some d → P s (.data d)
  moveTo : ∀ s pos, Safe I P s (moveTo pos) fun _ _ => True
  calls : ∀ {s name function signature arguments},
    Assoc.get? name s.frame.functions = some function → function.signature = some signature →
    arguments.length = signature.parameters → EveryAll (P s) arguments →
    Safe I P s (emit (.call signature.label arguments)) fun _ _ => True
  cloneFlag : ∀ s, Safe I P s cloneFlag fun t v => v.Every (P t)

/-- What logical operators combine among some expressions is allowed. -/
def Combines (L : Value → Prop) (I : BuildState → Prop) (nodes : List Expr) : Prop :=
  ∀ pos op es, .logic pos op es ∈ nodes → op ≠ .isIn → ∀ e ∈ es, ∀ s v s', I s →
    comparand .script e s = .ok v s' → L v

theorem Combines.any (nodes : List Expr) : Combines (fun _ => True) I nodes :=
  fun _ _ _ _ _ _ _ _ _ _ _ _ => trivial

theorem Combines.mono {nodes nodes' : List Expr} (h : Combines L I nodes)
    (hnodes : ∀ e ∈ nodes', e ∈ nodes) : Combines L I nodes' :=
  fun pos op es hmem => h pos op es (hnodes _ hmem)

namespace Stock

variable {L : Value → Prop} {I : BuildState → Prop} {P : BuildState → Value → Prop}
  {operands : List Value} (h : Stock L I P)

include h

/-- What a name of the language that may be used makes of its operands. -/
theorem apply (hs : I s) {entry : Entry} (hentry : entry ∈ Builtins.entries)
    (hallowed : entry.spriteOnly = true → s.frame.place.isSprite = true)
    (hoperands : EveryAll (P s) operands) : Yields (P s) (entry.builtin.apply operands) :=
  Builtin.yields (h.lenient s) (Builtins.isSimple_of_mem hentry)
    (fun _ hop _ => h.offers hs hentry hallowed hop) hoperands

theorem builtinValue (f : Expr) (hoperands : EveryAll (P s) operands) :
    Valued I P s (builtinValue f operands) := by
  refine .read (reads.builtin _ _ _) fun b hs hb => ?_
  obtain ⟨entry, hresolve, rfl, hallowed⟩ := builtin_ok hb
  have hentry := Builtins.mem_entries (by simp) hresolve
  have hresult : Valued I P s (ofOutcome (entry.builtin.apply operands)) :=
    .of_gives (.ofOutcome _) (.of_outcome (h.apply hs hentry hallowed hoperands))
  have harity : ReadOnly (checkArity entry.builtin operands.length) := reads.checkCount _ _ _
  refine .read harity fun _ _ _ => ?_
  split
  · rename_i heq
    refine .read (reads.touchedSprite? _) fun found _ hfound => ?_
    cases found with
    | some sprite =>
      have hsprite : sprite.Every (P s) := gives_touchedSprite? _ _ _ hfound sprite rfl
      refine .pure ⟨h.offers hs hentry hallowed ?_, ⟨hsprite, trivial⟩, trivial⟩
      simp [heq, Builtin.opcodes]
    | none => exact heq ▸ hresult
  · exact hresult

theorem member (kind : Member) (hkind : kind ≠ .function) (pos : Position)
    (object : Expr) (name : String) (hd : P s (.data d)) (hoperands : EveryAll (P s) operands) :
    Valued I P s (member kind pos object name operands d) :=
  .of_gives (reads.member _ _ _ _ _ _)
    (gives_memberValue (h.lenient s) hoperands pos object name hkind hd)

theorem attributeValue (pos : Position) (object : Expr) (name : String) :
    Valued I P s (attributeValue pos object name) := by
  refine .read (readOnly_find? _) fun found hs hfind => ?_
  cases found with
  | some d => exact h.member .field (by decide) _ _ _ (h.named hs hfind) trivial
  | none =>
    dsimp only
    split
    · exact h.cloneFlag s
    · refine .read (reads.builtin _ _ _) fun b hs hb => ?_
      obtain ⟨entry, hresolve, rfl, hallowed⟩ := builtin_ok hb
      have hentry := Builtins.mem_entries (by simp) hresolve
      exact .of_gives (.ofOutcome _) (.of_outcome (h.apply hs hentry hallowed (by simp)))

theorem functionValue {function : Function}
    (hfunction : Assoc.get? name s.frame.functions = some function)
    (hoperands : EveryAll (P s) operands) : Valued I P s (functionValue function operands) := by
  unfold Build.functionValue
  split
  · exact .reject
  · rename_i output houtput
    split
    · exact .fault
    · rename_i hsignature
      refine .read (reads.checkCount _ _ _) fun _ hs hcount => ?_
      exact (h.calls hfunction hsignature (checkCount_ok hcount) hoperands).bind
        fun t _ ht _ => .pure (ht.grows _ (h.results hs hfunction houtput))

theorem callValue (f : Expr) (hoperands : EveryAll (P s) operands) :
    Valued I P s (callValue f operands) := by
  cases f with
  | name pos n =>
    refine .get_bind fun hs => ?_
    split
    · rename_i function hfunction
      exact h.functionValue hfunction hoperands
    · exact h.builtinValue _ hoperands
  | attr pos object n =>
    refine .read (readOnly_find? _) fun found hs hfind => ?_
    cases found with
    | some d => exact h.member .method (by decide) _ _ _ (h.named hs hfind) hoperands
    | none => exact h.builtinValue _ hoperands
  | value | truth | list => exact .fault
  | malformed pos fault =>
    cases fault with
    | missingField => exact .fault
    | _ => exact h.builtinValue _ hoperands
  | _ => exact h.builtinValue _ hoperands

/-- Operands are translated after moving, and then put together. -/
theorem moved
    (pos : Position) (hx : ∀ t, Safe I P t x post) (hf : ∀ t a, post t a → Valued I P t (f a)) :
    Valued I P s (Build.moveTo pos >>= fun _ => x >>= f) :=
  (h.moveTo s pos).bind fun t _ _ _ => (hx t).bind fun t₁ a _ ha => hf t₁ a ha

omit h

mutual

/-- The value of an expression and the calls that it adds are made of its literals and of what may
be used. -/
theorem expression (h : Stock L I P) (e : Expr)
    (hliteral : ∀ w, .value w ∈ e.nodes → ∀ s, w.Every (P s)) (hlogic : Combines L I e.nodes)
    (s : BuildState) :
    Valued I P s (expression .script e) := by
  cases e with
  | value w => exact .pure (hliteral w (by simp) s)
  | truth b => exact .pure (every_truthBlock (h.lenient s) b)
  | list items =>
    exact (expressions h items (fun w hw => hliteral w (by simp [hw]))
      (hlogic.mono fun e he => by simp [he]) s).bind
      fun t values _ hvalues => .pure hvalues
  | name pos n =>
    refine (h.moveTo s pos).bind fun t _ ht _ => ?_
    refine .read (reads.variableNamed n) fun d ht hd => .pure ?_
    have hnamed := h.named ht (variableNamed_ok hd).1
    split
    · exact (h.lenient t).every (by decide) trivial ⟨hnamed, trivial, trivial⟩
    · exact hnamed
  | attr pos object n =>
    exact (h.moveTo s pos).bind fun t _ _ _ => h.attributeValue pos object n
  | index pos target index =>
    refine h.moved pos (expression h target (fun w hw => hliteral w (by simp [hw]))
      (hlogic.mono fun e he => by simp [he])) fun t v hv => ?_
    refine (expression h index (fun w hw => hliteral w (by simp [hw]))
      (hlogic.mono fun e he => by simp [he]) t).bind fun t₁ i ht₁ hi => ?_
    exact .of_gives (reads.indexed _ _) (gives_indexed (h.lenient t₁) (hv.mono ht₁.grows) hi)
  | call pos f es =>
    exact h.moved pos (expressions h es (fun w hw => hliteral w (by simp [hw]))
      (hlogic.mono fun e he => by simp [he])) fun t _ hvalues => h.callValue f hvalues
  | concat pos es =>
    exact h.moved pos (expressions h es (fun w hw => hliteral w (by simp [hw]))
      (hlogic.mono fun e he => by simp [he])) fun t _ hvalues =>
        .of_gives (reads.concatenated _) (gives_concatenated (h.lenient t) hvalues)
  | arith pos op es =>
    exact h.moved pos (expressions h es (fun w hw => hliteral w (by simp [hw]))
      (hlogic.mono fun e he => by simp [he])) fun t _ hvalues =>
        .of_gives (reads.calculated _ _) (gives_calculated (h.lenient t) hvalues op)
  | compare pos op es =>
    exact h.moved pos (expressions h es (fun w hw => hliteral w (by simp [hw]))
      (hlogic.mono fun e he => by simp [he])) fun t _ hvalues =>
        .of_gives (reads.compared _ _) (gives_compared (h.lenient t) hvalues op)
  | logic pos op es =>
    exact h.moved pos (comparands h es (fun w hw => hliteral w (by simp [hw]))
      (hlogic.mono fun e he => by simp [he]) (hlogic pos op es (by simp))) fun t _ hvalues =>
        .of_gives (reads.combined _ _) (gives_combined (h.lenient t) hvalues.1 op hvalues.2)
  | unknown pos family es =>
    have hunknown (t : BuildState) (values : List Value) :
        Valued I P t (unknownOperation family values) :=
      .of_gives (reads.unknownOperation _ _) (gives_unknownOperation family values)
    cases family with
    | logic =>
      exact h.moved pos (comparands h es (fun w hw => hliteral w (by simp [hw]))
        (hlogic.mono fun e he => by simp [he]) False.elim) fun t values _ => hunknown t values
    | _ =>
      exact h.moved pos (expressions h es (fun w hw => hliteral w (by simp [hw]))
        (hlogic.mono fun e he => by simp [he])) fun t values _ => hunknown t values
  | malformed pos f => exact (h.moveTo s pos).bind fun t _ _ _ => .fault

theorem expressions (h : Stock L I P) (es : List Expr)
    (hliteral : ∀ w, .value w ∈ Expr.nodesAll es → ∀ s, w.Every (P s))
    (hlogic : Combines L I (Expr.nodesAll es)) (s : BuildState) :
    Safe I P s (expressions .script es) fun t values => EveryAll (P t) values := by
  cases es with
  | nil => exact .pure trivial
  | cons e rest =>
    refine (expression h e (fun w hw => hliteral w (by simp [hw]))
      (hlogic.mono fun e he => by simp [he]) s).bind fun t v ht hv => ?_
    exact (expressions h rest (fun w hw => hliteral w (by simp [hw]))
      (hlogic.mono fun e he => by simp [he]) t).bind
      fun t₁ values ht₁ hvalues => .pure ⟨hv.mono ht₁.grows, hvalues⟩

theorem comparands (h : Stock L I P) (es : List Expr)
    (hliteral : ∀ w, .value w ∈ Expr.nodesAll es → ∀ s, w.Every (P s))
    (hlogic : Combines L I (Expr.nodesAll es)) {C : Prop}
    (hallowed : C → ∀ e ∈ es, ∀ s v s', I s → comparand .script e s = .ok v s' → L v)
    (s : BuildState) : Safe I P s (comparands .script es)
      fun t values => EveryAll (P t) values ∧ (C → ∀ v ∈ values, L v) := by
  cases es with
  | nil => exact .pure ⟨trivial, fun _ _ hv => by cases hv⟩
  | cons e rest =>
    have hevery : Safe I P s (comparand .script e) fun t v => v.Every (P t) := by
      cases e with
      | truth b => exact .pure trivial
      | _ =>
        exact expression h _ (fun w hw => hliteral w (List.mem_append_left _ hw))
          (hlogic.mono fun e he => List.mem_append_left _ he) s
    have hfirst : Safe I P s (comparand .script e) fun t v => v.Every (P t) ∧ (C → L v) := by
      intro v s' hs hrun
      obtain ⟨hlasts, hv⟩ := hevery v s' hs hrun
      exact ⟨hlasts, hv, fun hc => hallowed hc e List.mem_cons_self s v s' hs hrun⟩
    rw [comparands_cons]
    refine hfirst.bind fun t v ht hv => ?_
    have hrest := comparands h rest (fun w hw => hliteral w (by simp [hw]))
      (hlogic.mono fun e he => by simp [he])
      (fun hc e he => hallowed hc e (List.mem_cons_of_mem _ he)) t
    exact hrest.bind fun t₁ values ht₁ hvalues =>
      .pure ⟨⟨hv.1.mono ht₁.grows, hvalues.1⟩,
        fun hc => List.forall_mem_cons.mpr ⟨hv.2 hc, hvalues.2 hc⟩⟩

end

end Stock

/-- Every variable that a name can stand for in a state has a property, and so do the results of
functions and the variable that tells clones apart. -/
structure Known (Q : Data → Prop) (s : BuildState) : Prop where
  named : ∀ key d, find? key s = .ok (some d) s → Q d
  results : ∀ name function d, Assoc.get? name s.frame.functions = some function →
    function.output = some d → Q d
  clone : Q (s.frame.cloneFlag.getD cloneData)

section

variable {Q : Data → Prop}

theorem Known.keeps (h : Known Q s) (hkeeps : Keeps s s') : Known Q s' := by
  refine ⟨fun key d hfind => h.named key d (hkeeps.find?_iff.mp hfind), ?_, ?_⟩
  · rw [hkeeps.functions]
    exact h.results
  · rw [hkeeps.clone]
    exact h.clone

variable {v : Value}

theorem cloneFlag_value (h : cloneFlag s = .ok v s') :
    v = .data (s.frame.cloneFlag.getD cloneData) := by
  obtain ⟨d, hkept, rfl⟩ := (cloneFlag_ok h).2
  rw [← (keeps_cloneFlag _ _ _ h).clone, hkept]
  rfl

/-- What is known may be used, and the calls that are added have the property as well. -/
theorem stock_known (hs : Known Q s) (hP : Lenient L P)
    (hoffers : ∀ entry ∈ Builtins.entries, ∀ op ∈ entry.builtin.opcodes, ∀ arguments,
      P (.op op arguments)) (hdata : ∀ d, Q d → P (.data d))
    (hcalls : ∀ label arguments, P (.call label arguments)) :
    Stock L (fun t => Keeps s t ∧ ∃ blocks,
      t.frame.unfinished = addBlocks blocks s.frame.unfinished ∧ EveryAll P blocks) fun _ => P where
  lenient _ := hP
  offers _ hentry _ hop := hoffers _ hentry _ hop _
  named ht hfind := hdata _ ((hs.keeps ht.1).named _ _ hfind)
  results ht hfunction houtput := hdata _ ((hs.keeps ht.1).results _ _ _ hfunction houtput)
  moveTo t pos u t' ht h := by
    refine ⟨⟨⟨IsTrans.trans _ _ _ ht.1 (keeps_moveTo _ _ _ _ h), ?_⟩, fun _ => id⟩, trivial⟩
    obtain ⟨-, rfl⟩ := moveTo_ok.mp h
    exact ht.2
  calls {t _ _ signature arguments} _ _ _ hall u t' ht h := by
    refine ⟨⟨⟨IsTrans.trans _ _ _ ht.1 (keeps_emitAll _ _ _ _ h), ?_⟩, fun _ => id⟩, trivial⟩
    obtain ⟨-, blocks, hblocks, hevery⟩ := ht
    obtain ⟨-, rfl⟩ := emitAll_ok.mp h
    have hcall : EveryAll P [.call signature.label arguments] := ⟨⟨hcalls _ _, hall⟩, trivial⟩
    exact ⟨blocks ++ [_], by simp [hblocks], everyAll_append.mpr ⟨hevery, hcall⟩⟩
  cloneFlag t v t' ht h := by
    refine ⟨⟨⟨IsTrans.trans _ _ _ ht.1 (keeps_cloneFlag _ _ _ h), ?_⟩, fun _ => id⟩, ?_⟩
    · rcases (cloneFlag_ok h).1 with rfl | ⟨-, rfl⟩ <;> exact ht.2
    · rw [cloneFlag_value h]
      exact hdata _ (hs.keeps ht.1).clone

/-- The variables in the value of an expression are those of its literals and the known ones. -/
theorem reads_expression (hQ : Untyped Q) (e : Expr) (hs : Known Q s)
    (hliteral : ∀ w, .value w ∈ e.nodes → w.Reads Q) (h : expression .script e s = .ok v s') :
    v.Reads Q :=
  (reads_iff v).mpr ((stock_known hs hQ.lenient (fun _ _ _ _ _ => trivial) (fun _ hd => hd)
    fun _ _ => trivial).expression e (fun w hw _ => (reads_iff w).mp (hliteral w hw))
    (.any _) s v s' ⟨Std.Refl.refl s, [], by simp, trivial⟩ h).2

end

end Build

end BlockScript
