import BlockScript.Proofs.References

/-!
What stands in the slots of blocks. Types decide whether a block of lists or one of texts is built.
Types may overlap, so a value of no certain type is taken for a list by one operator and for a text
by others.
-/
namespace BlockScript

theorem Opcode.resultType_ne_list (op : Opcode) : op.resultType ≠ some .ofList := by
  unfold resultType
  repeat' split
  all_goals decide

namespace Value

variable {Q : Data → Prop} {v w : Value} {op : Opcode} {arguments : List Value}

/-- The parts of what is built from variables with a property. Blocks have arguments that suit them,
and types of their own unless they are read as numbers or texts. -/
def Fitting (Q : Data → Prop) : Value → Prop
  | data d => Q d
  | block op arguments retyped _ => Suits arguments op ∧ (retyped = none ∨
      (retyped = some .ofNumber ∨ retyped = some .ofString) ∨
      op = .itemOfList ∧ retyped = some .general)
  | _ => True

theorem fitting_offered (hentry : entry ∈ Builtins.entries) (hop : op ∈ entry.builtin.opcodes) :
    Fitting Q (.op op arguments) := by
  have hall : (Builtins.entries.all fun entry => entry.builtin.opcodes.all fun op =>
      !choosy.contains op) = true := by decide
  have hother := List.all_eq_true.mp (List.all_eq_true.mp hall entry hentry) op hop
  exact ⟨suits_of_plain (by simpa using hother), .inl rfl⟩

mutual

/-- Every part of a value whose parts have a property has such parts. -/
theorem Every.deep {v : Value} (h : v.Every P) : v.Every (Every P) := by
  cases v with
  | list items => exact EveryAll.deep h
  | call label arguments => exact ⟨h, EveryAll.deep h.2⟩
  | block op arguments retyped alternative =>
    refine ⟨h, EveryAll.deep h.2.1, ?_⟩
    cases alternative with
    | none => trivial
    | some script => exact EveryAll.deep h.2.2
  | _ => exact h

theorem EveryAll.deep {values : List Value} (h : EveryAll P values) :
    EveryAll (Every P) values := by
  cases values with
  | nil => trivial
  | cons v rest => exact ⟨Every.deep h.1, EveryAll.deep h.2⟩

end

section

/-- A variable that is a list, or a literal one. -/
def IsList : Value → Prop
  | data d => d.isList = true
  | list _ => True
  | flags t => t = .ofList
  | _ => False

/-- Blocks of lists have lists, and blocks of texts have none. Only the search for an item takes
whatever may be a list or a text, but is not certain to be a text. -/
def OfKind : Value → Prop
  | block op arguments _ _ =>
    (op ∈ [.itemOfList, .listIndexOf, .listLength] → ∀ v ∈ arguments.getLast?, v.IsList) ∧
    (op ∈ [.letterOf, .lengthOf] → ∀ v ∈ arguments.getLast?, ∀ d, v = data d → d.isList = false) ∧
    (op = .contains → ∀ v ∈ arguments.head?, ∀ d, v = data d → d.isList = false) ∧
    (op = .listContains → ∀ v ∈ arguments.head?, v.IsList ∨ ∃ t, v.type? = .ok (some (.typed t)) ∧
      t ≠ .ofString ∧ t ≠ .ofList ∧ (t.meets .ofList = true ∨ t.meets .ofString = true))
  | _ => True

theorem AsList.isList (h : v.AsList) (hv : v.Every (Fitting Data.Kinded)) : v.IsList := by
  cases v with
  | data d =>
    refine h.elim id fun htype => (hv : d.Kinded).trans ?_
    rw [htype]
    rfl
  | list items => trivial
  | flags t => simpa [AsList, type?, IsList] using h
  | block op arguments retyped alternative =>
    have hresult := op.resultType_ne_list
    rcases hv.1.2 with rfl | (rfl | rfl) | ⟨-, rfl⟩
    · simp only [AsList, type?, Option.none_or] at h
      split at h <;> cases h
      contradiction
    all_goals cases h
  | _ => cases h

theorem AsText.isList (h : v.AsText) (hv : v.Every (Fitting Data.Kinded)) (d : Data)
    (hd : v = data d) : d.isList = false := by
  subst hd
  exact h.elim id fun htype => (hv : d.Kinded).of_type htype

theorem ofKind (h : v.Every (Fitting Data.Kinded)) : v.OfKind := by
  cases v with
  | block op arguments retyped alternative =>
    obtain ⟨⟨hsuits, -⟩, harguments, -⟩ := h
    have hlast : ∀ v ∈ arguments.getLast?, v.Every (Fitting Data.Kinded) := fun v hv =>
      everyAll_iff.mp harguments v (List.mem_of_getLast? hv)
    have hfirst : ∀ v ∈ arguments.head?, v.Every (Fitting Data.Kinded) := fun v hv =>
      everyAll_iff.mp harguments v (List.mem_of_mem_head? hv)
    refine ⟨fun hop v hv => AsList.isList ?_ (hlast v hv),
      fun hop v hv => AsText.isList ?_ (hlast v hv), ?_, ?_⟩
    · simp only [List.mem_cons, List.not_mem_nil, or_false] at hop
      rcases hop with rfl | rfl | rfl <;> exact hsuits v hv
    · simp only [List.mem_cons, List.not_mem_nil, or_false] at hop
      rcases hop with rfl | rfl <;> exact hsuits v hv
    · rintro rfl v hv
      refine AsText.isList (asText_of_type? ?_) (hfirst v hv)
      rw [hsuits v hv]
      decide
    · rintro rfl v hv
      obtain ⟨hstring, hfits⟩ := hsuits v hv
      by_cases hlist : v.type? = .ok (some (.typed .ofList))
      · exact .inl ((asList_of_type? hlist).isList (hfirst v hv))
      · rcases hfits with ⟨t, ht, hmeets⟩ | ⟨t, ht, hmeets⟩ <;>
          exact .inr ⟨t, ht, by rintro rfl; exact hstring ht, by rintro rfl; exact hlist ht,
            by simp [hmeets]⟩
  | _ => trivial

end

end Value

open Value

namespace Build

variable {s s' : BuildState} {v : Value}

section

variable {Q : Data → Prop} (hQ : ∀ d t, Q d → d.type ≠ .typed .ofList →
  t = .ofNumber ∨ t = .ofString → Q { d with type := .typed t })

include hQ

theorem lenient_fitting : Lenient (fun _ => True) (Fitting Q) where
  operator _ _ _ h _ := ⟨h, .inl rfl⟩
  item h := ⟨by simpa [Suits] using h, by simp⟩
  retypedBlock _ _ _ _ _ h ht := ⟨h.1, by simpa using .inl ht⟩
  retypedData := hQ

/-- What is built from variables with a property. -/
theorem fitting_expression {e : Expr} (hs : Known Q s)
    (hliteral : ∀ w, .value w ∈ e.nodes → w.Every (Fitting Q))
    (h : expression .script e s = .ok v s') : v.Every (Fitting Q) ∧ ∃ calls,
      s'.frame.unfinished = addBlocks calls s.frame.unfinished ∧ EveryAll (Fitting Q) calls := by
  obtain ⟨⟨⟨-, hcalls⟩, -⟩, hv⟩ := (stock_known hs (lenient_fitting hQ)
    (fun _ hentry _ hop _ => fitting_offered hentry hop) (fun _ => id) fun _ _ => trivial).expression
    e (fun w hw _ => hliteral w hw) (.any _) s v s' ⟨Std.Refl.refl s, [], by simp, trivial⟩ h
  exact ⟨hv, hcalls⟩

end

/-- All blocks in the value of an expression and in the calls that it adds have arguments of their
kind. -/
theorem slots_of_kind {e : Expr} (hs : Known Data.Kinded s)
    (hliteral : ∀ w, .value w ∈ e.nodes → w.Every (Fitting Data.Kinded))
    (h : expression .script e s = .ok v s') : v.Every OfKind ∧ ∃ calls,
      s'.frame.unfinished = addBlocks calls s.frame.unfinished ∧ EveryAll OfKind calls := by
  obtain ⟨hv, calls, hcalls, hall⟩ :=
    fitting_expression (fun _ _ hd => Data.Kinded.retyped hd) hs hliteral h
  exact ⟨hv.deep.mono fun _ => ofKind, calls, hcalls, hall.deep.mono fun _ => ofKind⟩

/-- A builder that knows a variable for values of any type. -/
def generalBuilder : BuildState :=
  { stageBuilder with draft.stageLocals := [("b_x", ⟨"b_x", false, .typed .general, false⟩)] }

theorem known_general : Known Data.Kinded generalBuilder where
  named key d h := by
    rcases mem_of_find? h with ⟨_, h⟩ | ⟨table, htable, full, h⟩
    · cases h
    · cases htable
      obtain ⟨-, rfl⟩ := Prod.mk.inj (List.mem_singleton.mp h)
      rfl
  results _ _ _ h := by cases h
  clone := rfl

/-- What may be a list or a text is searched like a list. -/
theorem slots_of_kind_general :
    let e := .logic (.start 0) .isIn [.value (.str "a"), .name (.start 0) "x"]
    ∃ d s', let v := .op .listContains [.data d, .str "a"]
      d.isList = false ∧ expression .script e generalBuilder = .ok v s' ∧ v.Every OfKind := by
  intro e
  refine ⟨_, _, rfl, rfl, (slots_of_kind (e := e) known_general (fun w hw => ?_) rfl).1⟩
  simp [e] at hw
  subst hw
  trivial

end Build

end BlockScript
