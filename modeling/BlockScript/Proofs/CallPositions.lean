import BlockScript.Proofs.Attributes

/-!
The same call as a statement and as a value. A statement looks for the name among the functions of
the language first, a value among the functions of the script. Only functions of a script can be
called in both ways, so the two differ for a function that has the name of a statement of the
language.
-/
namespace BlockScript

/-- A method of a variable is never a function of it as well. -/
theorem Data.method_not_function {d : Data} {name : String} {action action' : MemberAction}
    (h : d.member? .method name = some action) : d.member? .function name ≠ some action' := by
  intro h'
  unfold member? at h h'
  cases htable : MemberAction.tableOf d.type.name .method with
  | error f =>
    rw [htable] at h
    cases h
  | ok table =>
    cases htable' : MemberAction.tableOf d.type.name .function with
    | error f =>
      rw [htable'] at h'
      cases h'
    | ok table' =>
      rw [htable] at h
      rw [htable'] at h'
      have hmem := Assoc.mem_of_get? h
      have hmem' := Assoc.mem_of_get? h'
      unfold MemberAction.tableOf at htable htable'
      split at htable <;> cases htable <;> split at htable' <;> cases htable' <;> grind

namespace Build

variable {s s' : BuildState} {f : Expr} {v : Value} {values : List Value}

theorem member_ok (h : member kind pos object name values d s = .ok v s') :
    ∃ action, d.member? kind name = some action := by
  obtain ⟨table, htable, h⟩ := ofExcept_bind_ok.mp h
  unfold Data.member?
  rw [htable]
  cases haction : Assoc.get? name table with
  | some action => exact ⟨action, haction⟩
  | none =>
    simp only [haction] at h
    obtain ⟨_, _, -, _, _, -, h⟩ := bind_bind_ok.mp h
    cases h

theorem callKnown_unknown (f : Expr) (values : List Value) :
    callKnown f .unknown values s ≠ .ok u s' := by
  intro h
  unfold callKnown at h
  split at h
  · exact fault_ok.mp h
  · exact fault_ok.mp h
  · exact fault_ok.mp h
  · exact fault_ok.mp h
  · dsimp only at h
    split at h <;> (obtain ⟨_, _, -, h⟩ := bind_ok.mp h; exact reject_ok.mp h)

theorem callStatement_ok (h : callStatement f arguments s = .ok u s') :
    ∃ values t, expressions .script arguments s = .ok values t ∧
      ((∃ entry, Builtins.functions.resolve f = some (.entry entry) ∧
          callKnown f (.builtin entry.builtin) values t = .ok u s') ∨
        Builtins.functions.resolve f = none ∧
          ((∃ p n function signature, f = .name p n ∧
              Assoc.get? n t.frame.functions = some function ∧
              function.signature = some signature ∧
              emit (.call signature.label values) t = .ok u s') ∨
            ∃ p object n d, f = .attr p object n ∧ find? (.ofExpr object) t = .ok (some d) t ∧
              ∃ action, d.member? .function n = some action)) := by
  obtain ⟨values, t, hvalues, h⟩ := bind_ok.mp h
  refine ⟨values, t, hvalues, ?_⟩
  obtain ⟨callee, t₁, hcallee, h⟩ := bind_ok.mp h
  obtain ⟨rfl, hways⟩ := calleeOf_ok hcallee
  rcases hways with ⟨entry, hentry, -, rfl⟩ | ⟨hnone, rfl | hcustom⟩
  · exact .inl ⟨entry, hentry, h⟩
  · obtain ⟨found, hfind, h⟩ := (readOnly_find? _).bind_ok h
    cases found with
    | none => exact absurd h (callKnown_unknown f values)
    | some d =>
      obtain ⟨_, _, -, h⟩ := bind_ok.mp h
      cases f with
      | attr p object n =>
        obtain ⟨block, _, hblock, -⟩ := bind_ok.mp h
        exact .inr ⟨hnone, .inr ⟨p, object, n, d, rfl, hfind, member_ok hblock⟩⟩
      | _ => cases h
  · obtain ⟨p, n, function, signature, rfl, hfunction, hsignature, rfl, -⟩ := hcustom
    obtain ⟨_, _, hgiven, h⟩ := bind_ok.mp h
    obtain ⟨rfl, rfl⟩ := pure_ok.mp hgiven
    obtain ⟨_, _, hscript, h⟩ := bind_ok.mp h
    obtain ⟨-, rfl⟩ := requireScript_ok.mp hscript
    exact .inr ⟨hnone, .inl ⟨p, n, function, signature, rfl, hfunction, hsignature, h⟩⟩

/-- What a call can be a call of where a value is needed. -/
theorem callValue_ok (h : callValue f values s = .ok v s') :
    (∃ p n function, f = .name p n ∧ Assoc.get? n s.frame.functions = some function ∧
        functionValue function values s = .ok v s') ∨
      (∃ p object n d, f = .attr p object n ∧ find? (.ofExpr object) s = .ok (some d) s ∧
        ∃ action, d.member? .method n = some action) ∨
      (∃ entry, Builtins.functionReporters.resolve f = some (.entry entry)) ∧
        (∀ p n, f = .name p n → Assoc.get? n s.frame.functions = none) ∧
        ∀ p object n, f = .attr p object n → find? (.ofExpr object) s = .ok none s := by
  have hbuiltin : builtinValue f values s = .ok v s' →
      ∃ entry, Builtins.functionReporters.resolve f = some (.entry entry) := by
    intro h
    obtain ⟨b, t, hb, -⟩ := bind_ok.mp h
    obtain ⟨entry, hentry, -, -⟩ := builtin_ok hb
    exact ⟨entry, hentry⟩
  unfold callValue at h
  split at h
  · cases h
  · cases h
  · cases h
  · cases h
  · rename_i p n
    rw [get_bind_ok] at h
    cases hfunction : Assoc.get? n s.frame.functions with
    | some function =>
      simp only [hfunction] at h
      exact .inl ⟨p, n, function, rfl, hfunction, h⟩
    | none =>
      simp only [hfunction] at h
      refine .inr (.inr ⟨hbuiltin h, ?_, ?_⟩)
      · rintro _ _ ⟨⟩
        exact hfunction
      · rintro _ _ _ ⟨⟩
  · rename_i p object n
    obtain ⟨found, hfind, h⟩ := (readOnly_find? _).bind_ok h
    cases found with
    | some d => exact .inr (.inl ⟨p, object, n, d, rfl, hfind, member_ok h⟩)
    | none =>
      refine .inr (.inr ⟨hbuiltin h, ?_, ?_⟩)
      · rintro _ _ ⟨⟩
      · rintro _ _ _ ⟨⟩
        exact hfind
  · rename_i hname hattr
    exact .inr (.inr ⟨hbuiltin h, fun p n hf => (hname p n hf).elim,
      fun p object n hf => (hattr p object n hf).elim⟩)

/-- A call that is accepted both as a statement and as a value is a call of a function of the
script, with the same arguments in both places. The statement runs the function, too, unless its
name is also one of the language, and then it runs that. -/
theorem same_function_iff {pos : Position} {arguments : List Expr} {s₁ s₂ : BuildState}
    (hstatement : statement (.call pos f arguments) s = .ok () s₁)
    (hvalue : expression .script (.call pos f arguments) s = .ok v s₂) :
    ∃ p n t values function output signature block, f = .name p n ∧
      (do moveTo pos; expressions .script arguments) s = .ok values t ∧
      Assoc.get? n t.frame.functions = some function ∧ function.output = some output ∧
      function.signature = some signature ∧ v = .data output ∧
      emit (.call signature.label values) t = .ok () s₂ ∧ emit block t = .ok () s₁ ∧
      (block = .call signature.label values ↔ Builtins.functions.resolve f = none) ∧
      ∀ entry, Builtins.functions.resolve f = some (.entry entry) →
        entry.builtin.apply values = .ok block := by
  obtain ⟨_, t₀, hmove, hstatement⟩ := bind_ok.mp hstatement
  obtain ⟨_, t₁, hmove', hvalue⟩ := bind_ok.mp hvalue
  obtain ⟨-, rfl⟩ := EStateM.Result.ok.inj (hmove.symm.trans hmove')
  obtain ⟨values, t, hvalues, hways⟩ := callStatement_ok hstatement
  obtain ⟨values', t', hvalues', hvalue⟩ := bind_ok.mp hvalue
  obtain ⟨rfl, rfl⟩ := EStateM.Result.ok.inj (hvalues.symm.trans hvalues')
  have hgiven : (do moveTo pos; expressions .script arguments) s = .ok values t :=
    bind_ok.mpr ⟨(), t₀, hmove, hvalues⟩
  rcases callValue_ok hvalue with ⟨p, n, function, rfl, hfunction, hresult⟩ |
    ⟨p, object, n, d, rfl, hfind, action, haction⟩ | ⟨⟨entry', hentry'⟩, hfunction, hfind⟩
  · obtain ⟨output, signature, houtput, hsignature, rfl, hemit⟩ := functionValue_ok hresult
    rcases hways with ⟨entry, hentry, hknown⟩ | ⟨hnone, hcustom | ⟨_, _, _, _, hf, -⟩⟩
    · obtain ⟨_, _, hpure, hknown⟩ := bind_ok.mp hknown
      obtain ⟨rfl, rfl⟩ := pure_ok.mp hpure
      obtain ⟨_, _, hscript, hknown⟩ := bind_ok.mp hknown
      obtain ⟨-, rfl⟩ := requireScript_ok.mp hscript
      obtain ⟨block, _, hresult, hblock⟩ := bind_ok.mp hknown
      obtain ⟨happly, rfl⟩ := ofOutcome_ok.mp hresult
      obtain ⟨op, operands, -, rfl⟩ := Builtin.apply_inert (functions_inert.resolve _ hentry) happly
      refine ⟨p, n, t, values, function, output, signature, _, rfl, hgiven, hfunction, houtput,
        hsignature, rfl, hemit, hblock, ⟨fun h => ?_, fun h => ?_⟩, fun own hown => ?_⟩
      · cases h
      · cases h.symm.trans hentry
      · cases hown.symm.trans hentry
        exact happly
    · obtain ⟨_, _, own, signature', hf, hown, hsignature', hblock⟩ := hcustom
      cases hf
      cases hown.symm.trans hfunction
      cases hsignature'.symm.trans hsignature
      refine ⟨p, n, t, values, function, output, signature, _, rfl, hgiven, hfunction, houtput,
        hsignature, rfl, hemit, hblock, ⟨fun _ => hnone, fun _ => rfl⟩, fun entry hentry => ?_⟩
      cases hnone.symm.trans hentry
    · cases hf
  · exfalso
    rcases hways with ⟨entry, hentry, -⟩ |
      ⟨-, ⟨_, _, _, _, hf, -⟩ | ⟨_, _, _, d', hf, hfind', action', haction'⟩⟩
    · have hlacks := (builtins_lack_members n (Data.mem_names haction)).2.2
      cases (NameTable.resolve_attr_lacks hlacks p object).symm.trans hentry
    · cases hf
    · cases hf
      cases (EStateM.Result.ok.inj (hfind'.symm.trans hfind)).1
      exact Data.method_not_function haction haction'
  · exfalso
    rcases hways with ⟨entry, hentry, -⟩ |
      ⟨-, ⟨p, n, function, _, rfl, hown, -⟩ | ⟨p, object, n, d, rfl, hfound, -⟩⟩
    · exact Builtins.functionReporters_apart hentry hentry'
    · cases hown.symm.trans (hfunction p n rfl)
    · cases (EStateM.Result.ok.inj (hfound.symm.trans (hfind p object n rfl))).1

/-- A builder for a sprite with a function that is called `show`. -/
def showWriter : BuildState :=
  let s := BuildState.fresh (.fresh (some .error) false) ""
  { s with
    frame.place := .sprite 0
    frame.functions := [("show", ⟨some ⟨"fo_show", false, .typed .ofNumber, true⟩, some ⟨"show", 0⟩⟩)]
    frame.unfinished := [[]] }

/-- As a value `show()` runs the function, as a statement it shows the sprite. -/
theorem same_function_iff_show : ∃ v s₁ s₂ t,
    statement (.call .nowhere (.name .nowhere "show") []) showWriter = .ok () s₁ ∧
    expression .script (.call .nowhere (.name .nowhere "show") []) showWriter = .ok v s₂ ∧
    emit (.op .showSprite []) t = .ok () s₁ ∧ emit (.call "show" []) t = .ok () s₂ := by
  obtain ⟨v, s₁, s₂, hstatement, hvalue⟩ : ∃ v s₁ s₂,
      statement (.call .nowhere (.name .nowhere "show") []) showWriter = .ok () s₁ ∧
      expression .script (.call .nowhere (.name .nowhere "show") []) showWriter = .ok v s₂ :=
    ⟨_, _, _, rfl, rfl⟩
  obtain ⟨p, n, t, values, function, output, signature, block, hname, hvalues, hfunction, -,
    hsignature, -, hcall, hblock, -, hbuiltin⟩ := same_function_iff hstatement hvalue
  cases hname
  cases hvalues
  cases hfunction
  cases hsignature
  cases hbuiltin _ rfl
  exact ⟨v, s₁, s₂, _, hstatement, hvalue, hblock, hcall⟩

end Build

end BlockScript
