import BlockScript.Proofs.Declaring
import BlockScript.Proofs.SideBySide

/-!
What the building of a statement consists of. Each lemma takes the success of one kind of
statement apart into the successes of its steps. Moving to another position is all that
happens between these steps.
-/
namespace BlockScript.Build

variable {s s' : BuildState}

/-- Only the session changes, such as the position last looked at. -/
structure Quiet (s s' : BuildState) : Prop where
  draft : s'.draft = s.draft
  frame : s'.frame = s.frame

theorem Quiet.refl (s : BuildState) : Quiet s s := ⟨rfl, rfl⟩

theorem Quiet.trans (h : Quiet s t) (h' : Quiet t s') : Quiet s s' :=
  ⟨h'.draft.trans h.draft, h'.frame.trans h.frame⟩

theorem Quiet.keeps (h : Quiet s s') : Keeps s s' := by
  obtain ⟨hdraft, hframe⟩ := h
  refine ⟨?_, ?_, ?_, ?_, ?_, ?_, ?_, ?_, ?_, ?_, ?_, [], ?_⟩ <;>
    simp only [hdraft, hframe, addBlocks_nil]

theorem Moved.quiet (h : Moved s s') : Quiet s s' := by
  obtain ⟨p, rfl⟩ := h
  exact ⟨rfl, rfl⟩

theorem quiet_moveTo (h : moveTo p s = .ok u s') : Quiet s s' :=
  (moved_moveTo h).quiet

theorem openScript_eq (ownScope : Bool) :
    openScript ownScope = (if ownScope then enterScope else pure ()) >>= fun _ =>
      modifyFrame fun f => { f with unfinished := [] :: f.unfinished } := by
  cases ownScope <;> rfl

theorem closeScript_eq (ownScope : Bool) :
    closeScript ownScope = (if ownScope then exitScope else pure ()) >>= fun _ => do
      match (← get).frame.unfinished with
      | [] => fault .outOfRange
      | script :: rest =>
        modifyFrame fun f => { f with unfinished := rest }
        return script := by
  cases ownScope <;> rfl

theorem openScript_ok :
    openScript ownScope s = .ok u s' ↔ ∃ t,
      (if ownScope then enterScope else pure ()) s = .ok () t ∧
      { t with frame.unfinished := [] :: t.frame.unfinished } = s' := by
  rw [openScript_eq, bind_ok]
  constructor
  · rintro ⟨_, t, henter, hpush⟩
    exact ⟨t, henter, modifyFrame_ok.mp hpush⟩
  · rintro ⟨t, henter, hpush⟩
    exact ⟨(), t, henter, modifyFrame_ok.mpr hpush⟩

theorem closeScript_ok :
    closeScript ownScope s = .ok blocks s' ↔ ∃ t rest,
      (if ownScope then exitScope else pure ()) s = .ok () t ∧
      t.frame.unfinished = blocks :: rest ∧ { t with frame.unfinished := rest } = s' := by
  rw [closeScript_eq, bind_ok]
  constructor
  · rintro ⟨_, t, hexit, hclose⟩
    rw [get_bind_ok] at hclose
    cases hunfinished : t.frame.unfinished with
    | nil =>
      simp only [hunfinished] at hclose
      cases hclose
    | cons script rest =>
      simp only [hunfinished] at hclose
      obtain ⟨_, t', hpop, hclose⟩ := bind_ok.mp hclose
      obtain ⟨rfl, rfl⟩ := pure_ok.mp hclose
      exact ⟨t, rest, hexit, hunfinished, modifyFrame_ok.mp hpop⟩
  · rintro ⟨t, rest, hexit, hunfinished, rfl⟩
    refine ⟨(), t, hexit, ?_⟩
    rw [get_bind_ok]
    simp only [hunfinished]
    exact bind_ok.mpr ⟨(), _, modifyFrame_ok.mpr rfl, pure_ok.mpr ⟨rfl, rfl⟩⟩

/-- A script of its own: a scope is opened if asked for, the step writes its blocks, and the
scope is closed again. -/
theorem inScript_ok :
    inScript ownScope step s = .ok blocks s' ↔ ∃ t t₁ t₂ rest,
      (if ownScope then enterScope else pure ()) s = .ok () t ∧
      step { t with frame.unfinished := [] :: t.frame.unfinished } = .ok () t₁ ∧
      (if ownScope then exitScope else pure ()) t₁ = .ok () t₂ ∧
      t₂.frame.unfinished = blocks :: rest ∧ { t₂ with frame.unfinished := rest } = s' := by
  constructor
  · intro h
    obtain ⟨_, t₀, hopen, _, t₁, hstep, hclose⟩ := bind_bind_ok.mp h
    obtain ⟨t, henter, rfl⟩ := openScript_ok.mp hopen
    obtain ⟨t₂, rest, hexit, hunfinished, rfl⟩ := closeScript_ok.mp hclose
    exact ⟨t, t₁, t₂, rest, henter, hstep, hexit, hunfinished, rfl⟩
  · rintro ⟨t, t₁, t₂, rest, henter, hstep, hexit, hunfinished, rfl⟩
    refine bind_ok.mpr ⟨(), _, openScript_ok.mpr ⟨t, henter, rfl⟩, ?_⟩
    refine bind_ok.mpr ⟨(), t₁, hstep, ?_⟩
    exact closeScript_ok.mpr ⟨t₂, rest, hexit, hunfinished, rfl⟩

theorem expressions_one (h : expressions d [e] s = .ok vs s') :
    ∃ v, expression d e s = .ok v s' ∧ vs = [v] := by
  rw [expressions] at h
  obtain ⟨v, t, he, rest, t', hrest, h⟩ := bind_bind_ok.mp h
  rw [expressions] at hrest
  obtain ⟨rfl, rfl⟩ := pure_ok.mp hrest
  obtain ⟨rfl, rfl⟩ := pure_ok.mp h
  exact ⟨v, he, rfl⟩

theorem expressions_two (h : expressions d [e, e'] s = .ok vs s') :
    ∃ v v' t, expression d e s = .ok v t ∧ expression d e' t = .ok v' s' ∧ vs = [v, v'] := by
  rw [expressions] at h
  obtain ⟨v, t, he, rest, t', hrest, h⟩ := bind_bind_ok.mp h
  obtain ⟨v', he', rfl⟩ := expressions_one hrest
  obtain ⟨rfl, rfl⟩ := pure_ok.mp h
  exact ⟨v, v', t, he, he', rfl⟩

theorem condition_ok (h : condition e s = .ok v s') : expression .script e s = .ok v s' := by
  obtain ⟨w, t, hvalue, _, t', hrequire, h⟩ := bind_bind_ok.mp h
  obtain ⟨rfl, rfl⟩ := pure_ok.mp h
  obtain rfl := Within.require (R := Eq) _ _ _ _ _ _ hrequire
  exact hvalue

/-- A variable that is no list is set by one block. -/
theorem assign_ok (htype : d.type ≠ .typed .ofList) (h : assign d v s = .ok u s') :
    emit (.op .setVariable [.data d, v]) s = .ok () s' := by
  obtain ⟨_, hcheck, h⟩ := (readOnly_checkAssignment).bind_ok h
  rw [if_neg (by simpa using htype)] at h
  exact h

theorem readOnly_requireMutable (d : Data) : ReadOnly (requireMutable d) := by
  unfold requireMutable
  split
  · exact .reject _
  · exact .pure _

theorem gives_requireMutable (d : Data) :
    Gives (fun _ => d.constant = false) (requireMutable d) := by
  unfold requireMutable
  split
  · exact .reject
  · rename_i hconstant
    exact .pure (Bool.eq_false_iff.mpr hconstant)

theorem variableNamed_ok (h : variableNamed name s = .ok d s') :
    find? (.ofName name) s = .ok (some d) s ∧ s = s' := by
  obtain ⟨found, hfind, h⟩ := (readOnly_find? _).bind_ok h
  cases found with
  | none => cases h
  | some data =>
    obtain ⟨rfl, rfl⟩ := pure_ok.mp h
    exact ⟨hfind, rfl⟩

section

theorem statement_declare {target : Expr}
    (h : statement (.declare pos target type start constant) s = .ok () s') :
    ∃ t, Quiet s t ∧ declareVariable target type start constant t = .ok () s' := by
  rw [statement] at h
  obtain ⟨_, t, hmove, h⟩ := bind_ok.mp h
  exact ⟨t, quiet_moveTo hmove, h⟩

theorem statement_assign (h : statement (.assign pos (.name namePos name) value) s = .ok () s') :
    ∃ t t' v d, Quiet s t ∧ expression .script value t = .ok v t' ∧
      find? (.ofName name) t' = .ok (some d) t' ∧ assign d v t' = .ok () s' := by
  rw [statement] at h
  obtain ⟨_, t₁, hmove, h⟩ := bind_ok.mp h
  obtain ⟨p, -, h⟩ := ofExcept_bind_ok.mp h
  obtain ⟨_, t₃, hmove', v, t₄, hvalue, h⟩ := bind_bind_ok.mp h
  obtain ⟨own, hname, h⟩ := ofExcept_bind_ok.mp h
  obtain rfl : name = own := Except.ok.inj hname
  obtain ⟨found, hfind, h⟩ := (readOnly_find? _).bind_ok h
  cases found with
  | none => cases h
  | some d =>
    obtain ⟨_, hmutable, h⟩ := (readOnly_requireMutable _).bind_ok h
    exact ⟨t₃, t₄, v, d, (quiet_moveTo hmove).trans (quiet_moveTo hmove'), hvalue, hfind, h⟩

theorem statement_update (h : statement (.update pos op (.name namePos name) value) s = .ok () s') :
    ∃ t t' v d w, Quiet s t ∧ expression .script value t = .ok v t' ∧
      find? (.ofName name) t' = .ok (some d) t' ∧ op.apply (.data d) v = .ok w ∧
      emit (.op .setVariable [.data d, w]) t' = .ok () s' := by
  rw [statement] at h
  obtain ⟨_, t₁, hmove, v, t₂, hvalue, h⟩ := bind_bind_ok.mp h
  obtain ⟨d, t₃, hnamed, h⟩ := bind_ok.mp h
  obtain ⟨hfind, rfl⟩ := variableNamed_ok hnamed
  obtain ⟨_, hmutable, h⟩ := (readOnly_requireMutable _).bind_ok h
  obtain ⟨w, hw, h⟩ := ofExcept_bind_ok.mp h
  obtain ⟨_, hcheck, h⟩ := (readOnly_checkAssignment).bind_ok h
  exact ⟨t₁, t₂, v, d, w, quiet_moveTo hmove, hvalue, hfind, hw, h⟩

theorem statement_ifThen (h : statement (.ifThen pos c body) s = .ok () s') :
    ∃ t t₁ t₂ v inner, Quiet s t ∧ condition c t = .ok v t₁ ∧
      inScript true (statements body) t₁ = .ok inner t₂ ∧
      emit (.op .ifThen (v :: inner)) t₂ = .ok () s' := by
  rw [statement] at h
  obtain ⟨_, t, hmove, v, t₁, hc, h⟩ := bind_bind_ok.mp h
  obtain ⟨inner, t₂, hbody, h⟩ := bind_ok.mp h
  exact ⟨t, t₁, t₂, v, inner, quiet_moveTo hmove, hc, hbody, h⟩

theorem statement_ifElse (h : statement (.ifElse pos c body alternative) s = .ok () s') :
    ∃ t t₁ t₂ t₃ v inner inner', Quiet s t ∧ condition c t = .ok v t₁ ∧
      inScript true (statements body) t₁ = .ok inner t₂ ∧
      inScript true (statements alternative) t₂ = .ok inner' t₃ ∧
      emit (.block .ifThen (v :: inner) none (some inner')) t₃ = .ok () s' := by
  rw [statement] at h
  obtain ⟨_, t, hmove, v, t₁, hc, h⟩ := bind_bind_ok.mp h
  obtain ⟨inner, t₂, hbody, inner', t₃, halternative, h⟩ := bind_bind_ok.mp h
  exact ⟨t, t₁, t₂, t₃, v, inner, inner', quiet_moveTo hmove, hc, hbody, halternative, h⟩

/-- A loop. The body is built before the condition, and a condition that always holds is not
built at all. -/
theorem statement_whileLoop (h : statement (.whileLoop pos c body) s = .ok () s') :
    ∃ t t₁ inner, Quiet s t ∧ inScript true (statements body) t = .ok inner t₁ ∧
      (c = .truth true ∧ emit (.op .forever inner) t₁ = .ok () s' ∨
        c ≠ .truth true ∧ ∃ t₂ v w, condition c t₁ = .ok v t₂ ∧ v.logicalNot = .ok w ∧
          emit (.op .repeatUntil (w :: inner)) t₂ = .ok () s') := by
  rw [statement] at h
  obtain ⟨_, t, hmove, inner, t₁, hbody, h⟩ := bind_bind_ok.mp h
  refine ⟨t, t₁, inner, quiet_moveTo hmove, hbody, ?_⟩
  split at h
  · exact .inl ⟨rfl, h⟩
  · rename_i hother
    obtain ⟨v, t₂, hc, _, t₃, hscript, h⟩ := bind_bind_ok.mp h
    obtain ⟨-, rfl⟩ := requireScript_ok.mp hscript
    obtain ⟨w, hw, h⟩ := ofExcept_bind_ok.mp h
    exact .inr ⟨hother, t₂, v, w, hc, hw, h⟩

theorem statement_giveBack_none (h : statement (.giveBack pos none) s = .ok () s') :
    ∃ t, Quiet s t ∧ emit (.op .stop [.str "this_script"]) t = .ok () s' := by
  rw [statement] at h
  obtain ⟨_, t, hmove, h⟩ := bind_ok.mp h
  rw [giveBack, get_bind_ok] at h
  exact ⟨t, quiet_moveTo hmove, h⟩

end

end BlockScript.Build
