import BlockScript.Proofs.Changes

/-!
Entering scopes, leaving them and declaring variables. Each of these steps is described
once, by what it does to the scopes and to the table of the target being built.
-/
namespace BlockScript.Build

variable {name : String} {constant : Bool}

theorem enterScope_ok :
    enterScope s = .ok u s' ↔
      { s with
        frame.lastScope := s.frame.lastScope + 1
        frame.scopes := (s.frame.lastScope + 1) :: s.frame.scopes
        frame.currentScope := s.frame.lastScope + 1 } = s' := modifyFrame_ok

/-- A scope can be left while another one is open around it. -/
theorem exitScope_ok :
    exitScope s = .ok u s' ↔ ∃ inner outer rest, s.frame.scopes = inner :: outer :: rest ∧
      { s with frame.scopes := outer :: rest, frame.currentScope := outer } = s' := by
  rw [exitScope, get_bind_ok]
  rcases hscopes : s.frame.scopes with _ | ⟨inner, _ | ⟨outer, rest⟩⟩
  · simp [fault_ok]
  · simp only [bind_ok, fault_ok, and_false, exists_false, List.cons.injEq, reduceCtorEq, false_and]
  · simp only [List.cons.injEq, modifyFrame_ok]
    constructor
    · intro h
      exact ⟨inner, outer, rest, ⟨rfl, rfl, rfl⟩, h⟩
    · rintro ⟨_, _, _, ⟨rfl, rfl, rfl⟩, h⟩
      exact h

section

variable {d d' : Draft} (hsprites : d'.sprites = d.sprites)
  (hnames : d'.project.sprites.map Target.name = d.project.sprites.map Target.name)

include hsprites hnames

/-- The table of a sprite does not depend on the variables of the stage. -/
theorem locals?_sprite (i : Nat) : d'.locals? (.sprite i) = d.locals? (.sprite i) := by
  have hname := congrArg (fun names => names[i]?) hnames
  simp only [List.getElem?_map] at hname
  simp only [Draft.locals?, hsprites]
  cases hold : d.project.sprites[i]? with
  | none =>
    simp only [hold, Option.map_none, Option.map_eq_none_iff] at hname
    simp [hname]
  | some target =>
    simp only [hold, Option.map_some, Option.map_eq_some_iff] at hname
    obtain ⟨target', hnew, hsame⟩ := hname
    simp [hnew, hsame]

/-- The variables of a target depend on the names of the sprites and on the tables. -/
theorem locals?_congr (hstage : d'.stageLocals = d.stageLocals) (place : Place) :
    d'.locals? place = d.locals? place := by
  cases place with
  | stage => simp [Draft.locals?, hstage]
  | sprite i => exact locals?_sprite hsprites hnames i

end

theorem Keeps.locals (h : Keeps s s') (place : Place) :
    s'.draft.locals? place = s.draft.locals? place :=
  locals?_congr h.sprites h.names h.stageLocals place

/-- All that names depend on: the tables and the scopes. -/
def bindings (s : BuildState) :
    Option (Assoc String Data) × Assoc String Data × Place × Nat × List Nat × Nat :=
  (s.draft.locals? s.frame.place, s.draft.globals, s.frame.place, s.frame.lastScope,
    s.frame.scopes, s.frame.currentScope)

theorem Keeps.bindings (h : Keeps s s') : bindings s' = bindings s := by
  simp only [Build.bindings, h.locals, h.globals, h.place, h.lastScope, h.scopes, h.currentScope]

/-- The variables of targets stand in two places of a draft. -/
theorem Draft.setLocals_eq (d : Draft) (place : Place) (locals : Assoc String Data) :
    d.setLocals place locals = { d with
      sprites := (d.setLocals place locals).sprites
      stageLocals := (d.setLocals place locals).stageLocals } := by
  cases place with
  | stage => rfl
  | sprite i =>
    simp only [Draft.setLocals]
    split
    · split <;> rfl
    · rfl

theorem locals?_setLocals {d : Draft} {place : Place} {old : Assoc String Data}
    (h : d.locals? place = some old) (new : Assoc String Data) :
    (d.setLocals place new).locals? place = some new := by
  cases place with
  | stage => rfl
  | sprite i =>
    simp only [Draft.locals?] at h
    obtain ⟨target, htarget, h⟩ := Option.bind_eq_some_iff.mp h
    obtain ⟨entry, hentry, -⟩ := Option.bind_eq_some_iff.mp h
    simp [Draft.setLocals, Draft.locals?, htarget, hentry, Assoc.get?_put_self]

/-- The variable that a declaration creates. -/
def declaredData (sprite : Bool) (scope : Nat) (name : String) (type : TypeSet)
    (constant : Bool) : Data :=
  ⟨fullName sprite scope name, DataType.typed type == .typed .ofList, .typed type, constant⟩

theorem debug_ok (h : debug text s = .ok u s') :
    s'.draft = s.draft ∧ s'.frame = s.frame ∧ s'.constants = s.constants := by
  rw [debug, log, get_bind_ok] at h
  obtain ⟨line, -, h⟩ := ofExcept_bind_ok.mp h
  cases line with
  | some text =>
    rw [modify_ok] at h
    subst h
    exact ⟨rfl, rfl, rfl⟩
  | none =>
    obtain ⟨-, rfl⟩ := pure_ok.mp h
    exact ⟨rfl, rfl, rfl⟩

/-- The variables of a target do not depend on what else the targets have. -/
theorem locals?_modify (d : Draft) (place other : Place) {f : Target → Target}
    (hf : ∀ target, (f target).name = target.name) :
    { d with project := d.project.modify place f }.locals? other = d.locals? other :=
  locals?_congr (by rfl) (names_modify d.project place f hf) (by rfl) other

/-- A variable is filed among the globals, or in the table of its target. -/
theorem addData_ok {type : DataType} (h : addData place name type value constant s = .ok d s') :
    d = ⟨name, type == .typed .ofList, type, constant⟩ ∧ s'.frame = s.frame ∧
      (isGlobalName name = true ∧ s'.draft = { s.draft with
          project := s.draft.project.modify place (·.addDatum ⟨d, value⟩)
          globals := Assoc.put name d s.draft.globals } ∨
        isGlobalName name = false ∧ ∃ locals, s.draft.locals? place = some locals ∧
          s'.draft = { s.draft with
            project := s.draft.project.modify place (·.addDatum ⟨d, value⟩) }.setLocals place
              (Assoc.put name d locals)) := by
  obtain ⟨_, t, htarget, h⟩ := bind_ok.mp h
  obtain rfl := modifyTarget_ok.mp htarget
  cases hkind : isGlobalName name with
  | true =>
    rw [if_pos hkind] at h
    have h := modifyDraft_bind_ok.mp h
    obtain ⟨_, t, hlog, h⟩ := bind_ok.mp h
    obtain ⟨hdraft, hframe, -⟩ := debug_ok hlog
    obtain ⟨rfl, rfl⟩ := pure_ok.mp h
    exact ⟨rfl, hframe, .inl ⟨rfl, hdraft⟩⟩
  | false =>
    have hsame := locals?_modify s.draft place place
      (f := (·.addDatum ⟨⟨name, type == .typed .ofList, type, constant⟩, value⟩)) fun _ => rfl
    rw [if_neg (Bool.eq_false_iff.mp hkind)] at h
    simp only [get_bind_ok, hsame] at h
    cases hlocals : s.draft.locals? place with
    | none =>
      simp only [hlocals] at h
      obtain ⟨_, _, hfault, -⟩ := bind_ok.mp h
      cases hfault
    | some locals =>
      simp only [hlocals] at h
      have h := modifyDraft_bind_ok.mp h
      obtain ⟨_, t, hlog, h⟩ := bind_ok.mp h
      obtain ⟨hdraft, hframe, -⟩ := debug_ok hlog
      obtain ⟨rfl, rfl⟩ := pure_ok.mp h
      exact ⟨rfl, hframe, .inr ⟨rfl, locals, rfl, hdraft⟩⟩

/-- Adding a variable puts it into the table of the target under its full name. -/
theorem addVariable_ok {type : TypeSet} {value : Value}
    (h : addVariable name type value constant s = .ok d s') :
    d = declaredData s.frame.place.isSprite s.frame.currentScope name type constant ∧
      s'.frame = s.frame ∧ s'.draft.globals = s.draft.globals ∧
      s'.draft.project.sprites.map Target.name = s.draft.project.sprites.map Target.name ∧
      ∃ locals, s.draft.locals? s.frame.place = some locals ∧
        s'.draft.locals? s.frame.place = some (Assoc.put d.name d locals) := by
  rw [addVariable, get_bind_ok] at h
  obtain ⟨rfl, hframe, ⟨hglobal, -⟩ | ⟨-, locals, hlocals, hdraft⟩⟩ := addData_ok h
  · rw [isGlobalName_fullName] at hglobal
    cases hglobal
  · have hnew := @locals?_modify s.draft s.frame.place s.frame.place (·.addDatum
      ⟨declaredData s.frame.place.isSprite s.frame.currentScope name type constant, value⟩)
      fun _ => rfl
    refine ⟨rfl, hframe, ?_, ?_, locals, hlocals, ?_⟩
    · rw [hdraft, Draft.setLocals_eq]
    · rw [hdraft, Draft.setLocals_eq]
      exact names_modify _ _ _ fun _ => rfl
    · rw [hdraft]
      exact locals?_setLocals (hnew.trans hlocals) _

theorem readOnly_checkAssignment : ReadOnly (checkAssignment type v) := by
  refine .bind (.ofExcept _) fun valueType => .bind (.ofExcept _) fun found => ?_
  split
  · exact .reject _
  · exact .pure _

/-- All blocks that change just some variables have a property. -/
def Allows (W : Value → Prop) (changed : List Data) : Prop :=
  ∀ block : Value, block.changes = changed → W block

theorem Emitting.assign
    [IsPreorder BuildState R] (h : Emitting W R) (hW : Allows W [d]) (v : Value) :
    Within R (assign d v) := by
  refine .bind (.of_readOnly readOnly_checkAssignment) fun _ => ?_
  split
  · refine .bind (h.emit (hW _ rfl)) fun _ => ?_
    split
    · refine h.emitAll _ fun block hblock => ?_
      obtain ⟨item, -, rfl⟩ := List.mem_map.mp hblock
      exact hW _ rfl
    · exact .fault _
  · exact h.emit (hW _ rfl)

theorem keeps_assign : Within Keeps (assign d v) :=
  writing_keeps.emitting.assign (fun _ _ => trivial) v

theorem requireUnused_ok {target : Expr} :
    requireUnused target s = .ok name s' ↔
      target.plainName = .ok name ∧ find? (.ofName name) s = .ok none s' := by
  constructor
  · intro h
    obtain ⟨own, hname, h⟩ := ofExcept_bind_ok.mp h
    obtain ⟨found, t, h₂, h⟩ := bind_ok.mp h
    cases found with
    | some d =>
      obtain ⟨_, _, h₃, -⟩ := bind_ok.mp h
      exact (reject_ok.mp h₃).elim
    | none =>
      obtain ⟨rfl, rfl⟩ := pure_ok.mp h
      exact ⟨hname, h₂⟩
  · rintro ⟨hname, hfind⟩
    refine bind_ok.mpr ⟨name, s, ofExcept_ok.mpr ⟨hname, rfl⟩, ?_⟩
    exact bind_ok.mpr ⟨none, s', hfind, pure_ok.mpr ⟨rfl, rfl⟩⟩

/-- A declaration asks for an unused name, translates the value, and only then creates the
variable and assigns to it. -/
theorem declareVariable_ok {target : Expr}
    (h : declareVariable target type value constant s = .ok u s') :
    ∃ name e start v d t t', target.plainName = .ok name ∧ find? (.ofName name) s = .ok none s ∧
      value.or (startValue? type) = some e ∧ startValue? type = some start ∧
      expression .script e s = .ok v t ∧
      addVariable name type (storedValue start) constant t = .ok d t' ∧
      assign d v t' = .ok () s' := by
  obtain ⟨name, t₀, h₀, h⟩ := bind_ok.mp h
  obtain ⟨hname, hfind⟩ := requireUnused_ok.mp h₀
  obtain rfl := readOnly_find? _ _ _ _ hfind
  cases hvalue : value.or (startValue? type) with
  | none =>
    simp only [hvalue] at h
    cases h
  | some e =>
    simp only [hvalue] at h
    obtain ⟨v, t, h₁, h⟩ := bind_ok.mp h
    cases hstart : startValue? type with
    | none =>
      simp only [hstart] at h
      cases h
    | some start =>
      simp only [hstart] at h
      obtain ⟨d, t', h₂, h₃⟩ := bind_ok.mp h
      exact ⟨name, e, start, v, d, t, t', hname, hfind, rfl, rfl, h₁, h₂, h₃⟩

end BlockScript.Build
