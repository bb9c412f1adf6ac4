import BlockScript.Build.Project
import BlockScript.Proofs.Bodies
import BlockScript.Proofs.ParsedScripts

/-!
What becomes of the statements at the top level of a script. Building statements adds no
custom block and no script to a target, and inside a scope it adds no variable of the whole
target. So the blocks and scripts of a target are those of its functions and hats, one for
each, and a variable at the top level of a script leaves nothing behind.
-/
namespace BlockScript

theorem Project.target?_modify (p : Project) (place other : Place) (f : Target → Target) :
    (p.modify place f).target? other =
      if other = place then (p.target? place).map f else p.target? other := by
  cases place with
  | stage => cases other <;> rfl
  | sprite i =>
    cases other with
    | stage => rfl
    | sprite j =>
      simp only [Project.modify, Project.target?, List.getElem?_modify, Place.sprite.injEq]
      by_cases hij : j = i
      · simp [hij]
      · simp [hij, Ne.symm hij]

/-- What a target has by building functions and hats. -/
def Target.made (t : Target) : List CustomBlock × List (List Value) := (t.custom, t.scripts)

namespace Build

open Text Grammar

variable {s s' : BuildState}

/-- What building statements leaves alone: the custom blocks and the scripts of all targets,
and the scripts that are complete. -/
structure Spares (s s' : BuildState) : Prop where
  place : s'.frame.place = s.frame.place
  targets : ∀ place, (s'.draft.project.target? place).map Target.made =
    (s.draft.project.target? place).map Target.made
  pending : ∃ more, s'.frame.pending = s.frame.pending ++ more

instance : IsPreorder BuildState Spares where
  refl s := ⟨rfl, fun _ => rfl, [], by simp⟩
  trans a b c h k := by
    obtain ⟨first, h₁⟩ := h.pending
    obtain ⟨second, h₂⟩ := k.pending
    exact ⟨k.place.trans h.place, fun place => (k.targets place).trans (h.targets place),
      first ++ second, by rw [h₂, h₁, List.append_assoc]⟩

section

theorem Spares.of_same (hproject : s'.draft.project = s.draft.project)
    (hplace : s'.frame.place = s.frame.place) (hpending : s'.frame.pending = s.frame.pending) :
    Spares s s' :=
  ⟨hplace, fun place => by rw [hproject], [], by simpa using hpending⟩

theorem made_modify {p : Project} {f : Target → Target} (hf : ∀ t, (f t).made = t.made) :
    ((p.modify place f).target? other).map Target.made = (p.target? other).map Target.made := by
  rw [Project.target?_modify]
  split
  · rename_i hsame
    subst hsame
    cases p.target? other with
    | none => rfl
    | some t => exact congrArg some (hf t)
  · rfl

/-- The target that is changed. -/
theorem made_modify_self {p : Project} {f : Target → Target}
    {g : List CustomBlock × List (List Value) → List CustomBlock × List (List Value)}
    (hf : ∀ t, (f t).made = g t.made) :
    ((p.modify place f).target? place).map Target.made =
      ((p.target? place).map Target.made).map g := by
  rw [Project.target?_modify, if_pos rfl]
  cases p.target? place with
  | none => rfl
  | some t => exact congrArg some (hf t)

theorem spares_addData : Within Spares (addData place name type value constant) := by
  intro s d s' h
  obtain ⟨-, hframe, hdraft⟩ := addData_ok h
  have hproject : s'.draft.project =
      s.draft.project.modify place (·.addDatum ⟨d, value⟩) := by
    rcases hdraft with ⟨-, hdraft⟩ | ⟨-, locals, -, hdraft⟩
    · rw [hdraft]
    · rw [hdraft, Draft.setLocals_eq]
  refine ⟨by rw [hframe], fun other => ?_, [], by simp [hframe]⟩
  rw [hproject]
  exact made_modify fun _ => rfl

theorem spares_addVariable (name : String) (type : TypeSet) (value : Value) (constant : Bool) :
    Within Spares (addVariable name type value constant) :=
  .get_bind fun _ => spares_addData

theorem spares_broadcastNamed (name : Value) : Within Spares (broadcastNamed name) :=
  .broadcastNamed (fun _ => spares_addData) (fun hframe hdraft =>
    .of_same (by rw [hdraft]) (by rw [hframe]) (by rw [hframe])) name

theorem building_spares : Building Spares where
  moveTo p := by
    intro s u s' h
    obtain ⟨-, rfl⟩ := moveTo_ok.mp h
    exact .of_same rfl rfl rfl
  calls _ _ := trivial
  emitAll blocks _ := by
    intro s u s' h
    obtain ⟨-, rfl⟩ := emitAll_ok.mp h
    exact .of_same rfl rfl rfl
  cloneFlag := by
    intro s v s' h
    rcases (cloneFlag_ok h).1 with rfl | ⟨-, rfl⟩
    · exact refl s
    · exact ⟨rfl, fun place => made_modify fun _ => rfl, cloneScripts, rfl⟩
  declare _ h := spares_addVariable _ _ _ _ _ _ _ h
  broadcast := spares_broadcastNamed
  scope := by
    intro _ s t t' s' henter h hexit
    obtain rfl := enterScope_ok.mp henter
    obtain ⟨_, outer, rest, -, rfl⟩ := exitScope_ok.mp hexit
    exact ⟨h.place, h.targets, h.pending⟩
  script h _ := ⟨h.place, h.targets, h.pending⟩
  elsewhere _ _ _ _ := .rfl

end

/-- The variable of a name that belongs to the whole target. -/
def sharedVariable (s : BuildState) (name : String) : Option Data :=
  (s.draft.locals? s.frame.place).bind (Assoc.get? (fullName s.frame.place.isSprite 0 name))

def SharesSame (s s' : BuildState) : Prop := ∀ name, sharedVariable s' name = sharedVariable s name

theorem SharesSame.of_bindings (h : bindings s' = bindings s) : SharesSame s s' := by
  simp only [bindings, Prod.mk.injEq] at h
  intro name
  rw [sharedVariable, h.1, h.2.2.1, sharedVariable]

/-- What leaves the variables of the whole target as they are, in any scope or only in those
other than the outermost one. -/
structure Leaves (inner : Prop) (s s' : BuildState) : Prop where
  scopes : s'.frame.scopes = s.frame.scopes
  consistent : Consistent s → Consistent s'
  shared : Consistent s → (inner → s.frame.currentScope ≠ 0) → SharesSame s s'

variable {inner : Prop}

theorem currentScope_eq (hs : Consistent s) (hs' : Consistent s')
    (hscopes : s'.frame.scopes = s.frame.scopes) :
    s'.frame.currentScope = s.frame.currentScope := by
  have hfirst := hs'.innermost
  rw [hscopes, hs.innermost] at hfirst
  exact (Option.some.inj hfirst).symm

instance : IsPreorder BuildState (Leaves inner) where
  refl s := ⟨rfl, id, fun _ _ _ => rfl⟩
  trans a b c h k := by
    refine ⟨k.scopes.trans h.scopes, fun ha => k.consistent (h.consistent ha), ?_⟩
    intro ha hscope name
    have hb := h.consistent ha
    have hscope' : inner → b.frame.currentScope ≠ 0 := by rwa [currentScope_eq ha hb h.scopes]
    exact (k.shared hb hscope' name).trans (h.shared ha hscope name)

/-- A change that concerns neither the tables nor the scopes. -/
theorem Leaves.of_same (h : bindings s' = bindings s) : Leaves inner s s' :=
  ⟨congrArg (fun b => b.2.2.2.2.1) h, fun hs => hs.congr h, fun _ _ => .of_bindings h⟩

theorem Keeps.leaves (h : Keeps s s') : Leaves inner s s' := .of_same h.bindings

theorem Within.leaves {α : Type} {x : Build α} (h : Within Keeps x) : Within (Leaves inner) x :=
  h.mono fun _ _ => Keeps.leaves

theorem leaves_unfinished {scripts : List (List Value)} :
    Leaves inner s { s with frame.unfinished := scripts } := .of_same rfl

theorem leaves_pending {scripts : List (List Value)} :
    Leaves inner s { s with frame.pending := scripts } := .of_same rfl

/-- What is done inside a new scope. -/
theorem Leaves.inScope (henter : enterScope s = .ok () t) (h : Leaves True t t')
    (hexit : exitScope t' = .ok () s') : Leaves inner s s' := by
  have hconsistent : Consistent s → Consistent s' :=
    fun hs => (h.consistent (hs.enter henter)).exit hexit
  obtain rfl := enterScope_ok.mp henter
  obtain ⟨_, outer, rest, hscopes, rfl⟩ := exitScope_ok.mp hexit
  rw [h.scopes] at hscopes
  exact ⟨(List.cons.inj hscopes).2.symm, hconsistent, fun hs _ name =>
    h.shared (hs.enter henter) (fun _ => Nat.succ_ne_zero _) name⟩

theorem leaves_addVariable : Within (Leaves True) (addVariable name type value constant) := by
  intro s d s' h
  obtain ⟨hd, hframe, -, -, locals, hlocals, hafter⟩ := addVariable_ok h
  refine ⟨by rw [hframe], fun hs => hs.addVariable h, ?_⟩
  intro hs hscope own
  have hname : d.name = fullName s.frame.place.isSprite s.frame.currentScope name := by rw [hd]; rfl
  have hne : fullName s.frame.place.isSprite 0 own ≠ d.name := by
    intro heq
    rw [hname] at heq
    exact hscope trivial (fullName_inj heq).1.symm
  unfold sharedVariable
  rw [hframe, hafter, hlocals]
  exact Assoc.get?_put_of_ne hne _ _

/-- A variable of the stage that is a global or the result of a function. -/
theorem leaves_addData_stage (hname : isGlobalName name = true ∨ isOutputName name = true) :
    Within (Leaves inner) (addData .stage name type value constant) := by
  intro s d s' h
  have hunscoped := hname.imp_right unscoped_of_isOutputName
  obtain ⟨hframe, rfl, hsprites, hnames, htables⟩ := addData_stage_ok h
  refine ⟨by rw [hframe], fun hs => hs.addData_stage hunscoped h, fun hs _ own => ?_⟩
  unfold sharedVariable
  rw [hframe]
  rcases htables with ⟨-, -, hstage⟩ | ⟨hlocal, -, hstage⟩
  · rw [locals?_congr hsprites hnames hstage]
  · have houtput := hname.resolve_left (by rw [hlocal]; decide)
    cases hplace : s.frame.place with
    | stage =>
      have hne : fullName Place.stage.isSprite 0 own ≠ d.name := by
        rintro heq
        rw [← heq, isOutputName_fullName] at houtput
        cases houtput
      simp only [Draft.locals?, hstage, Option.bind_some]
      exact Assoc.get?_put_of_ne hne _ _
    | sprite i => rw [locals?_sprite hsprites hnames]

theorem leaves_broadcastNamed (name : Value) : Within (Leaves inner) (broadcastNamed name) :=
  .broadcastNamed (fun text => leaves_addData_stage (.inl (isGlobalName_message text)))
    (fun hframe hdraft => .of_same (by rw [bindings, hdraft, hframe]; rfl)) name

theorem building_leaves : Building (Leaves True) where
  moveTo p := (keeps_moveTo p).leaves
  emitAll blocks _ := (keeps_emitAll blocks).leaves
  cloneFlag := keeps_cloneFlag.leaves
  calls _ _ := trivial
  declare _ h := leaves_addVariable _ _ _ h
  broadcast := leaves_broadcastNamed
  scope henter h hexit := h.inScope henter hexit
  script h _ := chain leaves_unfinished (chain h leaves_unfinished)
  elsewhere _ _ _ _ := .rfl

section

variable {stmt : Stmt}

theorem spares_addOutput? : Within Spares (addOutput? name returns) :=
  .addOutput? (fun _ _ _ => spares_addData) name returns

theorem leaves_addOutput? : Within (Leaves inner) (addOutput? name returns) :=
  .addOutput? (fun _ _ hname => leaves_addData_stage (.inr hname)) name returns

theorem spares_script : Within Spares (script ownScope body) :=
  building_spares.inScript ownScope (building_spares.statements body)

theorem leaves_inner : Within (Leaves True) (script ownScope body) :=
  building_leaves.inScript ownScope (building_leaves.statements body)

/-- A script in a scope of its own may be built in any scope. -/
theorem leaves_script : Within (Leaves inner) (script true body) := by
  intro s blocks s' h
  obtain ⟨t, t₁, t₂, rest, henter, hbody, hexit, -, rfl⟩ := inScript_ok.mp h
  have hinner := chain leaves_unfinished (building_leaves.statements body _ _ _ hbody)
  exact chain (hinner.inScope henter hexit) leaves_unfinished

/-- The custom block that a function becomes. -/
def IsBlockOf (stmt : Stmt) (block : CustomBlock) : Prop :=
  match stmt with
  | .function _ _ name parameters warp _ =>
    block.label = blockLabel name parameters.length ∧ block.warp = warp ∧ block.script.isSome
  | _ => False

/-- The custom block of a function on a target. Its script starts with a copy of each parameter, in
their order, to the variable of its name in a scope of the function. -/
def Copies (place : Place) (stmt : Stmt) (block : CustomBlock) : Prop :=
  match stmt with
  | .function _ _ name parameters warp _ => ∃ scope blocks, scope ≠ 0 ∧
    block = ⟨blockLabel name parameters.length, warp, some (parameters.zipIdx.map
      (copyOf place.isSprite scope (blockLabel name parameters.length)) ++ blocks)⟩
  | _ => False

theorem Copies.isBlockOf (h : Copies place stmt block) : IsBlockOf stmt block := by
  cases stmt with
  | function =>
    obtain ⟨_, _, -, rfl⟩ := h
    exact ⟨rfl, rfl, rfl⟩
  | _ => exact h

/-- The kind of block that the script of a hat starts with. -/
def hatOpcode? : Expr → Option Opcode
  | .attr pos object name =>
    if name == "on_keyrelease" then some .whenKeyPressed
    else match Builtins.hats.resolve (.attr pos object name) with
      | some (.entry op) => some op
      | _ => none
  | _ => none

/-- A script that a hat starts. -/
def IsScriptOf (stmt : Stmt) (script : List Value) : Prop :=
  match stmt with
  | .hat _ event _ _ => ∃ op arguments rest, hatOpcode? event = some op ∧
      script = .op op arguments :: rest
  | _ => False

/-- What is known of a target while its functions and hats are built. -/
structure Holds (own : Place) (custom : List CustomBlock) (scripts pending : List (List Value))
    (s : BuildState) : Prop where
  place : s.frame.place = own
  target : (s.draft.project.target? own).map Target.made = some (custom, scripts)
  pending : s.frame.pending = pending

theorem modify_length {α : Type} (xs : List α) (x : α) (f : α → α) :
    (xs ++ [x]).modify xs.length f = xs ++ [f x] := by
  simp [List.modify_eq_take_cons_drop]

variable {own : Place} {pending scripts : List (List Value)} {arguments : List Expr}

/-- A function adds its own block and leaves everything else of the target as it is. -/
theorem functionOf_made (ht : Holds own custom scripts pending s)
    (h : functionOf stmt s = .ok () s') : ∃ block more, Copies own stmt block ∧
      Holds own (custom ++ [block]) scripts (pending ++ more) s' := by
  obtain ⟨rfl, htarget, hpending⟩ := ht
  cases stmt with
  | function pos returns name parameters warp body =>
    obtain ⟨t, t₁, t₂, t₃, copies, output, blocks, henter, hcopies, houtput, hbody, hexit⟩ :=
      addFunction_ok h
    have hopen : Spares (withBlock s (blockLabel name parameters.length) warp) t := by
      rw [← enterScope_ok.mp henter]
      exact .of_same rfl rfl rfl
    have hnamed : Spares t₂ (withFunction t₂ name output) := .of_same rfl rfl rfl
    have hcopied : Spares t t₁ :=
      Within.copyParameters (fun _ => spares_addVariable _ _ _ _) _ _ _ _ _ _ hcopies
    have hbuilt : Spares (withBlock s (blockLabel name parameters.length) warp) t₃ :=
      chain hopen (chain hcopied
        (chain (spares_addOutput? _ _ _ houtput)
          (chain hnamed (spares_script _ _ _ hbody))))
    have hempty : (t₃.draft.project.target? s.frame.place).map Target.made =
        some (custom ++ [⟨blockLabel name parameters.length, warp, none⟩], scripts) := by
      rw [hbuilt.targets, withBlock, made_modify_self
        (g := fun m => (m.1 ++ [⟨blockLabel name parameters.length, warp, none⟩], m.2)) fun _ => rfl,
        htarget]
      rfl
    have hcount : blockCount s s.frame.place = custom.length := by
      obtain ⟨target, htarget, hmade⟩ := Option.map_eq_some_iff.mp htarget
      rw [blockCount, htarget]
      exact congrArg (fun m => m.1.length) hmade
    obtain ⟨more, hmore⟩ := hbuilt.pending
    obtain ⟨_, outer, rest, -, rfl⟩ := exitScope_ok.mp hexit
    refine ⟨⟨blockLabel name parameters.length, warp, some (copies ++ blocks)⟩, more,
      ⟨s.frame.lastScope + 1, blocks, Nat.succ_ne_zero _, ?_⟩, hbuilt.place, ?_,
      hmore.trans (by rw [← hpending]; rfl)⟩
    · rw [copyParameters_eq hcopies, ← enterScope_ok.mp henter]
      rfl
    simp only [withScript, hbuilt.place]
    rw [made_modify_self (g := fun m => (m.1.modify custom.length fun c =>
      { c with script := some (copies ++ blocks) }, m.2)), hempty, Option.map_some, modify_length]
    rw [hcount]
    exact fun _ => rfl
  | _ => cases h

theorem leaves_functionOf (stmt : Stmt) : Within (Leaves inner) (functionOf stmt) := by
  intro s u s' h
  cases stmt with
  | function pos returns name parameters warp body =>
    obtain ⟨t, t₁, t₂, t₃, copies, output, blocks, henter, hcopies, houtput, hbody, hexit⟩ :=
      addFunction_ok h
    have hblock : Leaves inner s (withBlock s (blockLabel name parameters.length) warp) :=
      .of_same (congrArg (·, _) (locals?_withBlock _ _ _ _))
    have hnamed : Leaves True t₂ (withFunction t₂ name output) := .of_same rfl
    have hscript : Leaves True t₃ (withScript t₃ s.frame.place (blockCount s s.frame.place)
        (copies ++ blocks) name
        ⟨output, some ⟨blockLabel name parameters.length, parameters.length⟩⟩) :=
      .of_same (congrArg (·, _) locals?_withScript)
    have hcopied : Leaves True t t₁ :=
      Within.copyParameters (fun _ => leaves_addVariable) _ _ _ _ _ _ hcopies
    have hinner := chain hcopied
      (chain (leaves_addOutput? _ _ _ houtput)
        (chain hnamed (chain (leaves_inner _ _ _ hbody) hscript)))
    exact chain hblock (hinner.inScope henter hexit)
  | _ => cases h

/-- What the building of a hat does besides adding its script at the end. -/
structure AddsScript (op : Opcode) (s s' : BuildState) : Prop where
  leaves : Leaves False s s'
  place : s'.frame.place = s.frame.place
  targets : ∀ place, (s'.draft.project.target? place).map Target.made =
    (s.draft.project.target? place).map Target.made
  pending : ∃ more arguments rest,
    s'.frame.pending = s.frame.pending ++ (more ++ [.op op arguments :: rest])

/-- A script that is built after its hat has been prepared. -/
theorem addsScript_of_script {op : Opcode} {values blocks rest : List Value} {t t₁ : BuildState}
    (hkeeps : Keeps s t) (hspares : Spares s t) (hbody : script true body t = .ok blocks t₁) :
    AddsScript op s { t₁ with frame.pending := t₁.frame.pending ++ [.op op values :: rest] } := by
  have hleaves : Leaves False s t₁ := chain hkeeps.leaves (leaves_script _ _ _ hbody)
  have hspares := chain hspares (spares_script _ _ _ hbody)
  obtain ⟨more, hmore⟩ := hspares.pending
  refine ⟨chain hleaves leaves_pending, hspares.place, hspares.targets, more, values, rest, ?_⟩
  change t₁.frame.pending ++ _ = _
  rw [hmore, List.append_assoc]

theorem addPlainHat_adds {op : Opcode}
    (h : addPlainHat op arguments body s = .ok () s') : AddsScript op s s' := by
  obtain ⟨values, t, t₁, blocks, hvalues, hbody, rfl⟩ := addPlainHat_ok h
  exact addsScript_of_script (keeps_expressions _ _ _ hvalues)
    (building_spares.expressions _ _ _ _ _ hvalues) hbody

theorem addKeyRelease_adds
    (h : addKeyRelease arguments body s = .ok () s') : AddsScript .whenKeyPressed s s' := by
  obtain ⟨key, rest, v, t, t₁, blocks, -, hkey, hbody, rfl⟩ := addKeyRelease_ok h
  exact addsScript_of_script (keeps_expression _ _ _ _ _ hkey)
    (building_spares.expression _ _ _ _ _ hkey) hbody

theorem addReceiver_adds
    (h : addReceiver arguments body s = .ok () s') : AddsScript .whenBroadcastReceived s s' := by
  obtain ⟨written, rest, message, name, t, t₁, t₂, t₃, b, setter, blocks, -, -, -, hbroadcast,
    henter, hsetter, hbody, hexit⟩ := addReceiver_ok h
  have hreceived : Leaves True t₁ t₂ :=
    Within.receiveMessage (fun _ => leaves_addVariable) _ _ _ _ _ hsetter
  have hinner := chain hreceived (leaves_inner _ _ _ hbody)
  have hleaves : Leaves False s s' := chain (leaves_broadcastNamed _ _ _ _ hbroadcast)
    (.inScope henter (chain hinner leaves_pending) hexit)
  have hopen : Spares t t₁ := by
    rw [← enterScope_ok.mp henter]
    exact .of_same rfl rfl rfl
  have hspares := chain (spares_broadcastNamed _ _ _ _ hbroadcast)
    (chain hopen (chain
      (Within.receiveMessage (fun _ => spares_addVariable _ _ _ _) _ _ _ _ _ hsetter)
      (spares_script _ _ _ hbody)))
  obtain ⟨_, outer, scopes, -, rfl⟩ := exitScope_ok.mp hexit
  obtain ⟨more, hmore⟩ := hspares.pending
  refine ⟨hleaves, hspares.place, hspares.targets, more, [.broadcast b.name], setter ++ blocks, ?_⟩
  change t₃.frame.pending ++ _ = _
  rw [hmore, List.append_assoc]
  rfl

theorem addHat_adds (h : addHat event arguments body s = .ok () s') :
    ∃ op, hatOpcode? event = some op ∧ AddsScript op s s' := by
  cases event with
  | attr pos object name =>
    rw [addHat] at h
    by_cases hname : (name == "on_keyrelease") = true
    · rw [if_pos hname] at h
      exact ⟨_, by rw [hatOpcode?, if_pos hname], addKeyRelease_adds h⟩
    · rw [if_neg hname] at h
      rw [hatOpcode?, if_neg hname]
      generalize Builtins.hats.resolve (.attr pos object name) = found at h ⊢
      split at h
      · exact ⟨_, rfl, addReceiver_adds h⟩
      · exact ⟨_, rfl, addPlainHat_adds h⟩
      · cases h
  | _ => cases h

/-- A hat adds its own script to those that are complete, after those for clones that it
makes necessary. -/
theorem hatOf_made (ht : Holds own custom scripts pending s) (h : hatOf stmt s = .ok () s') :
    ∃ more script, IsScriptOf stmt script ∧
      Holds own custom scripts (pending ++ (more ++ [script])) s' := by
  cases stmt with
  | hat pos event arguments body =>
    obtain ⟨_, t, hmove, h⟩ := bind_ok.mp h
    obtain ⟨-, rfl⟩ := moveTo_ok.mp hmove
    obtain ⟨op, hop, hadds⟩ := addHat_adds h
    obtain ⟨more, values, rest, hpending⟩ := hadds.pending
    exact ⟨more, _, ⟨op, values, rest, hop, rfl⟩, hadds.place.trans ht.place,
      (hadds.targets own).trans ht.target, by rw [hpending, ← ht.pending]⟩
  | malformed pos part f =>
    obtain ⟨_, t, -, h⟩ := bind_ok.mp h
    cases h
  | _ => cases h

theorem leaves_hatOf (stmt : Stmt) : Within (Leaves False) (hatOf stmt) := by
  intro s u s' h
  cases stmt with
  | hat pos event arguments body =>
    obtain ⟨_, t, hmove, h⟩ := bind_ok.mp h
    obtain ⟨op, -, hadds⟩ := addHat_adds h
    exact chain (keeps_moveTo _ _ _ _ hmove).leaves hadds.leaves
  | malformed pos part f =>
    obtain ⟨_, t, -, h⟩ := bind_ok.mp h
    cases h
  | _ => cases h

/-- The functions of a target become its custom blocks, one for each, in their order. -/
theorem functions_made (ht : Holds own custom scripts pending s)
    (h : (stmts.forM functionOf : Build Unit) s = .ok () s') :
    ∃ blocks more, List.Forall₂ (Copies own) stmts blocks ∧
      Holds own (custom ++ blocks) scripts (pending ++ more) s' := by
  induction stmts generalizing s custom pending with
  | nil =>
    obtain ⟨-, rfl⟩ := pure_ok.mp h
    exact ⟨[], [], .nil, by simpa using ht⟩
  | cons stmt rest ih =>
    obtain ⟨t, hfirst, hrest⟩ := forM_cons_ok.mp h
    obtain ⟨block, more, hblock, ht'⟩ := functionOf_made ht hfirst
    obtain ⟨blocks, more', hblocks, ht''⟩ := ih ht' hrest
    exact ⟨block :: blocks, more ++ more', .cons hblock hblocks, by simpa using ht''⟩

/-- The hats of a target become scripts, one for each, in their order. -/
theorem hats_made (ht : Holds own custom scripts pending s)
    (h : (stmts.forM hatOf : Build Unit) s = .ok () s') :
    ∃ added made, List.Forall₂ IsScriptOf stmts made ∧ made.Sublist added ∧
      Holds own custom scripts (pending ++ added) s' := by
  induction stmts generalizing s pending with
  | nil =>
    obtain ⟨-, rfl⟩ := pure_ok.mp h
    exact ⟨[], [], .nil, .slnil, by simpa using ht⟩
  | cons stmt rest ih =>
    obtain ⟨t, hfirst, hrest⟩ := forM_cons_ok.mp h
    obtain ⟨more, script, hscript, ht'⟩ := hatOf_made ht hfirst
    obtain ⟨added, made, hmade, hsublist, ht''⟩ := ih ht' hrest
    refine ⟨more ++ script :: added, script :: made, .cons hscript hmade, ?_, ?_⟩
    · exact (hsublist.cons_cons script).trans (List.sublist_append_right _ _)
    · simpa using ht''

/-- The complete scripts are added to the target at the end. -/
theorem scripts_added (ht : Holds own custom old pending s)
    (h : (scripts.forM (fun script => modifyTarget own (·.addScript script)) : Build Unit) s
      = .ok () s') : Holds own custom (old ++ scripts) pending s' := by
  induction scripts generalizing s old with
  | nil =>
    obtain ⟨-, rfl⟩ := pure_ok.mp h
    simpa using ht
  | cons script rest ih =>
    obtain ⟨t, hfirst, hrest⟩ := forM_cons_ok.mp h
    have ht' : Holds own custom (old ++ [script]) pending t := by
      obtain rfl := modifyTarget_ok.mp hfirst
      refine ⟨ht.place, ?_, ht.pending⟩
      rw [made_modify_self (g := fun m => (m.1, m.2 ++ [script])) fun _ => rfl, ht.target]
      rfl
    simpa using ih ht' hrest

end

section

variable {body : List Stmt}

theorem quiet_debug (h : debug text s = .ok u s') : Quiet s s' := by
  obtain ⟨hdraft, hframe, -⟩ := debug_ok h
  exact ⟨hdraft, hframe⟩

theorem checkParts_isTop (h : ∀ stmt ∈ body, stmt.isTop = true) : checkParts body = pure () := by
  induction body with
  | nil => rfl
  | cons stmt rest ih =>
    obtain ⟨htop, hrest⟩ := List.forall_mem_cons.mp h
    cases stmt with
    | bare word => cases htop
    | malformed pos part f =>
      cases part with
      | unknown => cases htop
      | _ => exact ih hrest
    | _ => exact ih hrest

/-- The statements that belong to one part of a script. -/
abbrev ofPart (part : Part) (body : List Stmt) : List Stmt :=
  body.filter fun stmt => stmt.part == part

theorem shared_isTop (h : ∀ stmt ∈ body, stmt.isTop = true) : ofPart .shared body = [] := by
  rw [List.filter_eq_nil_iff]
  intro stmt hstmt hpart
  have htop := h stmt hstmt
  have hpart := eq_of_beq hpart
  cases stmt <;> simp_all [Stmt.isTop, Stmt.isVariable, Stmt.part]

/-- Building a target: the variables of the whole target come first, then the functions and the
hats, and then all scripts are added. -/
theorem target_parts (h : target body s = .ok () s') :
    ∃ t₀ t t₁ t₂ t₃ t₄,
      ((ofPart .shared body).forM shareVariable : Build Unit) s = .ok () t₀ ∧ Quiet t₀ t ∧
      ((ofPart .function body).forM functionOf : Build Unit) t = .ok () t₁ ∧ Quiet t₁ t₂ ∧
      ((ofPart .hat body).forM hatOf : Build Unit) t₂ = .ok () t₃ ∧ Quiet t₃ t₄ ∧
      (t₄.frame.pending.forM (fun script => modifyTarget t₄.frame.place (·.addScript script)) :
        Build Unit) t₄ = .ok () s' := by
  obtain ⟨_, hparts, h⟩ := (readOnly_checkParts).bind_ok h
  obtain ⟨_, t₀, hshares, _, t, hdebug, h⟩ := bind_bind_ok.mp h
  obtain ⟨_, t₁, hfunctions, _, t₂, hdebug', h⟩ := bind_bind_ok.mp h
  obtain ⟨_, t₃, hhats, _, t₄, hdebug'', h⟩ := bind_bind_ok.mp h
  exact ⟨t₀, t, t₁, t₂, t₃, t₄, hshares, quiet_debug hdebug, hfunctions, quiet_debug hdebug', hhats,
    quiet_debug hdebug'', h⟩

/-- Variables at the top level are no part of what is built. -/
theorem target_filter (htop : ∀ stmt ∈ body, stmt.isTop = true) :
    target (body.filter fun stmt => !stmt.isVariable) = target body := by
  have htop' : ∀ stmt ∈ body.filter (fun stmt => !stmt.isVariable), stmt.isTop = true :=
    fun stmt hstmt => htop stmt (List.mem_filter.mp hstmt).1
  have hpart : ∀ part, part = .function ∨ part = .hat →
      ofPart part (body.filter fun stmt => !stmt.isVariable) = ofPart part body := by
    intro part hpart
    rw [ofPart, List.filter_filter]
    refine List.filter_congr fun stmt _ => ?_
    rcases hpart with rfl | rfl <;> cases stmt <;> simp [Stmt.part, Stmt.isVariable]
  simp only [target, checkParts_isTop htop, checkParts_isTop htop', shared_isTop htop,
    shared_isTop htop', hpart _ (.inl rfl), hpart _ (.inr rfl)]

theorem Holds.quiet {custom : List CustomBlock} {scripts pending : List (List Value)}
    (h : Holds own custom scripts pending s) (hquiet : Quiet s s') :
    Holds own custom scripts pending s' := by
  obtain ⟨hplace, htarget, hpending⟩ := h
  rw [← hquiet.frame] at hplace hpending
  rw [← hquiet.draft] at htarget
  exact ⟨hplace, htarget, hpending⟩

theorem spares_shareVariable (stmt : Stmt) : Within Spares (shareVariable stmt) :=
  .shareVariable building_spares.moveTo (fun name type v => spares_addVariable name type v false)
    (building_spares.toWriting.expression _) stmt

/-- What building a target makes of its functions and hats. All scripts that are complete at the
end are added. -/
theorem target_made {custom : List CustomBlock} {scripts : List (List Value)}
    (ht : Holds own custom scripts [] s) (h : target body s = .ok () s') :
    ∃ blocks made pending, Holds own (custom ++ blocks) (scripts ++ pending) pending s' ∧
      List.Forall₂ (Copies own) (ofPart .function body) blocks ∧
      List.Forall₂ IsScriptOf (ofPart .hat body) made ∧ made.Sublist pending := by
  obtain ⟨t₀, t, t₁, t₂, t₃, t₄, hshares, hquiet, hfunctions, hquiet', hhats, hquiet'', hscripts⟩ :=
    target_parts h
  have hshared := Within.forM spares_shareVariable _ _ _ _ hshares
  obtain ⟨first, hfirst⟩ := hshared.pending
  rw [ht.pending, List.nil_append] at hfirst
  have hstart : Holds own custom scripts first t₀ :=
    ⟨hshared.place.trans ht.place, (hshared.targets own).trans ht.target, hfirst⟩
  obtain ⟨blocks, more, hblocks, hafter⟩ := functions_made (hstart.quiet hquiet) hfunctions
  obtain ⟨added, made, hmade, hsublist, hafter'⟩ := hats_made (hafter.quiet hquiet') hhats
  have hafter'' := hafter'.quiet hquiet''
  rw [hafter''.place, hafter''.pending] at hscripts
  exact ⟨blocks, made, _, scripts_added hafter'' hscripts, hblocks, hmade,
    hsublist.trans (List.sublist_append_right (first ++ more) added)⟩

theorem leaves_addScripts {scripts : List (List Value)} :
    Within (Leaves inner) (scripts.forM (fun script => modifyTarget place (·.addScript script)) :
      Build Unit) := by
  refine .forM (fun script => ?_) scripts
  intro s u s' h
  obtain rfl := modifyTarget_ok.mp h
  exact .of_same (congrArg (·, _) (locals?_congr (by rfl)
    (names_modify _ _ (·.addScript script) fun _ => rfl) (by rfl) _))

/-- A target for which nothing has been built: its table holds results of functions only. -/
structure Unbuilt (s : BuildState) (place : Place) (t : Target) : Prop where
  target : s.draft.project.target? place = some t
  table : ∃ base, s.draft.locals? place = some base ∧
    ∀ entry ∈ base, isOutputName entry.1 = true ∧ entry.2.name = entry.1
  globals : ∀ entry ∈ s.draft.globals, entry.2.name = entry.1

def newBuilder (s : BuildState) (place : Place) (file : String) : BuildState :=
  { s with session.current := some file, frame := Frame.fresh place }

variable {place : Place} {file : String} {t : Target}

/-- What building a target adds to it. -/
theorem buildTarget_adds (ht : s.draft.project.target? place = some t)
    (h : buildTarget place file body s = .ok () s') :
    ∃ t' blocks added own, s'.draft.project.target? place = some t' ∧
      t'.custom = t.custom ++ blocks ∧ t'.scripts = t.scripts ++ added ∧
      List.Forall₂ (Copies place) (ofPart .function body) blocks ∧
      List.Forall₂ IsScriptOf (ofPart .hat body) own ∧ own.Sublist added := by
  have hstart : Holds place t.custom t.scripts [] (newBuilder s place file) :=
    ⟨rfl, congrArg (Option.map Target.made) ht, rfl⟩
  obtain ⟨blocks, made, added, hafter, hparts⟩ := target_made hstart (modify_bind_ok.mp h)
  obtain ⟨t', ht', hmade⟩ := Option.map_eq_some_iff.mp hafter.target
  obtain ⟨hcustom, hscripts⟩ := Prod.mk.inj hmade
  exact ⟨t', blocks, added, made, ht', hcustom, hscripts, hparts⟩

theorem Unbuilt.consistent (h : Unbuilt s place t) : Consistent (newBuilder s place file) := by
  obtain ⟨base, hbase, hkeys⟩ := h.table
  refine consistent_fresh (s := newBuilder s place file) rfl hbase ?_ h.globals
  intro entry hentry
  obtain ⟨houtput, hname⟩ := hkeys entry hentry
  exact ⟨unscoped_of_isOutputName houtput, hname⟩

theorem Unbuilt.shared (h : Unbuilt s place t) (name : String) :
    sharedVariable (newBuilder s place file) name = none := by
  obtain ⟨base, hbase, hkeys⟩ := h.table
  have hlocals : (newBuilder s place file).draft.locals? (newBuilder s place file).frame.place =
    some base := hbase
  rw [sharedVariable, hlocals, Option.bind_some]
  cases hget : Assoc.get? (fullName (newBuilder s place file).frame.place.isSprite 0 name) base with
  | none => rfl
  | some d =>
    have houtput := (hkeys _ (Assoc.mem_of_get? hget)).1
    rw [isOutputName_fullName] at houtput
    cases houtput

/-- What building a target makes of a statement at its top level: a variable of the whole
target, a custom block or a script that was not there before. -/
def Represented (t t' : Target) (after : BuildState) (stmt : Stmt) : Prop :=
  match stmt with
  | .declare _ target _ _ _ | .assign _ target _ =>
    ∃ name, target.plainName = .ok name ∧ (sharedVariable after name).isSome
  | .function _ _ _ _ _ _ => ∃ block ∈ t'.custom.drop t.custom.length, IsBlockOf stmt block
  | .hat _ _ _ _ => ∃ script ∈ t'.scripts.drop t.scripts.length, IsScriptOf stmt script
  | _ => False

theorem not_represented (hshared : ∀ name, sharedVariable s' name = none)
    (hvariable : stmt.isVariable = true) : ¬Represented t t' s' stmt := by
  cases stmt with
  | declare | assign =>
    rintro ⟨name, -, hsome⟩
    rw [hshared name] at hsome
    cases hsome
  | _ => cases hvariable

theorem exists_of_forall₂ {α β : Type} {R : α → β → Prop} {xs : List α} {ys : List β} {x : α}
    (h : List.Forall₂ R xs ys) (hx : x ∈ xs) : ∃ y ∈ ys, R x y := by
  induction h with
  | nil => cases hx
  | cons hfirst _ ih =>
    rcases List.mem_cons.mp hx with rfl | hrest
    · exact ⟨_, List.mem_cons_self, hfirst⟩
    · obtain ⟨y, hy, hR⟩ := ih hrest
      exact ⟨y, List.mem_cons_of_mem _ hy, hR⟩

/-- A function or hat is represented by what it became. -/
theorem represented {t' : Target} {stmt : Stmt} {blocks : List CustomBlock}
    {added own : List (List Value)} (hcustom : t'.custom = t.custom ++ blocks)
    (hscripts : t'.scripts = t.scripts ++ added)
    (hblocks : List.Forall₂ IsBlockOf (ofPart .function body) blocks)
    (hown : List.Forall₂ IsScriptOf (ofPart .hat body) own)
    (hsublist : own.Sublist added) (hstmt : stmt ∈ body) (htop : stmt.isTop = true)
    (hvariable : stmt.isVariable = false) : Represented t t' s' stmt := by
  have hcases : stmt.part = .function ∨ stmt.part = .hat := by
    simpa [Stmt.isTop, hvariable] using htop
  have hmem : ∀ part, stmt.part = part → stmt ∈ ofPart part body :=
    fun part hpart => List.mem_filter.mpr ⟨hstmt, beq_iff_eq.mpr hpart⟩
  rcases hcases with hpart | hpart
  · obtain ⟨block, hblock, hof⟩ := exists_of_forall₂ hblocks (hmem _ hpart)
    cases stmt with
    | function => exact ⟨block, by simpa [hcustom] using hblock, hof⟩
    | malformed => exact hof
    | _ => cases hpart
  · obtain ⟨script, hscript, hof⟩ := exists_of_forall₂ hown (hmem _ hpart)
    cases stmt with
    | hat => exact ⟨script, by simpa [hscripts] using hsublist.subset hscript, hof⟩
    | malformed => exact hof
    | _ => cases hpart

/-- All that building a target does to it. -/
theorem buildTarget_made (htop : ∀ stmt ∈ body, stmt.isTop = true) (hunbuilt : Unbuilt s place t)
    (h : buildTarget place file body s = .ok () s') :
    (∀ name, sharedVariable s' name = none) ∧
      ∃ t' blocks added own, s'.draft.project.target? place = some t' ∧
        t'.custom = t.custom ++ blocks ∧ t'.scripts = t.scripts ++ added ∧
        List.Forall₂ IsBlockOf (ofPart .function body) blocks ∧
        List.Forall₂ IsScriptOf (ofPart .hat body) own ∧ own.Sublist added := by
  obtain ⟨t', blocks, added, made, ht', hcustom, hadded, hblocks, hmade⟩ :=
    buildTarget_adds hunbuilt.target h
  refine ⟨?_, t', blocks, added, made, ht', hcustom, hadded,
    hblocks.imp fun _ _ => Copies.isBlockOf, hmade⟩
  obtain ⟨t₀, t₁, t₂, t₃, t₄, t₅, hshares, hquiet, hfunctions, hquiet', hhats, hquiet'', hscripts⟩ :=
    target_parts (modify_bind_ok.mp h)
  rw [shared_isTop htop] at hshares
  obtain ⟨-, rfl⟩ := pure_ok.mp hshares
  intro name
  have hleaves := chain hquiet.keeps.leaves
    (chain (Within.forM leaves_functionOf _ _ _ _ hfunctions)
      (chain hquiet'.keeps.leaves
        (chain (Within.forM leaves_hatOf _ _ _ _ hhats)
          (chain hquiet''.keeps.leaves
            (leaves_addScripts _ _ _ hscripts)))))
  rw [hleaves.shared hunbuilt.consistent False.elim name]
  exact hunbuilt.shared name

/-- What a text says at its top level and what is built of it: functions and hats are there as
blocks and scripts, in their order, and variables are passed over. -/
theorem represented_iff_not_variable (source : String) (p : Script) :
    (∀ session after : Session, session.content = .ok source →
      session.parseScript = (.ok p, after) → Spells source p) ∧
    (Spells source p →
      ∀ (place : Place) (file : String) (s : BuildState),
        buildTarget place file p.statements s =
          buildTarget place file (p.statements.filter fun stmt => !stmt.isVariable) s ∧
        ∀ (s' : BuildState) (t : Target), Unbuilt s place t →
          buildTarget place file p.statements s = .ok () s' →
          (∀ name, sharedVariable s' name = none) ∧
          ∃ t' blocks added own, s'.draft.project.target? place = some t' ∧
            t'.custom = t.custom ++ blocks ∧ t'.scripts = t.scripts ++ added ∧
            List.Forall₂ IsBlockOf (p.statements.filter fun stmt => stmt.part == .function) blocks ∧
            List.Forall₂ IsScriptOf (p.statements.filter fun stmt => stmt.part == .hat) own ∧
            own.Sublist added ∧
            ∀ stmt ∈ p.statements, Represented t t' s' stmt ↔ stmt.isVariable = false) := by
  refine ⟨fun session after => Session.parseScript_spells, ?_⟩
  intro hspells place file s
  refine ⟨?_, ?_⟩
  · rw [buildTarget, buildTarget, target_filter hspells.isTop]
  · intro s' t hunbuilt hbuild
    obtain ⟨hshared, t', blocks, added, own, ht', hcustom, hscripts, hblocks, hown, hsublist⟩ :=
      buildTarget_made hspells.isTop hunbuilt hbuild
    refine ⟨hshared, t', blocks, added, own, ht', hcustom, hscripts, hblocks, hown, hsublist, ?_⟩
    intro stmt hstmt
    by_cases hvariable : stmt.isVariable = true
    · rw [hvariable]
      exact iff_of_false (not_represented hshared hvariable) (by simp)
    · rw [Bool.not_eq_true] at hvariable
      refine iff_of_true ?_ hvariable
      exact represented hcustom hscripts hblocks hown hsublist hstmt (hspells.isTop stmt hstmt)
        hvariable

def flagSource : String := "x: num; scratch.on_flag() \x7b\x7d"

def flagVariable : Stmt := .declare (.start 0) (.name (.start 0) "x") .ofNumber none false

def flagHat : Stmt := .hat (.start 8) (.attr (.start 8) (.str "scratch") "on_flag") [] []

theorem flagSource_spells : Spells flagSource ⟨[], [flagVariable, flagHat]⟩ := by
  refine ⟨1, rfl, ?_⟩
  let token (i : Nat) : Token := (scan .script 1 flagSource).tokens.getD i ⟨.dot, .int 0, 0, 0⟩
  have hplace := Derives.step 58 rfl (.token (token 0) .nil) rfl .nil
  have htype := Derives.step 74 rfl
    (.token (token 1) (.step 70 rfl (.token (token 2) .nil) rfl .nil)) rfl .nil
  have hvariable := Derives.step 21 rfl
    (.step 39 rfl (hplace.append htype) rfl (.token (token 3) .nil)) rfl .nil
  have hevent := Derives.step 55 rfl
    (.token (token 4) (.token (token 5) (.token (token 6) .nil))) rfl .nil
  have harguments := Derives.step 112 rfl (.token (token 7) (.token (token 8) .nil)) rfl .nil
  have hbody := Derives.step 104 rfl (.token (token 9) (.token (token 10) .nil)) rfl .nil
  have hhat := Derives.step 23 rfl
    (.step 120 rfl ((hevent.append harguments).append hbody) rfl .nil) rfl .nil
  exact (Derives.step 2 rfl
    (.step 20 rfl (hvariable.append (.step 19 rfl hhat rfl .nil)) rfl .nil) rfl .nil :)

theorem represented_iff_not_variable_flag :
    ∃ s s' t t', Unbuilt s .stage t ∧
      buildTarget .stage "main" [flagVariable, flagHat] s = .ok () s' ∧
      s'.draft.project.target? .stage = some t' ∧
      ¬Represented t t' s' flagVariable ∧ Represented t t' s' flagHat := by
  let s : BuildState := .fresh (.fresh (some .error) false) "project"
  have hunbuilt : Unbuilt s .stage s.draft.project.stage :=
    ⟨rfl, ⟨[], rfl, by simp⟩, by simp [s, BuildState.fresh, Draft.fresh]⟩
  obtain ⟨s', hbuild⟩ : ∃ s', buildTarget .stage "main" [flagVariable, flagHat] s = .ok () s' :=
    ⟨_, rfl⟩
  obtain ⟨-, t', _, _, _, ht', -, -, -, -, -, hiff⟩ :=
    ((represented_iff_not_variable flagSource _).2 flagSource_spells .stage "main" s).2 s' _
      hunbuilt hbuild
  refine ⟨s, s', _, t', hunbuilt, hbuild, ht', ?_, ?_⟩
  · rw [hiff flagVariable (by simp)]
    decide
  · exact (hiff flagHat (by simp)).mpr rfl

end

end Build

end BlockScript
