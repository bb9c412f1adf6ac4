import BlockScript.Proofs.Steps
import Mathlib.Order.Defs.Unbundled

/-!
What building leaves alone. Translating an expression looks names up and may add calls to
the innermost script, but it neither opens nor closes a scope and changes no table of
variables or functions. Building a statement adds blocks to the innermost script only,
and leaves the same scopes open.
-/
namespace BlockScript

namespace Build

variable {α β : Type} {s s' : BuildState}

/-- Every success of a step relates the state before it to the one after it. -/
def Within (R : BuildState → BuildState → Prop) (x : Build α) : Prop :=
  ∀ s a s', x s = .ok a s' → R s s'

/-- A step that only looks at the state. -/
abbrev ReadOnly (x : Build α) : Prop := Within Eq x

/-- What holds of two runs, one after the other. -/
theorem chain [IsTrans BuildState R] (h : R s t) (h' : R t s') : R s s' :=
  IsTrans.trans s t s' h h'

namespace Within

theorem mono (hx : Within R x) (h : ∀ s s', R s s' → S s s') : Within S x :=
  fun s a s' hs => h s s' (hx s a s' hs)

theorem fault (f : Fault) : Within R (Build.fault f : Build α) :=
  fun _ _ _ h => (fault_ok.mp h).elim

theorem reject (p : Problem) : Within R (Build.reject p : Build α) :=
  fun _ _ _ h => (reject_ok.mp h).elim

theorem get_bind (hf : ∀ t, Within R (f t)) : Within R ((get : Build BuildState) >>= f) :=
  fun s b s' h => hf s s b s' (get_bind_ok.mp h)

theorem modify (hf : ∀ s, R s (f s)) : Within R (modify f : Build Unit) := by
  intro s u s' h
  rw [modify_ok] at h
  exact h ▸ hf s

theorem map (f : α → β) (hx : Within R x) : Within R (f <$> x) := by
  intro s b s' h
  obtain ⟨a, h₁, -⟩ := map_ok.mp h
  exact hx s a s' h₁

theorem fault_bind : Within R ((Build.fault f : Build α) >>= k) := by
  intro s b s' h
  obtain ⟨_, t, h₁, _⟩ := bind_ok.mp h
  exact (fault_ok.mp h₁).elim

section

variable [IsPreorder BuildState R]

theorem of_readOnly (hx : ReadOnly x) : Within R x :=
  hx.mono fun s _ h => h ▸ refl s

theorem pure (a : α) : Within R (pure a : Build α) := by
  intro s b s' h
  rw [pure_ok] at h
  exact h.2 ▸ refl s

theorem bind_of_gives (hx : Within R x)
    (hgives : Gives P x) (hf : ∀ a, P a → Within R (f a)) : Within R (x >>= f) := by
  intro s b s' h
  obtain ⟨a, t, ha, hb⟩ := bind_ok.mp h
  exact chain (hx s a t ha) (hf a (hgives s a t ha) t b s' hb)

theorem bind (hx : Within R x) (hf : ∀ a, Within R (f a)) : Within R (x >>= f) :=
  hx.bind_of_gives (.any x) fun a _ => hf a

theorem ofExcept (x : Except Fault α) : Within R (Build.ofExcept x) := by
  intro s a s' h
  exact (ofExcept_ok.mp h).2 ▸ refl s

theorem ofOutcome (x : Outcome α) : Within R (Build.ofOutcome x) := by
  intro s a s' h
  exact (ofOutcome_ok.mp h).2 ▸ refl s

theorem require (allowed : List (List TypeSet)) (operands : List Value) (template : String) :
    Within R (Build.require allowed operands template) := ofOutcome _

theorem inSprite : Within R Build.inSprite := by
  intro s b s' h
  exact (inSprite_ok.mp h).2 ▸ refl s

theorem requireScript : Within R Build.requireScript := by
  intro s u s' h
  exact (requireScript_ok.mp h).2 ▸ refl s

end

end Within

/-- What is kept account of while scripts are built: questions whether a sprite is a clone, what is
called for a value and as a statement, and variables that are declared. -/
inductive Work
  | cloneTest
  | call (f : Expr)
  | run (f : Expr)
  | declare (name : String) (type : TypeSet) (constant : Bool)

/-- A relation between states that tells apart what is done between them. -/
class Graded {ε : Type} (G : List ε → BuildState → BuildState → Prop) : Prop where
  refl : ∀ s, G [] s s
  trans : ∀ {w w' s t s'}, G w s t → G w' t s' → G (w ++ w') s s'

instance {ε : Type} {R : BuildState → BuildState → Prop} [IsPreorder BuildState R] :
    Graded fun _ : List ε => R :=
  ⟨refl, fun h h' => chain h h'⟩

section

variable [Graded G]

theorem Graded.isPreorder : IsPreorder BuildState (G []) where
  refl := Graded.refl
  trans _ _ _ h h' := Graded.trans h h'

theorem Graded.lead (h : G [] s t) (h' : G w t s') : G w s s' :=
  Graded.trans h h'

theorem Graded.stay (h : G w s t) (h' : G [] t s') : G w s s' := by
  have hall := Graded.trans h h'
  rwa [List.append_nil] at hall

theorem Within.seq (hx : Within (G w) x)
    (hf : ∀ a, Within (G w') (f a)) : Within (G (w ++ w')) (x >>= f) := by
  intro s b s' h
  obtain ⟨a, t, hfirst, hrest⟩ := bind_ok.mp h
  exact Graded.trans (hx _ _ _ hfirst) (hf a _ _ _ hrest)

theorem Within.after (hx : Within (G []) x)
    (hf : ∀ a, Within (G w) (f a)) : Within (G w) (x >>= f) :=
  .seq hx hf

theorem Within.before (hx : Within (G w) x)
    (hf : ∀ a, Within (G []) (f a)) : Within (G w) (x >>= f) := by
  have h := Within.seq hx hf
  rwa [List.append_nil] at h

/-- What is done for each of some items, one after the other. -/
theorem Within.each {α : Type} {w : α → List _} {f : α → Build Unit} {items : List α}
    (h : ∀ a ∈ items, Within (G (w a)) (f a)) :
    Within (G (items.flatMap w)) (items.forM f : Build Unit) := by
  induction items with
  | nil =>
    intro s u s' hrun
    obtain ⟨-, rfl⟩ := pure_ok.mp hrun
    exact Graded.refl _
  | cons a rest ih =>
    obtain ⟨hfirst, hrest⟩ := List.forall_mem_cons.mp h
    exact .seq hfirst fun _ => ih hrest

end

/-- Adds blocks to the innermost of some scripts, if there is one. -/
def addBlocks (blocks : List Value) : List (List Value) → List (List Value)
  | [] => []
  | script :: rest => (script ++ blocks) :: rest

@[simp] theorem addBlocks_nil (scripts : List (List Value)) : addBlocks [] scripts = scripts := by
  cases scripts <;> simp [addBlocks]

@[simp] theorem addBlocks_addBlocks (first second : List Value) (scripts : List (List Value)) :
    addBlocks second (addBlocks first scripts) = addBlocks (first ++ second) scripts := by
  cases scripts <;> simp [addBlocks]

/-- Blocks can be added exactly while a script is being written. -/
theorem emitAll_ok :
    emitAll blocks s = .ok u s' ↔ s.frame.unfinished ≠ [] ∧
      { s with frame.unfinished := addBlocks blocks s.frame.unfinished } = s' := by
  constructor
  · intro h
    obtain ⟨_, t, h₁, h₂⟩ := bind_ok.mp h
    obtain ⟨hopen, rfl⟩ := requireScript_ok.mp h₁
    rw [modifyFrame_ok] at h₂
    refine ⟨hopen, h₂ ▸ ?_⟩
    cases hs : s.frame.unfinished with
    | nil => exact absurd hs hopen
    | cons script rest => simp [addBlocks]
  · rintro ⟨hopen, rfl⟩
    refine bind_ok.mpr ⟨(), s, requireScript_ok.mpr ⟨hopen, rfl⟩, modifyFrame_ok.mpr ?_⟩
    cases hs : s.frame.unfinished with
    | nil => exact absurd hs hopen
    | cons script rest => simp [addBlocks]

theorem emit_ok :
    emit block s = .ok u s' ↔ s.frame.unfinished ≠ [] ∧
      { s with frame.unfinished := addBlocks [block] s.frame.unfinished } = s' := emitAll_ok

/-- The variable that tells clones apart, as it is created at its first use. -/
def cloneData : Data := ⟨"sg_is_clone", false, .typed .general, false⟩

/-- The scripts that set the variable that tells clones apart. -/
def cloneScripts : List (List Value) :=
  [[.op .whenFlagClicked [], .op .setVariable [.data cloneData, .int 0]],
    [.op .whenStartAsClone [], .op .setVariable [.data cloneData, .int 1]]]

/-- What stays as it is while an expression is translated: all that names are looked up
in, and the scopes. Calls may have been added to the innermost script. -/
structure Keeps (s s' : BuildState) : Prop where
  globals : s'.draft.globals = s.draft.globals
  stageLocals : s'.draft.stageLocals = s.draft.stageLocals
  sprites : s'.draft.sprites = s.draft.sprites
  names : s'.draft.project.sprites.map Target.name = s.draft.project.sprites.map Target.name
  place : s'.frame.place = s.frame.place
  lastScope : s'.frame.lastScope = s.frame.lastScope
  scopes : s'.frame.scopes = s.frame.scopes
  currentScope : s'.frame.currentScope = s.frame.currentScope
  functions : s'.frame.functions = s.frame.functions
  building : s'.frame.building = s.frame.building
  clone : s'.frame.cloneFlag.getD cloneData = s.frame.cloneFlag.getD cloneData
  script : ∃ blocks, s'.frame.unfinished = addBlocks blocks s.frame.unfinished

instance : IsPreorder BuildState Keeps where
  refl s := ⟨rfl, rfl, rfl, rfl, rfl, rfl, rfl, rfl, rfl, rfl, rfl, [], by simp⟩
  trans a b c h k := by
    obtain ⟨first, h₁⟩ := h.script
    obtain ⟨second, h₂⟩ := k.script
    exact ⟨k.globals.trans h.globals, k.stageLocals.trans h.stageLocals,
      k.sprites.trans h.sprites, k.names.trans h.names, k.place.trans h.place,
      k.lastScope.trans h.lastScope, k.scopes.trans h.scopes,
      k.currentScope.trans h.currentScope, k.functions.trans h.functions,
      k.building.trans h.building, k.clone.trans h.clone,
      first ++ second, by rw [h₂, h₁, addBlocks_addBlocks]⟩

theorem ReadOnly.bind_ok (hx : ReadOnly x)
    (h : (x >>= f) s = .ok b s') : ∃ a, x s = .ok a s ∧ f a s = .ok b s' := by
  obtain ⟨a, t, ha, h⟩ := Build.bind_ok.mp h
  obtain rfl := hx _ _ _ ha
  exact ⟨a, ha, h⟩

/-- What a key stands for in tables and scopes. -/
def keyed (key : Key) (globals : Assoc String Data) (table : Option (Assoc String Data))
    (sprite : Bool) (scopes : List Nat) : Except Fault (Option Data) :=
  match key.text.bind fun t => Assoc.get? (globalName t) globals with
  | some data => .ok (some data)
  | none =>
    match table with
    | none => .error .missingField
    | some locals =>
      match key.text.bind fun t => Assoc.get? (fullName sprite 0 t) locals with
      | some data => .ok (some data)
      | none => findScoped key.name scopes locals

theorem find?_ok : find? key s = .ok found s' ↔ keyed key s.draft.globals
    (s.draft.locals? s.frame.place) s.frame.place.isSprite
    (s.frame.currentScope :: s.frame.scopes) = .ok found ∧ s = s' := by
  rw [find?, get_bind_ok, ← ofExcept_ok]
  unfold keyed
  cases key.text.bind fun t => Assoc.get? (globalName t) s.draft.globals with
  | some data => rfl
  | none =>
    cases s.draft.locals? s.frame.place with
    | none => rfl
    | some locals =>
      dsimp only
      cases key.text.bind fun t => Assoc.get? (fullName s.frame.place.isSprite 0 t) locals <;> rfl

theorem readOnly_find? (key : Key) : ReadOnly (find? key) := fun _ _ _ h => (find?_ok.mp h).2

/-- The same answers to all that a step may ask for beside the meaning of names. -/
structure Alike (s t : BuildState) : Prop where
  functions : s.frame.functions = t.frame.functions
  isSprite : s.frame.place.isSprite = t.frame.place.isSprite
  known : ∀ name,
    (Assoc.get? name s.draft.sprites).isSome = (Assoc.get? name t.draft.sprites).isSome

/-- A judgement about steps and the work they do that holds of all steps which never succeed, and
of all steps made of such as it holds of. -/
structure Composing (J : ∀ {α : Type}, List Work → Build α → Prop) : Prop where
  pure : ∀ {α : Type} (a : α), J [] (pure a : Build α)
  seq : ∀ {α β : Type} {w w' : List Work} {x : Build α} {f : α → Build β}, J w x →
    (∀ a, J w' (f a)) → J (w ++ w') (x >>= f)
  never : ∀ {α : Type} {w : List Work} {x : Build α}, (∀ s a s', x s ≠ .ok a s') → J w x

/-- A judgement that also holds of all steps which look names up or ask for answers. -/
structure Looking (J : ∀ {α : Type}, List Work → Build α → Prop) : Prop extends Composing J where
  ask : ∀ {α : Type} {w : List Work} {f : BuildState → Build α},
    (∀ s t, Alike s t → f s = f t) → (∀ s, J w (f s)) → J w (get >>= f)
  find? : ∀ key, J [] (find? key)

/-- Such steps only look at the state. -/
theorem reads : Looking fun _ x => ReadOnly x where
  pure := .pure
  seq := .bind
  never h := fun s a s' hrun => (h s a s' hrun).elim
  ask _ h := .get_bind h
  find? := readOnly_find?

namespace Composing

variable (h : Composing J)

include h

theorem fault (f : Fault) : J w (Build.fault f : Build α) :=
  h.never fun _ _ _ => fault_ok.mp

theorem reject (p : Problem) : J w (Build.reject p : Build α) :=
  h.never fun _ _ _ => reject_ok.mp

theorem bind_reject : J w (x >>= fun _ => (Build.reject p : Build β)) := by
  refine h.never fun s b s' hrun => ?_
  obtain ⟨_, _, -, hrun⟩ := bind_ok.mp hrun
  exact reject_ok.mp hrun

theorem after (hx : J [] x) (hf : ∀ a, J w (f a)) : J w (x >>= f) :=
  h.seq hx hf

theorem before (hx : J w x) (hf : ∀ a, J [] (f a)) : J w (x >>= f) := by
  have hall := h.seq hx hf
  rwa [List.append_nil] at hall

theorem ofExcept (x : Except Fault α) : J [] (Build.ofExcept x) := by
  cases x with
  | ok a => exact h.pure a
  | error f => exact h.fault f

theorem ofOutcome (x : Outcome α) : J [] (Build.ofOutcome x) := by
  rcases x with (f | p) | a
  · exact h.fault f
  · exact h.reject p
  · exact h.pure a

theorem require (allowed : List (List TypeSet)) (operands : List Value)
    (template : String) : J [] (Build.require allowed operands template) :=
  h.ofOutcome _

end Composing

namespace Looking

variable (h : Looking J)

include h

theorem inSprite : J [] Build.inSprite :=
  h.ask (fun _ _ hst => by rw [hst.isSprite]) fun _ => h.pure _

theorem variableNamed (name : String) : J [] (variableNamed name) := by
  refine h.after (h.find? _) fun found => ?_
  split
  · exact h.pure _
  · exact h.reject _

theorem variableValue (name : String) : J [] (variableValue name) :=
  h.after (h.variableNamed name) fun _ => h.pure _

theorem checkCount (optional required given : Int) : J [] (checkCount optional required given) := by
  unfold Build.checkCount
  split
  · split
    · exact h.pure _
    · exact h.reject _
  · split
    · exact h.pure _
    · exact h.reject _

theorem useEntry (role : Role) (entry : Entry) : J [] (useEntry role entry) := by
  refine h.after h.inSprite fun sprite => ?_
  split
  · exact h.after (h.reject _) fun _ => h.pure _
  · exact h.pure _

theorem useTable (role : Role) (size : Nat) : J [] (useTable role size) := by
  unfold Build.useTable
  split
  · exact h.fault _
  · refine h.after h.inSprite fun sprite => ?_
    split
    · exact h.reject _
    · exact h.fault _

theorem builtin? (role : Role) (table : EntryTable) (e : Expr) : J [] (builtin? role table e) := by
  unfold Build.builtin?
  split
  · exact h.pure _
  · exact h.after (h.useEntry _ _) fun _ => h.pure _
  · exact h.after (h.useTable _ _) fun _ => h.pure _

theorem builtin (role : Role) (table : EntryTable) (e : Expr) : J [] (builtin role table e) := by
  refine h.after (h.builtin? role table e) fun found => ?_
  split
  · exact h.pure _
  · split
    · exact h.bind_reject
    · exact h.reject _

theorem member (kind : Member) (pos : Position) (object : Expr) (name : String)
    (arguments : List Value) (d : Data) : J [] (member kind pos object name arguments d) := by
  refine h.after (h.ofExcept _) fun table => ?_
  split
  · exact h.ofExcept _
  · exact h.after (h.ofExcept _) fun place => h.bind_reject

theorem touchedSprite? (arguments : List Value) : J [] (touchedSprite? arguments) := by
  unfold Build.touchedSprite?
  split
  · exact h.fault _
  · exact h.ask (fun _ _ hst => by rw [hst.known]) fun _ => h.pure _
  · exact h.fault _
  · exact h.pure _

theorem builtinValue (f : Expr) (arguments : List Value) : J [] (builtinValue f arguments) := by
  refine h.after (h.builtin _ _ _) fun b => h.after (h.checkCount _ _ _) fun _ => ?_
  split
  · refine h.after (h.touchedSprite? _) fun sprite => ?_
    split
    · exact h.pure _
    · exact h.ofOutcome _
  · exact h.ofOutcome _

theorem functionValue (hcall : ∀ label arguments, J [] (emit (.call label arguments))) (f : Function)
    (arguments : List Value) : J [] (functionValue f arguments) := by
  unfold Build.functionValue
  split
  · exact h.reject _
  · split
    · exact h.fault _
    · exact h.after (h.checkCount _ _ _) fun _ => h.after (hcall _ _) fun _ => h.pure _

theorem callValue (hcall : ∀ label arguments, J [] (emit (.call label arguments)))
    (f : Expr) (arguments : List Value) : J [] (callValue f arguments) := by
  unfold Build.callValue
  split
  · exact h.fault _
  · exact h.fault _
  · exact h.fault _
  · exact h.fault _
  · refine h.ask (fun _ _ hst => by rw [hst.functions]) fun t => ?_
    split
    · exact h.functionValue hcall _ _
    · exact h.builtinValue _ _
  · refine h.after (h.find? _) fun found => ?_
    split
    · exact h.member _ _ _ _ _ _
    · exact h.builtinValue _ _
  · exact h.builtinValue _ _

theorem indexed (target index : Value) : J [] (indexed target index) := by
  refine h.after (h.require _ _ _) fun _ => h.after (h.require _ _ _) fun _ => ?_
  refine h.after (h.ofExcept _) fun place => h.after (h.ofExcept _) fun type => ?_
  split
  all_goals exact h.pure _

theorem concatenated (operands : List Value) : J [] (concatenated operands) := by
  unfold Build.concatenated
  split
  · refine h.after (h.require _ _ _) fun _ => ?_
    split
    all_goals exact h.pure _
  · exact h.fault _

theorem requireNumbers (operands : List Value) : J [] (requireNumbers operands) := by
  unfold Build.requireNumbers
  split
  all_goals exact h.require _ _ _

theorem calculated (op : ArithOp) (operands : List Value) : J [] (calculated op operands) :=
  h.after (h.requireNumbers operands) fun _ => h.ofExcept _

theorem compared (op : CompareOp) (operands : List Value) : J [] (compared op operands) := by
  unfold Build.compared
  split
  · exact h.after (h.require _ _ _) fun _ => h.ofExcept _
  · exact h.fault _

theorem combined (op : LogicOp) (operands : List Value) : J [] (combined op operands) := by
  unfold Build.combined
  split
  · split
    · exact h.after (h.fault _) fun _ => h.ofExcept _
    · exact h.after (h.require _ _ _) fun _ => h.ofExcept _
  · exact h.after (h.require _ _ _) fun _ => h.ofExcept _

theorem unknownOperation (family : Family) (operands : List Value) :
    J [] (unknownOperation family operands) := by
  refine h.never fun s v s' hrun => ?_
  cases family with
  | arith =>
    obtain ⟨_, _, _, hrun⟩ := bind_ok.mp hrun
    exact fault_ok.mp hrun
  | compare =>
    simp only [Build.unknownOperation] at hrun
    split at hrun
    · obtain ⟨_, _, hrun, _⟩ := bind_ok.mp hrun
      exact fault_ok.mp hrun
    · obtain ⟨_, _, _, hrun⟩ := bind_ok.mp hrun
      exact fault_ok.mp hrun
  | logic =>
    obtain ⟨_, _, _, hrun⟩ := bind_ok.mp hrun
    exact fault_ok.mp hrun

end Looking

theorem readOnly_constantValue (name : String) : ReadOnly (constantValue name) := by
  refine .get_bind fun t => ?_
  split
  · exact .pure _
  · exact .reject _

theorem keeps_moveTo (p : Position) : Within Keeps (moveTo p) := by
  intro s u s' h
  obtain ⟨-, rfl⟩ := moveTo_ok.mp h
  exact ⟨rfl, rfl, rfl, rfl, rfl, rfl, rfl, rfl, rfl, rfl, rfl, [], by simp⟩

theorem keeps_emitAll (blocks : List Value) : Within Keeps (emitAll blocks) := by
  intro s u s' h
  obtain ⟨-, rfl⟩ := emitAll_ok.mp h
  exact ⟨rfl, rfl, rfl, rfl, rfl, rfl, rfl, rfl, rfl, rfl, rfl, blocks, rfl⟩

/-- A change to a target that keeps its name keeps the names of all sprites. -/
theorem names_modify (p : Project) (place : Place) (f : Target → Target)
    (hf : ∀ t, (f t).name = t.name) :
    (p.modify place f).sprites.map Target.name = p.sprites.map Target.name := by
  cases place with
  | stage => rfl
  | sprite i =>
    apply List.ext_getElem?
    intro j
    simp only [Project.modify, List.getElem?_map, List.getElem?_modify]
    cases p.sprites[j]? with
    | none => rfl
    | some t =>
      by_cases hij : i = j
      · simp [hij, hf]
      · simp [hij]

/-- The variable that tells clones apart is there already, or it is created with the scripts
that set it. -/
theorem cloneFlag_ok (h : cloneFlag s = .ok v s') :
    (s = s' ∨ s.frame.cloneFlag = none ∧ s' = { s with
      draft.project := s.draft.project.modify s.frame.place (·.addDatum ⟨cloneData, .int 0⟩)
      frame.cloneFlag := some cloneData
      frame.pending := s.frame.pending ++ cloneScripts }) ∧
    ∃ d, s'.frame.cloneFlag = some d ∧ v = .data d := by
  obtain ⟨sprite, t, h₁, h⟩ := bind_ok.mp h
  obtain ⟨-, rfl⟩ := inSprite_ok.mp h₁
  split at h
  · obtain ⟨_, _, h₂, -⟩ := bind_ok.mp h
    exact (reject_ok.mp h₂).elim
  · rw [get_bind_ok] at h
    cases hflag : s.frame.cloneFlag with
    | some d =>
      simp only [hflag] at h
      obtain ⟨rfl, rfl⟩ := pure_ok.mp h
      exact ⟨.inl rfl, d, hflag, rfl⟩
    | none =>
      simp only [hflag] at h
      obtain ⟨d, t, h₂, h₃⟩ := bind_ok.mp h
      obtain ⟨rfl, rfl⟩ := pure_ok.mp h₃
      rw [addCloneFlag, get_bind_ok] at h₂
      obtain ⟨_, t₁, h₄, _, t₂, h₅, h₂⟩ := bind_bind_ok.mp h₂
      obtain ⟨rfl, rfl⟩ := pure_ok.mp h₂
      rw [modifyTarget_ok] at h₄
      rw [modifyFrame_ok] at h₅
      subst h₄ h₅
      exact ⟨.inr ⟨rfl, rfl⟩, _, rfl, rfl⟩

theorem keeps_cloneFlag : Within Keeps cloneFlag := by
  intro s v s' h
  rcases (cloneFlag_ok h).1 with rfl | ⟨hflag, rfl⟩
  · exact refl s
  · refine ⟨rfl, rfl, rfl, ?_, rfl, rfl, rfl, rfl, rfl, rfl, ?_, [], by simp⟩
    · exact names_modify _ _ _ fun _ => rfl
    · rw [hflag]
      rfl

end Build

mutual

/-- The work of translating an expression. -/
def Expr.work : Expr → List Build.Work
  | .attr _ object n => if object.isText "this" && n == "is_clone" then [.cloneTest] else []
  | .index _ target i => target.work ++ i.work
  | .call _ f es => Expr.workAll es ++ [.call f]
  | .list es | .concat _ es | .arith _ _ es | .compare _ _ es | .logic _ _ es | .unknown _ _ es =>
    Expr.workAll es
  | _ => []

def Expr.workAll : List Expr → List Build.Work
  | [] => []
  | e :: rest => e.work ++ Expr.workAll rest

end

namespace Build

/-- What holds of the steps of translating an expression. Only scripts have attributes and calls,
and only setups know the values of globals. -/
structure Stepping (d : Dialect) (J : ∀ {α : Type}, List Work → Build α → Prop) : Prop
    extends Looking J where
  moveTo : ∀ p, J [] (moveTo p)
  attributeValue : d = .script → ∀ pos object name,
    J (Expr.attr pos object name).work (attributeValue pos object name)
  callValue : d = .script → ∀ f arguments, J [.call f] (callValue f arguments)
  constantValue : d = .setup → ∀ name, J [] (constantValue name)

/-- An operand of a logical operator, where a truth value stays as it is. -/
def comparand (d : Dialect) : Expr → Build Value
  | .truth b => pure (.bool b)
  | e => expression d e

theorem comparands_cons (d : Dialect) (e : Expr) (rest : List Expr) :
    comparands d (e :: rest) = (do
      let v ← comparand d e
      let vs ← comparands d rest
      return v :: vs) := by
  cases e <;> rfl

namespace Stepping

mutual

/-- What holds of the steps of translating an expression holds of translating it. -/
theorem expression (h : Stepping d J) (e : Expr) : J e.work (expression d e) := by
  cases e with
  | value v | truth b => exact h.pure _
  | list items => exact h.before (h.expressions items) fun _ => h.pure _
  | name pos n =>
    refine h.after (h.moveTo pos) fun _ => ?_
    cases d
    · exact h.variableValue n
    · exact h.constantValue rfl n
  | attr pos object n =>
    refine h.after (h.moveTo pos) fun _ => ?_
    cases d
    · exact h.attributeValue rfl pos object n
    · exact h.fault _
  | index pos target index =>
    refine h.after (h.moveTo pos) fun _ => h.seq (h.expression target) fun _ => ?_
    exact h.before (h.expression index) fun _ => h.indexed _ _
  | call pos f arguments =>
    refine h.after (h.moveTo pos) fun _ => ?_
    have hall := h.expressions arguments
    cases d
    · exact h.seq hall fun _ => h.callValue rfl f _
    · exact h.fault _
  | concat pos operands =>
    refine h.after (h.moveTo pos) fun _ => h.before (h.expressions operands) fun _ => ?_
    exact h.concatenated _
  | arith pos op operands =>
    refine h.after (h.moveTo pos) fun _ => h.before (h.expressions operands) fun _ => ?_
    exact h.calculated _ _
  | compare pos op operands =>
    refine h.after (h.moveTo pos) fun _ => h.before (h.expressions operands) fun _ => ?_
    exact h.compared _ _
  | logic pos op operands =>
    refine h.after (h.moveTo pos) fun _ => h.before (h.comparands operands) fun _ => ?_
    exact h.combined _ _
  | unknown pos family operands =>
    refine h.after (h.moveTo pos) fun _ => ?_
    split
    · exact h.before (h.comparands operands) fun _ => h.unknownOperation _ _
    · exact h.before (h.expressions operands) fun _ => h.unknownOperation _ _
  | malformed pos f => exact h.after (h.moveTo pos) fun _ => h.fault _

theorem expressions (h : Stepping d J) (es : List Expr) :
    J (Expr.workAll es) (expressions d es) := by
  cases es with
  | nil => exact h.pure _
  | cons e rest =>
    refine h.seq (h.expression e) fun _ => ?_
    exact h.before (h.expressions rest) fun _ => h.pure _

theorem comparands (h : Stepping d J) (es : List Expr) : J (Expr.workAll es) (comparands d es) := by
  cases es with
  | nil => exact h.pure _
  | cons e rest =>
    have hfirst : J e.work (comparand d e) := by
      cases e with
      | truth b => exact h.pure _
      | _ => exact h.expression _
    rw [comparands_cons]
    exact h.seq hfirst fun _ => h.before (h.comparands rest) fun _ => h.pure _

end

end Stepping

/-- No variable has the member that tells clones apart. -/
theorem member_is_clone (pos : Position) (object : Expr) (d : Data) :
    member .field pos object "is_clone" [] d s ≠ .ok v s' := by
  intro h
  obtain ⟨table, t, htable, h⟩ := bind_ok.mp h
  obtain ⟨htable, -⟩ := ofExcept_ok.mp htable
  cases haction : Assoc.get? "is_clone" table with
  | none =>
    simp only [haction] at h
    obtain ⟨_, _, -, _, _, -, h⟩ := bind_bind_ok.mp h
    exact reject_ok.mp h
  | some action =>
    unfold MemberAction.tableOf at htable
    split at htable <;> cases htable <;> cases haction

theorem Looking.attributeValue (h : Looking J)
    (hclone : J [.cloneTest] cloneFlag) (pos : Position) (object : Expr) (name : String) :
    J (Expr.attr pos object name).work (attributeValue pos object name) := by
  refine h.after (h.find? _) fun found => ?_
  rw [Expr.work]
  cases found with
  | some d =>
    split
    · rename_i htest
      obtain rfl : name = "is_clone" := eq_of_beq (Bool.and_eq_true_iff.mp htest).2
      exact h.never fun s v s' => member_is_clone pos object d
    · exact h.member _ _ _ _ _ _
  | none =>
    dsimp only
    split
    · exact hclone
    · exact h.after (h.builtin _ _ _) fun _ => h.ofOutcome _

section

variable {G : List Work → BuildState → BuildState → Prop} [Graded G]

attribute [local instance] Graded.isPreorder

theorem Within.looking : Looking fun w x => Within (G w) x where
  pure := .pure
  seq := .seq
  never h := fun s a s' hrun => (h s a s' hrun).elim
  ask _ h := .get_bind h
  find? key := .of_readOnly (readOnly_find? key)

/-- All that happens while an expression of a setup is translated is moving about. -/
theorem Within.setup [IsPreorder BuildState R]
    (hmove : ∀ p, Within R (moveTo p)) (e : Expr) : Within R (expression .setup e) :=
  Stepping.expression
    { Within.looking (G := fun _ => R) with
      moveTo := hmove
      attributeValue := fun h => by cases h
      callValue := fun h => by cases h
      constantValue := fun _ name => .of_readOnly (readOnly_constantValue name) } e

end

/-- Two steps of building stay within a relation: moving to another position and adding blocks
of some kind to the innermost script. -/
structure Emitting (W : Value → Prop) (R : BuildState → BuildState → Prop) : Prop where
  moveTo : ∀ p, Within R (moveTo p)
  emitAll : ∀ blocks, (∀ block ∈ blocks, W block) → Within R (emitAll blocks)
  calls : ∀ label arguments, W (.call label arguments)

namespace Emitting

theorem emit (h : Emitting W R) (hW : W block) : Within R (emit block) :=
  h.emitAll [block] fun _ hmem => List.mem_singleton.mp hmem ▸ hW

end Emitting

/-- The steps by which expressions are translated stay within a relation: moving to another
position, adding blocks of some kind to the innermost script, and creating the variable that
tells clones apart. -/
structure Writing (W : Value → Prop) (G : List Work → BuildState → BuildState → Prop) : Prop where
  moveTo : ∀ p, Within (G []) (moveTo p)
  emitAll : ∀ blocks, (∀ block ∈ blocks, W block) → Within (G []) (emitAll blocks)
  cloneFlag : Within (G [.cloneTest]) cloneFlag
  calls : ∀ label arguments, W (.call label arguments)
  called : ∀ {f arguments v s s'}, Build.callValue f arguments s = .ok v s' → G [] s s' →
    G [.call f] s s' := by exact fun _ h => h
  run : ∀ {f given callee s s'}, Build.calleeOf f given s = .ok callee s → G [] s s' →
    G [.run f] s s' := by exact fun _ h => h

namespace Writing

variable {W : Value → Prop} {G : List Work → BuildState → BuildState → Prop}

theorem emitting (h : Writing W G) : Emitting W (G []) := ⟨h.moveTo, h.emitAll, h.calls⟩

theorem emit (h : Writing W G) (hW : W block) : Within (G []) (emit block) :=
  h.emitting.emit hW

variable [Graded G]

attribute [local instance] Graded.isPreorder

theorem stepping (h : Writing W G) (d : Dialect) : Stepping d fun w x => Within (G w) x :=
  { Within.looking with
    moveTo := h.moveTo
    attributeValue := fun _ => Within.looking.attributeValue h.cloneFlag
    callValue := fun _ f arguments s v s' hrun => h.called hrun
      (Within.looking.callValue (fun _ _ => h.emit (h.calls _ _)) f arguments s v s' hrun)
    constantValue := fun _ name => .of_readOnly (readOnly_constantValue name) }

theorem expression (h : Writing W G) (d : Dialect) (e : Expr) :
    Within (G e.work) (expression d e) :=
  (h.stepping d).expression e

theorem expressions (h : Writing W G) (d : Dialect) (es : List Expr) :
    Within (G (Expr.workAll es)) (expressions d es) :=
  (h.stepping d).expressions es

theorem condition (h : Writing W G) (e : Expr) : Within (G e.work) (condition e) := by
  refine .before (h.expression _ e) fun _ => ?_
  exact .bind (.require _ _ _) fun _ => .pure _

end Writing

theorem writing_keeps : Writing (fun _ => True) fun _ => Keeps :=
  ⟨keeps_moveTo, fun blocks _ => keeps_emitAll blocks, keeps_cloneFlag, fun _ _ => trivial,
    fun _ h => h, fun _ h => h⟩

/-- Translating an expression changes nothing that names are looked up in. -/
theorem keeps_expression (d : Dialect) (e : Expr) : Within Keeps (expression d e) :=
  writing_keeps.expression d e

theorem keeps_expressions : Within Keeps (expressions d es) :=
  writing_keeps.expressions d es

/-- A function of the script that gives a value has a result and a block, and the block is
called. -/
theorem functionValue_ok (h : functionValue f arguments s = .ok v s') :
    ∃ output signature, f.output = some output ∧ f.signature = some signature ∧
      v = .data output ∧ emit (.call signature.label arguments) s = .ok () s' := by
  unfold functionValue at h
  cases houtput : f.output with
  | none =>
    rw [houtput] at h
    cases h
  | some output =>
    rw [houtput] at h
    cases hsignature : f.signature with
    | none =>
      rw [hsignature] at h
      cases h
    | some signature =>
      rw [hsignature] at h
      obtain ⟨_, hcount, h⟩ := (reads.checkCount _ _ _).bind_ok h
      obtain ⟨_, t₁, hemit, h⟩ := bind_ok.mp h
      obtain ⟨rfl, rfl⟩ := pure_ok.mp h
      exact ⟨output, signature, rfl, rfl, rfl, hemit⟩

end Build

end BlockScript
