import BlockScript.Proofs.Entries
import BlockScript.Proofs.Statements

/-!
The state of a builder between its steps. Its table is tidy, every entry is filed under the
name of its variable, and the current scope is the innermost of the open ones. Every
statement keeps this, leaves the same scopes open, and adds blocks to the script being
written without touching the scripts around it.
-/
namespace BlockScript

theorem Assoc.forall_put {κ υ : Type} [BEq κ] [LawfulBEq κ] {key : κ} {value : υ}
    {table : Assoc κ υ} {P : κ × υ → Prop} (hnew : P (key, value)) (h : ∀ entry ∈ table, P entry) :
    ∀ entry ∈ put key value table, P entry := by
  induction table with
  | nil => exact List.forall_mem_singleton.mpr hnew
  | cons first rest ih =>
    obtain ⟨hfirst, hrest⟩ := List.forall_mem_cons.mp h
    rw [put]
    split
    · rename_i hkey
      exact List.forall_mem_cons.mpr ⟨eq_of_beq hkey ▸ hnew, hrest⟩
    · exact List.forall_mem_cons.mpr ⟨hfirst, ih hrest⟩

theorem Assoc.mem_put {κ υ : Type} [BEq κ] [LawfulBEq κ] {key : κ} {value : υ}
    {table : Assoc κ υ} {entry : κ × υ} (h : entry ∈ put key value table) :
    entry = (key, value) ∨ entry ∈ table :=
  forall_put (P := fun entry => entry = (key, value) ∨ entry ∈ table) (.inl rfl) (fun _ => .inr)
    entry h

namespace Build

open Text

variable {s s' : BuildState}

structure Consistent (s : BuildState) : Prop where
  table : ∃ locals, s.draft.locals? s.frame.place = some locals ∧
    Tidy s.frame.place.isSprite s.frame.lastScope locals ∧
    ∀ entry ∈ locals, entry.2.name = entry.1
  globals : ∀ entry ∈ s.draft.globals, entry.2.name = entry.1
  innermost : s.frame.scopes.head? = some s.frame.currentScope
  bounded : ∀ scope ∈ s.frame.scopes, scope ≤ s.frame.lastScope

/-- Only the tables and the scopes matter. -/
theorem Consistent.congr (h : Consistent s) (hsame : bindings s' = bindings s) : Consistent s' := by
  simp only [bindings, Prod.mk.injEq] at hsame
  obtain ⟨hlocals, hglobals, hplace, hlast, hscopes, hcurrent⟩ := hsame
  constructor
  · rw [hlocals, hplace, hlast]
    exact h.table
  · rw [hglobals]
    exact h.globals
  · rw [hscopes, hcurrent]
    exact h.innermost
  · rw [hscopes, hlast]
    exact h.bounded

theorem Consistent.keeps (h : Consistent s) (hkeeps : Keeps s s') : Consistent s' :=
  h.congr hkeeps.bindings

theorem Consistent.current_le (h : Consistent s) : s.frame.currentScope ≤ s.frame.lastScope :=
  h.bounded _ (List.mem_of_mem_head? (Option.mem_def.mpr h.innermost))

variable {name : String} {d : Data} {value : Value} {constant : Bool}

/-- What a name stands for is filed under the name: as a global, or with a scope. -/
theorem Consistent.find_name (h : Consistent s) (hfind : find? (.ofName name) s = .ok (some d) s) :
    d.name = globalName name ∨ ∃ locals scope, s.draft.locals? s.frame.place = some locals ∧
      d.name = fullName s.frame.place.isSprite scope name ∧ (d.name, d) ∈ locals := by
  obtain ⟨locals, hlocals, htidy, hfiled⟩ := h.table
  obtain ⟨hlookup, -⟩ := (find?_ofName hlocals).mp hfind
  rcases lookup_sound htidy hlookup with hglobal | ⟨scope, -, hlocal⟩
  · exact .inl (h.globals _ hglobal)
  · have hname : d.name = fullName s.frame.place.isSprite scope name := hfiled _ hlocal
    exact .inr ⟨locals, scope, hlocals, hname, hname ▸ hlocal⟩

theorem isGlobalName_globalName (name : String) : isGlobalName (globalName name) = true := by
  simp [isGlobalName, globalName, beginsWith, List.isPrefixOf]

section

variable (h : Consistent s)

include h

/-- Two names stand for two variables. -/
theorem Consistent.find_inj (hfind : find? (.ofName name) s = .ok (some d) s)
    (hfind' : find? (.ofName name') s = .ok (some d') s) (hsame : d.name = d'.name) :
    name = name' := by
  have hkind : ∀ scope own own', globalName own ≠ fullName s.frame.place.isSprite scope own' := by
    intro scope own own' heq
    have hglobal := isGlobalName_globalName own
    rw [heq, isGlobalName_fullName] at hglobal
    cases hglobal
  rcases h.find_name hfind with hname | ⟨_, scope, -, hname, -⟩ <;>
    rcases h.find_name hfind' with hname' | ⟨_, scope', -, hname', -⟩ <;>
    rw [hname, hname'] at hsame
  · exact String.append_right_inj _ |>.mp hsame
  · exact absurd hsame (hkind _ _ _)
  · exact absurd hsame.symm (hkind _ _ _)
  · exact (fullName_inj hsame).2

theorem Consistent.enter (hrun : enterScope s = .ok () s') : Consistent s' := by
  obtain rfl := enterScope_ok.mp hrun
  obtain ⟨locals, hlocals, htidy, hnames⟩ := h.table
  refine ⟨⟨locals, hlocals, htidy.mono (Nat.le_succ _), hnames⟩, h.globals, rfl, ?_⟩
  intro scope hscope
  rcases List.mem_cons.mp hscope with rfl | hscope
  · exact Nat.le_refl _
  · exact Nat.le_succ_of_le (h.bounded scope hscope)

theorem Consistent.exit (hrun : exitScope s = .ok () s') : Consistent s' := by
  obtain ⟨inner, outer, rest, hscopes, rfl⟩ := exitScope_ok.mp hrun
  refine ⟨h.table, h.globals, rfl, fun scope hscope => h.bounded scope ?_⟩
  rw [hscopes]
  exact List.mem_cons_of_mem _ hscope

theorem Consistent.addVariable {type : TypeSet}
    (hrun : addVariable name type value constant s = .ok d s') : Consistent s' := by
  obtain ⟨rfl, hframe, hglobals, -, locals, hlocals, hafter⟩ := addVariable_ok hrun
  obtain ⟨table, htable, htidy, hnames⟩ := h.table
  obtain rfl := Option.some.inj (hlocals.symm.trans htable)
  refine ⟨⟨_, by rw [hframe]; exact hafter, ?_, Assoc.forall_put rfl hnames⟩, ?_, ?_, ?_⟩
  · rw [hframe]
    refine Assoc.forall_put ?_ htidy
    exact tidy_single _ _ _ name _ h.current_le _ (List.mem_singleton.mpr rfl)
  · rw [hglobals]
    exact h.globals
  · rw [hframe]
    exact h.innermost
  · rw [hframe]
    exact h.bounded

end

/-- A variable of the stage that is a global or belongs to no scope. -/
theorem addData_stage_ok (hrun : addData .stage name type value constant s = .ok d s') :
    s'.frame = s.frame ∧ d.name = name ∧ s'.draft.sprites = s.draft.sprites ∧
      s'.draft.project.sprites.map Target.name = s.draft.project.sprites.map Target.name ∧
      (isGlobalName name = true ∧ s'.draft.globals = Assoc.put name d s.draft.globals ∧
          s'.draft.stageLocals = s.draft.stageLocals ∨
        isGlobalName name = false ∧ s'.draft.globals = s.draft.globals ∧
          s'.draft.stageLocals = Assoc.put name d s.draft.stageLocals) := by
  obtain ⟨rfl, hframe, ⟨hkind, hdraft⟩ | ⟨hkind, locals, hlocals, hdraft⟩⟩ := addData_ok hrun
  · rw [hdraft]
    exact ⟨hframe, rfl, rfl, rfl, .inl ⟨hkind, rfl, rfl⟩⟩
  · obtain rfl := Option.some.inj hlocals
    rw [hdraft]
    exact ⟨hframe, rfl, rfl, rfl, .inr ⟨hkind, rfl, rfl⟩⟩

theorem Consistent.addData_stage (h : Consistent s)
    (hname : isGlobalName name = true ∨ unscoped.any (beginsWith · name) = true)
    (hrun : addData .stage name type value constant s = .ok d s') : Consistent s' := by
  obtain ⟨hframe, rfl, hsprites, hnames, htables⟩ := addData_stage_ok hrun
  obtain ⟨locals, hlocals, htidy, hfiled⟩ := h.table
  rcases htables with ⟨-, hglobals, hstage⟩ | ⟨hlocal, hglobals, hstage⟩
  · have hsame := (locals?_congr hsprites hnames hstage s.frame.place).trans hlocals
    refine ⟨⟨locals, by rw [hframe]; exact hsame, by rw [hframe]; exact htidy, hfiled⟩, ?_, ?_, ?_⟩
    · rw [hglobals]
      exact Assoc.forall_put rfl h.globals
    · rw [hframe]
      exact h.innermost
    · rw [hframe]
      exact h.bounded
  · have hkey := hname.resolve_left (by rw [hlocal]; decide)
    refine ⟨?_, by rw [hglobals]; exact h.globals, by rw [hframe]; exact h.innermost,
      by rw [hframe]; exact h.bounded⟩
    rw [hframe]
    cases hplace : s.frame.place with
    | stage =>
      rw [hplace] at hlocals htidy
      obtain rfl := Option.some.inj hlocals
      exact ⟨_, congrArg some hstage, Assoc.forall_put (.inl hkey) htidy,
        Assoc.forall_put rfl hfiled⟩
    | sprite i =>
      rw [hplace] at hlocals htidy
      exact ⟨locals, (locals?_sprite hsprites hnames i).trans hlocals, htidy, hfiled⟩

/-- What a statement does to the builder: it leaves the scopes as they are, writes to the
script in hand only, and keeps the state consistent. -/
structure Advances (s s' : BuildState) : Prop where
  place : s'.frame.place = s.frame.place
  scopes : s'.frame.scopes = s.frame.scopes
  lastScope : s.frame.lastScope ≤ s'.frame.lastScope
  functions : s'.frame.functions = s.frame.functions
  building : s'.frame.building = s.frame.building
  script : ∃ blocks, s'.frame.unfinished = addBlocks blocks s.frame.unfinished
  consistent : Consistent s → Consistent s'

instance : IsPreorder BuildState Advances where
  refl s := ⟨rfl, rfl, Nat.le_refl _, rfl, rfl, ⟨[], by simp⟩, id⟩
  trans a b c h k := by
    obtain ⟨first, h₁⟩ := h.script
    obtain ⟨second, h₂⟩ := k.script
    exact ⟨k.place.trans h.place, k.scopes.trans h.scopes, Nat.le_trans h.lastScope k.lastScope,
      k.functions.trans h.functions, k.building.trans h.building,
      ⟨first ++ second, by rw [h₂, h₁, addBlocks_addBlocks]⟩,
      fun hs => k.consistent (h.consistent hs)⟩

theorem Keeps.advances (h : Keeps s s') : Advances s s' :=
  ⟨h.place, h.scopes, Nat.le_of_eq h.lastScope.symm, h.functions, h.building, h.script,
    fun hs => hs.keeps h⟩

/-- A change of the tables alone. -/
theorem Advances.of_frame (hframe : s'.frame = s.frame) (h : Consistent s → Consistent s') :
    Advances s s' := by
  refine ⟨?_, ?_, ?_, ?_, ?_, ⟨[], ?_⟩, h⟩ <;> simp [hframe]

theorem Within.keeps_advances (h : Within Keeps x) : Within Advances x :=
  h.mono fun _ _ => Keeps.advances

/-- Entering a scope and leaving it after what advances. -/
theorem Advances.inScope (henter : enterScope s = .ok () t) (h : Advances t t')
    (hexit : exitScope t' = .ok () s') : Advances s s' := by
  have hconsistent : Consistent s → Consistent s' :=
    fun hs => (h.consistent (hs.enter henter)).exit hexit
  obtain rfl := enterScope_ok.mp henter
  obtain ⟨_, outer, rest, hscopes, rfl⟩ := exitScope_ok.mp hexit
  rw [h.scopes] at hscopes
  exact ⟨h.place, (List.cons.inj hscopes).2.symm, Nat.le_trans (Nat.le_succ _) h.lastScope,
    h.functions, h.building, h.script, hconsistent⟩

/-- Starting a script and taking it off again after what advances. -/
theorem Advances.inScript (h : Advances { t with frame.unfinished := [] :: t.frame.unfinished } t')
    (hscript : t'.frame.unfinished = blocks :: rest) :
    rest = t.frame.unfinished ∧ Advances t { t' with frame.unfinished := rest } := by
  obtain ⟨written, hwritten⟩ := h.script
  obtain rfl : rest = t.frame.unfinished := by
    rw [hwritten] at hscript
    exact (List.cons.inj hscript).2.symm
  refine ⟨rfl, h.place, h.scopes, h.lastScope, h.functions, h.building, ⟨[], by simp⟩, ?_⟩
  intro ht
  exact (h.consistent (ht.congr rfl)).congr rfl

/-- A script of its own leaves no trace but its blocks. -/
theorem inScript_advances (hstep : Within Advances step)
    (hrun : inScript ownScope step s = .ok blocks s') :
    Advances s s' ∧ s'.frame.unfinished = s.frame.unfinished := by
  obtain ⟨t, t₁, t₂, rest, hopen, hwrite, hclose, hscript, rfl⟩ := inScript_ok.mp hrun
  have hinner := hstep _ _ _ hwrite
  cases ownScope with
  | true =>
    obtain ⟨inner, outer, scopes, hscopes, rfl⟩ := exitScope_ok.mp hclose
    obtain ⟨hrest, hadvances⟩ := hinner.inScript hscript
    refine ⟨Advances.inScope hopen hadvances ?_, hrest.trans ?_⟩
    · exact exitScope_ok.mpr ⟨inner, outer, scopes, hscopes, rfl⟩
    · rw [← enterScope_ok.mp hopen]
  | false =>
    obtain ⟨-, rfl⟩ := pure_ok.mp hopen
    obtain ⟨-, rfl⟩ := pure_ok.mp hclose
    obtain ⟨hrest, hadvances⟩ := hinner.inScript hscript
    exact ⟨hadvances, hrest⟩

section

theorem readOnly_requireLiteralIndex (index : Value) : ReadOnly (requireLiteralIndex index) := by
  unfold requireLiteralIndex
  split
  · split
    · exact .reject _
    · exact .pure _
  · exact .reject _
  · exact .pure _

theorem readOnly_requireBroadcastName (v : Value) : ReadOnly (requireBroadcastName v) := by
  unfold requireBroadcastName
  split
  · exact .fault _
  · split
    · exact .fault _
    · exact .pure _

theorem checkCount_ok {required given : Nat} (h : checkCount 0 required given s = .ok u s') :
    given = required := by
  rw [checkCount, if_pos rfl] at h
  split at h
  · rename_i hsame
    exact Int.ofNat_inj.mp hsame
  · cases h

/-- The function of the script that a call statement names. -/
theorem customCallee_ok (h : customCallee f given s = .ok callee s') : s = s' ∧ (callee = .unknown ∨
      ∃ p n function signature, f = .name p n ∧ Assoc.get? n s.frame.functions = some function ∧
        function.signature = some signature ∧ callee = .custom signature ∧
        given = signature.parameters) := by
  unfold customCallee at h
  split at h
  iterate 3 cases h
  · rename_i p n
    rw [get_bind_ok] at h
    cases hfunction : Assoc.get? n s.frame.functions with
    | none =>
      simp only [hfunction] at h
      obtain ⟨rfl, rfl⟩ := pure_ok.mp h
      exact ⟨rfl, .inl rfl⟩
    | some function =>
      simp only [hfunction] at h
      cases hsignature : function.signature with
      | none =>
        simp only [hsignature] at h
        cases h
      | some signature =>
        simp only [hsignature] at h
        obtain ⟨_, hcount, h⟩ := (reads.checkCount _ _ _).bind_ok h
        obtain ⟨rfl, rfl⟩ := pure_ok.mp h
        exact ⟨rfl, .inr ⟨p, n, function, signature, rfl, hfunction, hsignature, rfl,
          checkCount_ok hcount⟩⟩
  · obtain ⟨rfl, rfl⟩ := pure_ok.mp h
    exact ⟨rfl, .inl rfl⟩

/-- What a call statement runs: a name of the language before a function of the script. -/
theorem calleeOf_ok (h : calleeOf f given s = .ok callee s') : s = s' ∧
      ((∃ entry, Builtins.functions.resolve f = some (.entry entry) ∧
          (entry.spriteOnly = true → s.frame.place.isSprite = true) ∧
          callee = .builtin entry.builtin) ∨
        Builtins.functions.resolve f = none ∧ (callee = .unknown ∨
          ∃ p n function signature, f = .name p n ∧
            Assoc.get? n s.frame.functions = some function ∧
            function.signature = some signature ∧ callee = .custom signature ∧
            given = signature.parameters)) := by
  obtain ⟨found, hfound, h⟩ := (reads.builtin? _ _ _).bind_ok h
  cases found with
  | none =>
    obtain ⟨rfl, hcallee⟩ := customCallee_ok h
    exact ⟨rfl, .inr ⟨builtin?_none hfound, hcallee⟩⟩
  | some b =>
    obtain ⟨_, hcount, h⟩ := (reads.checkCount _ _ _).bind_ok h
    obtain ⟨rfl, rfl⟩ := pure_ok.mp h
    obtain ⟨entry, hentry, rfl, hallowed⟩ := builtin?_ok hfound
    exact ⟨rfl, .inl ⟨entry, hentry, hallowed, rfl⟩⟩

theorem readOnly_calleeOf : ReadOnly (calleeOf f given) :=
  fun _ _ _ h => (calleeOf_ok h).1

/-- What is found does not change where the tables and the scopes do not. -/
theorem find?_iff_of_bindings (hsame : bindings s' = bindings s) :
    find? key s' = .ok found s' ↔ find? key s = .ok found s := by
  simp only [bindings, Prod.mk.injEq] at hsame
  obtain ⟨hlocals, hglobals, hplace, -, hscopes, hcurrent⟩ := hsame
  simp only [find?_ok, and_true]
  rw [hlocals, hglobals, hplace, hscopes, hcurrent]

theorem Keeps.find?_iff (h : Keeps s s') :
    find? key s' = .ok found s' ↔ find? key s = .ok found s := find?_iff_of_bindings h.bindings

theorem Keeps.find? (h : Keeps s s') (hfind : find? key s = .ok found s) :
    find? key s' = .ok found s' :=
  h.find?_iff.mpr hfind

/-- A variable of the name that an expression stands for. -/
def declareWork (target : Expr) (type : TypeSet) (value : Option Expr) (constant : Bool) :
    List Work :=
  (value.map Expr.work).getD [] ++ match target.plainName with
    | .ok name => [.declare name type constant]
    | .error _ => []

/-- The value of an assignment to an item is translated twice. -/
def assignWork : Expr → Expr → List Work
  | .index _ list index, value => value.work ++ (list.work ++ (index.work ++ value.work))
  | _, value => value.work

def updateWork : Expr → Expr → List Work
  | .index _ _ index, operand => operand.work ++ index.work
  | _, operand => operand.work

mutual

/-- The work of building a statement. A value that is given back is translated in functions
only. -/
def work (inFunction : Bool) : Stmt → List Work
  | .declare _ target type value constant => declareWork target type value constant
  | .assign _ target value => assignWork target value
  | .update _ _ target operand => updateWork target operand
  | .call _ f arguments => Expr.workAll arguments ++ [.run f]
  | .ifThen _ c body => c.work ++ workAll inFunction body
  | .ifElse _ c body alternative =>
    c.work ++ (workAll inFunction body ++ workAll inFunction alternative)
  | .whileLoop _ c body => workAll inFunction body ++ c.work
  | .forLoop _ start c next body =>
    work inFunction start ++ ((workAll inFunction body ++ work inFunction next) ++ c.work)
  | .giveBack _ (some e) => if inFunction then e.work else []
  | _ => []

def workAll (inFunction : Bool) : List Stmt → List Work
  | [] => []
  | stmt :: rest => work inFunction stmt ++ workAll inFunction rest

end

/-- The steps by which statements are built stay within a relation: those of expressions,
declaring a variable of an unused name, making a broadcast known, and what is done in a scope
or a script of its own. The work is told apart inside functions only, or outside them only. -/
structure Working (inFunction : Bool) (G : List Work → BuildState → BuildState → Prop) : Prop
    extends Writing (fun _ => True) G where
  declare : ∀ {s s' name type value constant d}, Build.find? (.ofName name) s = .ok none s →
    Build.addVariable name type value constant s = .ok d s' → G [.declare name type constant] s s'
  broadcast : ∀ name, Within (G []) (broadcastNamed name)
  scope : ∀ {w s t t' s'}, enterScope s = .ok () t → G w t t' → exitScope t' = .ok () s' → G w s s'
  script : ∀ {w t t' blocks rest}, G w { t with frame.unfinished := [] :: t.frame.unfinished } t' →
    t'.frame.unfinished = blocks :: rest → G w t { t' with frame.unfinished := rest }
  elsewhere : ∀ (e : Expr) s s', (s.frame.building != "") ≠ inFunction →
    (G e.work s s' ↔ G [] s s')

/-- Building statements stays within a relation, whatever work is done. -/
abbrev Building (R : BuildState → BuildState → Prop) : Prop := Working false fun _ => R

section

variable {b : Bool} {w : List Work} {G : List Work → BuildState → BuildState → Prop}

theorem Working.emit (h : Working b G) (block : Value) : Within (G []) (emit block) :=
  h.toWriting.emit trivial

/-- A script of its own, in a scope of its own if asked for. -/
theorem Working.inScript (h : Working b G) (ownScope : Bool)
    (hstep : Within (G w) step) : Within (G w) (inScript ownScope step) := by
  intro s blocks s' hrun
  obtain ⟨t, t₁, t₂, rest, hopen, hwrite, hclose, hscript, rfl⟩ := inScript_ok.mp hrun
  have hinner := hstep _ _ _ hwrite
  cases ownScope with
  | true =>
    obtain ⟨inner, outer, scopes, hscopes, rfl⟩ := exitScope_ok.mp hclose
    refine h.scope hopen (h.script hinner hscript) ?_
    exact exitScope_ok.mpr ⟨inner, outer, scopes, hscopes, rfl⟩
  | false =>
    obtain ⟨-, rfl⟩ := pure_ok.mp hopen
    obtain ⟨-, rfl⟩ := pure_ok.mp hclose
    exact h.script hinner hscript

theorem Building.inScript (h : Building R) (ownScope : Bool)
    (hstep : Within R step) : Within R (inScript ownScope step) :=
  Working.inScript (w := []) h ownScope hstep

/-- A step that is reached only if a variable is no constant. -/
theorem Within.mutable
    (hf : d.constant = false → ∀ u, Within R (f u)) : Within R (requireMutable d >>= f) := by
  intro s a s' h
  obtain ⟨u, hmutable, h⟩ := (readOnly_requireMutable d).bind_ok h
  exact hf (gives_requireMutable _ _ _ _ hmutable) u s a s' h

variable [IsPreorder BuildState R]

/-- The variables that an assignment can reach from a state: those that are found by a name,
and those that the expression before an index stands for. -/
inductive Reaches (s : BuildState) : Expr → Data → Prop
  | named {t : BuildState} {target : Expr} {name : String} {d : Data} (hkeeps : Keeps s t)
      (hfind : find? (.ofName name) t = .ok (some d) t) : Reaches s target d
  | indexed {t t' : BuildState} {pos : Position} {list index : Expr} {d : Data}
      (hkeeps : Keeps s t) (hlist : expression .script list t = .ok (.data d) t') :
      Reaches s (.index pos list index) d

theorem Reaches.of_keeps {target : Expr} (hkeeps : Keeps s t)
    (h : Reaches t target d) : Reaches s target d := by
  cases h with
  | named h hfind => exact .named (chain hkeeps h) hfind
  | indexed h hlist => exact .indexed (chain hkeeps h) hlist

/-- What a call statement runs, if it is a name of the language, is in the table of functions. -/
theorem gives_calleeOf {P : Builtin → Prop} (hall : Builtins.functions.All fun e => P e.builtin)
    (f : Expr) (given : Nat) :
    Gives (fun callee => ∀ b, callee = .builtin b → P b) (calleeOf f given) := by
  rintro s callee s' h b rfl
  rcases (calleeOf_ok h).2 with ⟨entry, hentry, -, hb⟩ | ⟨-, hb | ⟨_, _, _, _, -, -, -, hb, -⟩⟩
  · cases hb
    exact hall.resolve f hentry
  all_goals cases hb

/-- A function of a variable changes the variable. -/
theorem gives_member :
    Gives (fun block => block.changes = [d]) (member .function pos object name arguments d) := by
  refine .bind (.ofExcept _) fun table htable => ?_
  split
  · rename_i action haction
    intro s block s' hrun
    obtain ⟨hblock, -⟩ := ofExcept_ok.mp hrun
    exact MemberAction.changes_apply (MemberAction.isChange_function htable haction) hblock
  · exact .bind (.any _) fun _ _ => .bind (.any _) fun _ _ => .reject

/-- Runs what a call statement calls, if it is known. -/
def runCallee (callee : Callee) (values : List Value) : Build Unit := do
  match callee with
  | .unknown => reject (.notFound .function)
  | _ =>
    requireScript
    emit (← callee.apply values)

namespace Emitting

section

variable (h : Emitting W R)

include h

theorem emitBuiltin (hW : Allows W [])
    {b : Builtin} (hb : b.inert = true) (arguments : List Value) :
    Within R (do requireScript; Build.emit (← ofOutcome (b.apply arguments))) := by
  refine .bind .requireScript fun _ => ?_
  refine .bind_of_gives (.ofOutcome _) (.ofOutcome _) fun block hblock => ?_
  exact h.emit (hW _ (Builtin.changes_apply hb hblock))

theorem assignAttribute (hW : Allows W [])
    (target : Expr) (v : Value) : Within R (assignAttribute target v) := by
  refine .bind_of_gives (.of_readOnly (reads.builtin _ _ _)) (gives_builtin _ setters_inert _) ?_
  rintro b ⟨entry, hentry, rfl⟩
  exact h.emitBuiltin hW hentry _

theorem updateAttribute (hW : Allows W []) (op : UpdateOp) (target : Expr) (operand : Value) :
    Within R (updateAttribute op target operand) := by
  refine .bind_of_gives (.of_readOnly (reads.builtin _ _ _)) (gives_builtin _ setters_inert _) ?_
  rintro setter ⟨entry, hentry, rfl⟩
  split
  · refine .bind (.ofOutcome _) fun current => .bind (.ofExcept _) fun w => ?_
    refine .bind (.ofExcept _) fun type => ?_
    refine .bind (.of_readOnly readOnly_checkAssignment) fun _ => ?_
    exact h.emitBuiltin hW hentry _
  · exact .fault _

theorem changeVariable (hW : Allows W [d])
    (f : Expr) (arguments : List Value) : Within R (changeVariable f arguments d) := by
  refine .bind .requireScript fun _ => ?_
  split
  · refine .bind_of_gives (.of_readOnly (reads.member _ _ _ _ _ _)) gives_member ?_
    intro block hblock
    exact h.emit (hW _ hblock)
  · exact .fault _

theorem runCallee (hW : Allows W [])
    {callee : Callee} (hcallee : ∀ b, callee = .builtin b → b.inert = true) (values : List Value) :
    Within R (runCallee callee values) := by
  cases callee with
  | unknown => exact .reject _
  | builtin b => exact h.emitBuiltin hW (hcallee b rfl) values
  | custom signature =>
    refine .bind .requireScript fun _ => ?_
    rw [Callee.apply, pure_bind]
    exact h.emit (h.calls _ _)

theorem callKnown (hW : Allows W [])
    (hstore : isBroadcast f = true → ∀ arguments, Within R (storeMessage arguments))
    (hcallee : ∀ b, callee = .builtin b → b.inert = true) (arguments : List Value) :
    Within R (callKnown f callee arguments) := by
  unfold Build.callKnown
  split
  iterate 4 exact .fault _
  · by_cases hbroadcast : isBroadcast f = true
    · rw [if_pos hbroadcast]
      exact .bind (hstore hbroadcast _) (h.runCallee hW hcallee)
    · rw [if_neg hbroadcast]
      exact .bind (.pure _) (h.runCallee hW hcallee)

end

end Emitting

namespace Writing

variable {W : Value → Prop} [Graded G]

attribute [local instance] Graded.isPreorder

theorem assignItem (h : Writing W G) {list index value : Expr}
    (hW : ∀ d t, Build.expression .script list s = .ok (.data d) t → d.constant = false → Allows W [d])
    (hrun : assignItem list index value s = .ok () s') :
    G (list.work ++ (index.work ++ value.work)) s s' := by
  obtain ⟨v, t, hlist, hrun⟩ := bind_ok.mp hrun
  refine Graded.trans (h.expression _ _ _ _ _ hlist) ((?_ : Within (G _) _) t () s' hrun)
  cases v with
  | data d =>
    refine .mutable fun hd _ => ?_
    refine .seq (h.expression _ _) fun i => .before (h.expression _ _) fun v => ?_
    refine .bind (.require _ _ _) fun _ => .bind (.require _ _ _) fun _ => ?_
    refine .bind (.of_readOnly (readOnly_requireLiteralIndex i)) fun _ => ?_
    refine .bind .requireScript fun _ => .bind (.ofExcept _) fun place => ?_
    exact h.emit (hW d t hlist hd _ rfl)
  | _ => exact .fault_bind

variable {target : Expr}

section

variable (h : Writing W G)

include h

/-- An assignment changes a variable that it reaches and that is no constant. -/
theorem assignTo (hnil : Allows W [])
    {value : Expr} (hW : ∀ d, Reaches s target d → d.constant = false → Allows W [d])
    (hrun : assignTo target value s = .ok () s') : G (assignWork target value) s s' := by
  obtain ⟨p, -, hrun⟩ := ofExcept_bind_ok.mp hrun
  obtain ⟨_, t, hmove, v, t₁, hvalue, hrun⟩ := bind_bind_ok.mp hrun
  have hkeeps : Keeps s t₁ :=
    chain (keeps_moveTo _ _ _ _ hmove) (keeps_expression _ _ _ _ _ hvalue)
  have hvalue : G value.work s t₁ :=
    Graded.lead (h.moveTo _ _ _ _ hmove) (h.expression _ _ _ _ _ hvalue)
  cases target with
  | attr pos object name =>
    exact Graded.stay hvalue (h.emitting.assignAttribute hnil _ _ _ _ _ hrun)
  | index pos list index =>
    exact Graded.trans hvalue
      (h.assignItem (fun d t₂ hlist hd => hW d (.indexed hkeeps hlist) hd) hrun)
  | _ =>
    obtain ⟨name, -, hrun⟩ := ofExcept_bind_ok.mp hrun
    obtain ⟨found, hfind, hrun⟩ := (readOnly_find? _).bind_ok hrun
    cases found with
    | none => cases hrun
    | some d =>
      refine Graded.stay hvalue ((?_ : Within (G []) _) t₁ () s' hrun)
      exact .mutable fun hd _ => h.emitting.assign (hW d (.named hkeeps hfind) hd) v

/-- Updating changes a variable that is found by its name and that is no constant. -/
theorem update (hnil : Allows W [])
    (hW : ∀ d, Reaches s target d → d.constant = false → Allows W [d])
    (hrun : update op target operand s = .ok () s') : G (updateWork target operand) s s' := by
  obtain ⟨v, t, hvalue, hrun⟩ := bind_ok.mp hrun
  have hkeeps : Keeps s t := keeps_expression _ _ _ _ _ hvalue
  have hvalue := h.expression _ _ _ _ _ hvalue
  cases target with
  | name pos n =>
    obtain ⟨d, _, hnamed, hrun⟩ := bind_ok.mp hrun
    obtain ⟨hfind, rfl⟩ := variableNamed_ok hnamed
    refine Graded.stay hvalue ((?_ : Within (G []) _) t () s' hrun)
    refine .mutable fun hd _ => .bind (.ofExcept _) fun w => ?_
    refine .bind (.of_readOnly readOnly_checkAssignment) fun _ => ?_
    exact h.emit (hW d (.named hkeeps hfind) hd _ rfl)
  | index pos list index =>
    obtain ⟨n, -, hrun⟩ := ofExcept_bind_ok.mp hrun
    obtain ⟨d, _, hnamed, hrun⟩ := bind_ok.mp hrun
    obtain ⟨hfind, rfl⟩ := variableNamed_ok hnamed
    refine Graded.trans hvalue ((?_ : Within (G _) _) t () s' hrun)
    refine .mutable fun hd _ => ?_
    refine .before (h.expression _ _) fun i => .bind (.ofExcept _) fun place => ?_
    refine .bind (.require _ _ _) fun _ => .bind (.ofExcept _) fun w => ?_
    exact h.emit (hW d (.named hkeeps hfind) hd _ rfl)
  | attr pos object name =>
    exact Graded.stay hvalue (h.emitting.updateAttribute hnil _ _ _ _ _ _ hrun)
  | value | truth | list => cases hrun
  | malformed pos f =>
    cases f with
    | missingField => cases hrun
    | _ => exact (pure_ok.mp hrun).2 ▸ hvalue
  | _ => exact (pure_ok.mp hrun).2 ▸ hvalue

theorem storeResult (hW : ∀ d, output = some d → Allows W [d]) (e : Expr) :
    Within (G e.work) (storeResult output e) := by
  refine .before (h.expression _ _) fun v => ?_
  split
  · split
    · exact .reject _
    · exact .fault _
  · rename_i d
    refine .bind (.ofExcept _) fun type => .bind (.ofExcept _) fun found => ?_
    split
    · exact .reject _
    · exact h.emit (hW d rfl _ rfl)

/-- Giving a value back changes the result of the function being built and nothing else. -/
theorem giveBack (hW : Allows W [])
    (hresult : ∀ function d, Assoc.get? s.frame.building s.frame.functions = some function →
      function.output = some d → Allows W [d])
    {value : Option Expr} {u : Unit} (hrun : giveBack value s = .ok u s') :
    G (if s.frame.building != "" then (value.map Expr.work).getD [] else []) s s' := by
  have hstop : Within (G []) (Build.emit (.op .stop [.str "this_script"])) := h.emit (hW _ rfl)
  rw [Build.giveBack, get_bind_ok] at hrun
  generalize s.frame = f at hresult hrun ⊢
  refine (?_ : Within (G _) _) s u s' hrun
  cases value with
  | none => simpa using hstop
  | some e =>
    dsimp only
    split
    · split
      · rename_i function hfunction
        exact .before (h.storeResult (hresult function · hfunction) e) fun _ => hstop
      · exact .fault_bind
    · exact hstop

/-- A call statement that is no function of a variable runs a known block. -/
theorem callStatement (hW : Allows W [])
    (hstore : isBroadcast f = true → ∀ arguments, Within (G []) (storeMessage arguments))
    (hchange : ∀ t t' values d, Keeps s t → find? (objectKey f) t = .ok (some d) t →
      Build.changeVariable f values d t = .ok () t' → G [] t t')
    (hrun : callStatement f arguments s = .ok () s') :
    G (Expr.workAll arguments ++ [.run f]) s s' := by
  obtain ⟨values, t, hvalues, hrun⟩ := bind_ok.mp hrun
  obtain ⟨callee, hcallee, hrun⟩ := (readOnly_calleeOf).bind_ok hrun
  refine Graded.trans (h.expressions _ _ _ _ _ hvalues) (h.run hcallee ?_)
  have hknown : Within (G []) (Build.callKnown f callee values) :=
    h.emitting.callKnown hW hstore (gives_calleeOf functions_inert _ _ _ _ _ hcallee) values
  cases callee with
  | builtin b | custom signature => exact hknown _ _ _ hrun
  | unknown =>
    obtain ⟨found, hfind, hrun⟩ := (readOnly_find? _).bind_ok hrun
    cases found with
    | none => exact hknown _ _ _ hrun
    | some d => exact hchange _ _ _ _ (keeps_expressions _ _ _ hvalues) hfind hrun

end

theorem work_startValue (h : startValue? type = some e) : e.work = [] := by
  unfold startValue? at h
  repeat' split at h
  all_goals cases h
  all_goals rfl

/-- A declaration changes the variable that it declares. -/
theorem declareVariable (h : Writing W G) {type : TypeSet} {value : Option Expr}
    {constant : Bool} (hdeclare : ∀ t t' name start d, Keeps s t → target.plainName = .ok name →
      find? (.ofName name) t = .ok none t → addVariable name type start constant t = .ok d t' →
      G [.declare name type constant] t t' ∧ Allows W [d])
    (hrun : declareVariable target type value constant s = .ok () s') :
    G (declareWork target type value constant) s s' := by
  obtain ⟨name, e, start, v, d, t, t', hname, hunused, he, -, hvalue, hadd, hassign⟩ :=
    declareVariable_ok hrun
  have hkeeps := keeps_expression _ _ _ _ _ hvalue
  obtain ⟨hG, hW⟩ := hdeclare _ _ _ _ _ hkeeps hname (hkeeps.find? hunused) hadd
  have hwork : (value.map Expr.work).getD [] = e.work := by
    cases value with
    | some own =>
      obtain rfl : own = e := Option.some.inj he
      rfl
    | none => exact (work_startValue (he : startValue? type = some e)).symm
  rw [declareWork, hname, hwork]
  exact Graded.stay (Graded.trans (h.expression _ _ _ _ _ hvalue) hG)
    (h.emitting.assign hW _ _ _ _ hassign)

end Writing

/-- A counted loop starts with a declaration. -/
theorem startLoop_ok (h : startLoop start s = .ok () s') :
    ∃ pos target type value constant, start = .declare pos target type value constant ∧
      declareVariable target type value constant s = .ok () s' := by
  unfold startLoop at h
  split at h
  · exact ⟨_, _, _, _, _, rfl, h⟩
  iterate 3
    obtain ⟨_, _, -, h⟩ := bind_ok.mp h
    cases h
  all_goals cases h

namespace Working

variable [Graded G]

attribute [local instance] Graded.isPreorder

section

variable (h : Working b G)

include h

theorem declareVariable (target : Expr) (type : TypeSet) (value : Option Expr)
    (constant : Bool) :
    Within (G (declareWork target type value constant))
      (declareVariable target type value constant) := by
  intro s u s' hrun
  refine h.toWriting.declareVariable ?_ hrun
  intro t t' name start d _ _ hunused hadd
  exact ⟨h.declare hunused hadd, fun _ _ => trivial⟩

theorem startLoop (start : Stmt) :
    Within (G (work b start)) (startLoop start) := by
  intro s u s' hrun
  obtain ⟨pos, target, type, value, constant, rfl, hdeclare⟩ := startLoop_ok hrun
  exact h.declareVariable target type value constant _ _ _ hdeclare

theorem storeMessage (arguments : List Value) :
    Within (G []) (storeMessage arguments) := by
  unfold Build.storeMessage
  split
  · exact .fault _
  · exact .bind (h.broadcast _) fun b => .bind (h.emit _) fun _ => .pure _

theorem callStatement (f : Expr) (arguments : List Expr) :
    Within (G (Expr.workAll arguments ++ [.run f])) (callStatement f arguments) := by
  intro s u s' hrun
  refine h.toWriting.callStatement (fun _ _ => trivial) (fun _ => h.storeMessage) ?_ hrun
  intro t t' values d _ _ hchange
  exact h.emitting.changeVariable (fun _ _ => trivial) f values _ _ _ hchange

theorem giveBack (pos : Position) (value : Option Expr) :
    Within (G (work b (.giveBack pos value))) (giveBack value) := by
  intro s u s' hrun
  have hback := h.toWriting.giveBack (fun _ _ => trivial) (fun _ _ _ _ _ _ => trivial) hrun
  cases value with
  | none => simpa [work] using hback
  | some e =>
    rw [work]
    have helse := h.elsewhere e s s'
    generalize (s.frame.building != "") = inside at hback helse
    cases inside <;> cases b
    · exact hback
    · exact (helse (by decide)).mpr hback
    · exact (helse (by decide)).mp hback
    · exact hback

end

mutual

/-- Building a statement stays within what its steps stay within. -/
theorem statement (h : Working b G) (stmt : Stmt) : Within (G (work b stmt)) (statement stmt) := by
  cases stmt with
  | declare pos target type value constant =>
    exact .after (h.moveTo pos) fun _ => h.declareVariable _ _ _ _
  | assign pos target value =>
    refine .after (h.moveTo pos) fun _ s u s' hrun => ?_
    exact h.toWriting.assignTo (fun _ _ => trivial) (fun _ _ _ _ _ => trivial) hrun
  | update pos op target operand =>
    refine .after (h.moveTo pos) fun _ s u s' hrun => ?_
    exact h.toWriting.update (fun _ _ => trivial) (fun _ _ _ _ _ => trivial) hrun
  | call pos f arguments => exact .after (h.moveTo pos) fun _ => h.callStatement _ _
  | ifThen pos c body =>
    refine .after (h.moveTo pos) fun _ => .seq (h.condition c) fun c => ?_
    exact .before (h.inScript true (h.statements body)) fun body => h.emit _
  | ifElse pos c body alternative =>
    refine .after (h.moveTo pos) fun _ => .seq (h.condition c) fun c => ?_
    refine .seq (h.inScript true (h.statements body)) fun body => ?_
    exact .before (h.inScript true (h.statements alternative)) fun _ => h.emit _
  | whileLoop pos c body =>
    intro s u s' hrun
    obtain ⟨_, t, hmove, inner, t₁, hinner, hrun⟩ := bind_bind_ok.mp hrun
    have hloop : G c.work t₁ s' := by
      split at hrun
      · exact h.emit _ _ _ _ hrun
      · refine Within.before (h.condition c) (fun c => ?_) _ _ _ hrun
        exact .bind .requireScript fun _ => .bind (.ofExcept _) fun _ => h.emit _
    exact Graded.lead (h.moveTo pos _ _ _ hmove)
      (Graded.trans (h.inScript true (h.statements body) _ _ _ hinner) hloop)
  | forLoop pos start c next body =>
    intro s u s' hrun
    rw [Build.statement] at hrun
    obtain ⟨_, t, hmove, _, t₁, henter, hrun⟩ := bind_bind_ok.mp hrun
    obtain ⟨_, t₂, hstart, inner, t₃, hinner, hrun⟩ := bind_bind_ok.mp hrun
    obtain ⟨v, t₄, hcond, _, t₅, hscript, hrun⟩ := bind_bind_ok.mp hrun
    obtain ⟨-, rfl⟩ := requireScript_ok.mp hscript
    obtain ⟨w, -, hrun⟩ := ofExcept_bind_ok.mp hrun
    obtain ⟨_, t₇, hemit, hexit⟩ := bind_ok.mp hrun
    have hbody : G (workAll b body ++ work b next) t₂ t₃ := by
      refine h.inScript false (.seq (h.statements body) fun _ => ?_) _ _ _ hinner
      exact h.statement next
    have hloop : G (work b start ++ ((workAll b body ++ work b next) ++ c.work)) t₁ t₇ :=
      Graded.trans (h.startLoop start _ _ _ hstart) (Graded.trans hbody
        (Graded.stay (h.condition c _ _ _ hcond) (h.emit _ _ _ _ hemit)))
    exact Graded.lead (h.moveTo pos _ _ _ hmove) (h.scope henter hloop hexit)
  | giveBack pos value => exact .after (h.moveTo pos) fun _ => h.giveBack pos value
  | bare word => exact .fault _
  | _ => exact .after (h.moveTo _) fun _ => .fault _

theorem statements (h : Working b G) (stmts : List Stmt) :
    Within (G (workAll b stmts)) (statements stmts) := by
  cases stmts with
  | nil => exact (.pure _ : Within (G []) _)
  | cons stmt rest => exact .seq (h.statement stmt) fun _ => h.statements rest

end

end Working

end

theorem advances_addVariable (name : String) (type : TypeSet) (value : Value) (constant : Bool) :
    Within Advances (addVariable name type value constant) := by
  intro s d s' h
  obtain ⟨-, hframe, -⟩ := addVariable_ok h
  exact .of_frame hframe fun hs => hs.addVariable h

theorem advances_addData_stage
    (hname : isGlobalName name = true ∨ unscoped.any (beginsWith · name) = true) :
    Within Advances (addData .stage name type value constant) := by
  intro s d s' h
  obtain ⟨hframe, -⟩ := addData_stage_ok h
  exact .of_frame hframe fun hs => hs.addData_stage hname h

/-- A broadcast is known already, or its message is created. -/
theorem broadcastNamed_ok {name : Value} {b : Broadcast} (h : broadcastNamed name s = .ok b s') :
    (s' = s ∧ b ∈ s.draft.broadcasts ∧ b.name.same name = true) ∨ ∃ text t, b.name = name ∧
      addData .stage ("br_" ++ text) .message (.str "") false s = .ok b.message t ∧
      s'.frame = t.frame ∧ s'.draft = { t.draft with broadcasts := t.draft.broadcasts ++ [b] } := by
  obtain ⟨_, hname, h⟩ := (readOnly_requireBroadcastName _).bind_ok h
  rw [get_bind_ok] at h
  cases hfind : s.draft.broadcasts.find? fun b => b.name.same name with
  | some known =>
    simp only [hfind] at h
    obtain ⟨rfl, rfl⟩ := pure_ok.mp h
    exact .inl ⟨rfl, List.mem_of_find?_eq_some hfind,
      List.find?_some (p := fun b : Broadcast => b.name.same name) hfind⟩
  | none =>
    simp only [hfind] at h
    obtain ⟨text, -, h⟩ := ofExcept_bind_ok.mp h
    obtain ⟨message, t₂, hadd, h⟩ := bind_ok.mp h
    have h := modifyDraft_bind_ok.mp h
    obtain ⟨_, t₄, hdebug, h⟩ := bind_ok.mp h
    obtain ⟨hdraft, hframe, -⟩ := debug_ok hdebug
    obtain ⟨rfl, rfl⟩ := pure_ok.mp h
    exact .inr ⟨text, t₂, rfl, hadd, hframe, hdraft⟩

theorem isGlobalName_message (text : String) : isGlobalName ("br_" ++ text) = true := by
  simp [isGlobalName, beginsWith, List.isPrefixOf]

/-- Broadcasting creates the message, and after that it only makes the broadcast known. -/
theorem Within.broadcastNamed {R : BuildState → BuildState → Prop} [IsPreorder BuildState R]
    (hadd : ∀ text, Within R (addData .stage ("br_" ++ text) .message (.str "") false))
    (hknown : ∀ {s s' : BuildState} {known : List Broadcast}, s'.frame = s.frame →
      s'.draft = { s.draft with broadcasts := known } → R s s') (name : Value) :
    Within R (broadcastNamed name) := by
  intro s b s' h
  rcases broadcastNamed_ok h with ⟨rfl, -⟩ | ⟨text, t, -, hcreated, hframe, hdraft⟩
  · exact refl _
  · exact chain (hadd text _ _ _ hcreated) (hknown hframe hdraft)

theorem advances_broadcastNamed (name : Value) : Within Advances (broadcastNamed name) := by
  refine .broadcastNamed (fun text => advances_addData_stage
    (.inl (isGlobalName_message text))) (fun hframe hdraft => .of_frame hframe fun hs => ?_) name
  exact hs.congr (by rw [bindings, hdraft, hframe]; rfl)

theorem building_advances : Building Advances where
  moveTo p := (keeps_moveTo p).keeps_advances
  emitAll blocks _ := (keeps_emitAll blocks).keeps_advances
  cloneFlag := keeps_cloneFlag.keeps_advances
  calls _ _ := trivial
  declare _ h := advances_addVariable _ _ _ _ _ _ _ h
  broadcast := advances_broadcastNamed
  scope := Advances.inScope
  script h hscript := (h.inScript hscript).2
  elsewhere _ _ _ _ := .rfl

/-- Every statement leaves the scopes as they are and writes to the script in hand. -/
theorem advances_statements (stmts : List Stmt) : Within Advances (statements stmts) :=
  building_advances.statements stmts

end

end Build

end BlockScript
