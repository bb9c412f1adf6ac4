import BlockScript.Proofs.Declaring

/-!
Runs of a builder that enters scopes, leaves them and declares variables, in any order.
The variables declared so far are logged with the number of the scope they were declared
in. Along every run the table of the target is the log with the scopes written into the
names, so a name stands for the variable of that name that was declared in a scope that
is still open, and for nothing else.
-/
namespace BlockScript.Build

open Text

/-- A variable that was declared: the number of its scope, its name, and the variable. -/
structure Declared where
  scope : Nat
  name : String
  data : Data
  deriving DecidableEq

/-- A step of a builder between two statements. -/
inductive ScopeStep
  | enter
  | exit
  | declare (target : Expr) (type : TypeSet) (value : Option Expr) (constant : Bool)

namespace ScopeStep

def run : ScopeStep → Build Unit
  | enter => enterScope
  | exit => exitScope
  | declare target type value constant => declareVariable target type value constant

/-- What a step declares when it is taken in a state: a variable of the innermost scope. -/
def declared (step : ScopeStep) (s : BuildState) : List Declared :=
  match step with
  | declare target type _ constant =>
    match target.plainName, s.frame.scopes with
    | .ok name, scope :: _ =>
      [⟨scope, name, declaredData s.frame.place.isSprite scope name type constant⟩]
    | _, _ => []
  | _ => []

end ScopeStep

/-- Takes steps one after another and gives the declarations they made, in order. -/
def runSteps : List ScopeStep → Build (List Declared)
  | [] => pure []
  | step :: rest => do
    let s ← get
    step.run
    let later ← runSteps rest
    return step.declared s ++ later

/-- Whether a full name is that of the result of a function. -/
def isOutputName (full : String) : Bool := beginsWith "fo_" full || beginsWith "bfo_" full

theorem unscoped_of_isOutputName (h : isOutputName full = true) :
    unscoped.any (beginsWith · full) = true := by
  rcases Bool.or_eq_true_iff.mp h with h | h <;> simp [unscoped, h]

/-- A builder as it is before its first step. The table of its target may hold results of
functions, and there may be any globals. -/
structure Unused (s : BuildState) : Prop where
  lastScope : s.frame.lastScope = 0
  scopes : s.frame.scopes = [0]
  currentScope : s.frame.currentScope = 0
  table : ∃ base, s.draft.locals? s.frame.place = some base ∧
    ∀ entry ∈ base, isOutputName entry.1 = true
  globals : ∀ entry ∈ s.draft.globals, isGlobalName entry.2.name = true

/-- The entry of the table for a declared variable. -/
def Declared.entry (sprite : Bool) (v : Declared) : String × Data :=
  (fullName sprite v.scope v.name, v.data)

/-- What holds of a builder after a run that made the logged declarations. -/
structure Tracks (s : BuildState) (log : List Declared) : Prop where
  innermost : s.frame.scopes.head? = some s.frame.currentScope
  outermost : 0 ∈ s.frame.scopes
  descending : s.frame.scopes.Pairwise (· > ·)
  bounded : ∀ scope ∈ s.frame.scopes, scope ≤ s.frame.lastScope
  logged : ∀ v ∈ log, v.scope ≤ s.frame.lastScope
  named : ∀ v ∈ log, v.data.name = fullName s.frame.place.isSprite v.scope v.name
  table : ∃ base, (∀ entry ∈ base, isOutputName entry.1 = true) ∧
    s.draft.locals? s.frame.place = some (base ++ log.map (Declared.entry s.frame.place.isSprite))
  distinct : log.Pairwise fun v w => v.scope ≠ w.scope ∨ v.name ≠ w.name
  visible : ∀ v ∈ log, ∀ w ∈ log, v.scope ∈ s.frame.scopes → w.scope ∈ s.frame.scopes →
    v.name = w.name → v = w
  globals : ∀ entry ∈ s.draft.globals, isGlobalName entry.2.name = true

theorem isOutputName_fullName (sprite : Bool) (scope : Nat) (name : String) :
    isOutputName (fullName sprite scope name) = false := by
  by_cases hscope : scope = 0
  · subst hscope
    cases sprite <;>
      simp [isOutputName, beginsWith, List.isPrefixOf, toList_fullName, kindLetter, scopeDigits]
  · have hnone := unscoped_fullName sprite scope name
    simp only [hscope, decide_false, unscoped, List.any_cons, List.any_nil, Bool.or_false,
      Bool.or_eq_false_iff] at hnone
    simp [isOutputName, hnone.2.2.2.1, hnone.2.2.2.2]

theorem unused_tracks (h : Unused s) : Tracks s [] := by
  obtain ⟨base, htable, hbase⟩ := h.table
  refine ⟨?_, ?_, ?_, ?_, by simp, by simp, ⟨base, hbase, by simpa using htable⟩, by simp,
    by simp, h.globals⟩
  · simp [h.scopes, h.currentScope]
  · simp [h.scopes]
  · simp [h.scopes]
  · simp [h.scopes, h.lastScope]

theorem Tracks.keeps {log : List Declared} (h : Tracks s log)
    (hkeeps : Keeps s t) : Tracks t log := by
  cases h
  constructor <;> try simp only [hkeeps.scopes, hkeeps.currentScope, hkeeps.lastScope,
    hkeeps.place, hkeeps.locals, hkeeps.globals]
  all_goals assumption

section

variable {log : List Declared}

theorem tidy_log (hbase : ∀ entry ∈ base, isOutputName entry.1 = true)
    (hlog : ∀ v ∈ log, v.scope ≤ last) :
    Tidy sprite last (base ++ log.map (Declared.entry sprite)) := by
  refine Tidy.append ?_ ?_
  · intro entry hentry
    exact .inl (unscoped_of_isOutputName (hbase entry hentry))
  · intro entry hentry
    obtain ⟨v, hv, rfl⟩ := List.mem_map.mp hentry
    exact tidy_single sprite last v.scope v.name v.data (hlog v hv) _ (List.mem_singleton.mpr rfl)

/-- What the table holds under the full name of a variable of a script was declared. -/
theorem mem_log_table (hbase : ∀ entry ∈ base, isOutputName entry.1 = true) :
    (fullName sprite scope name, data) ∈ base ++ log.map (Declared.entry sprite) ↔
      (⟨scope, name, data⟩ : Declared) ∈ log := by
  rw [List.mem_append, List.mem_map]
  constructor
  · rintro (hmem | ⟨v, hv, heq⟩)
    · have houtput := hbase _ hmem
      rw [isOutputName_fullName] at houtput
      cases houtput
    · obtain ⟨hkey, rfl⟩ := Prod.mk.inj heq
      obtain ⟨rfl, rfl⟩ := fullName_inj hkey
      exact hv
  · intro hmem
    exact .inr ⟨_, hmem, rfl⟩

section

variable (h : Tracks s log)

include h

/-- Every name can be looked up. -/
theorem Tracks.find_total (name : String) : ∃ found, find? (.ofName name) s = .ok found s := by
  obtain ⟨base, hbase, htable⟩ := h.table
  obtain ⟨found, hfound⟩ : ∃ found, lookup s.draft.globals _ s.frame.place.isSprite
      (s.frame.currentScope :: s.frame.scopes) name = .ok found :=
    lookup_total (tidy_log hbase h.logged) _ name
  exact ⟨found, (find?_ofName htable).mpr ⟨hfound, rfl⟩⟩

theorem Tracks.mem_open :
    scope = 0 ∨ scope ∈ s.frame.currentScope :: s.frame.scopes ↔ scope ∈ s.frame.scopes := by
  have hcurrent := List.mem_of_mem_head? (Option.mem_def.mpr h.innermost)
  constructor
  · rintro (rfl | hmem)
    · exact h.outermost
    · rcases List.mem_cons.mp hmem with rfl | hmem
      · exact hcurrent
      · exact hmem
  · intro hmem
    exact .inr (List.mem_cons_of_mem _ hmem)

/-- What a name stands for is a global or was declared in a scope that is open. -/
theorem Tracks.find_sound (hfind : find? (.ofName name) s = .ok (some d) s) :
    (globalName name, d) ∈ s.draft.globals ∨
      ∃ scope ∈ s.frame.scopes, (⟨scope, name, d⟩ : Declared) ∈ log := by
  obtain ⟨base, hbase, htable⟩ := h.table
  obtain ⟨hlookup, -⟩ := (find?_ofName htable).mp hfind
  rcases lookup_sound (tidy_log hbase h.logged) hlookup with hglobal | ⟨scope, hopen, hmem⟩
  · exact .inl hglobal
  · exact .inr ⟨scope, h.mem_open.mp hopen, (mem_log_table hbase).mp hmem⟩

/-- A name that stands for nothing was not declared in a scope that is open. -/
theorem Tracks.find_none (hfind : find? (.ofName name) s = .ok none s) :
    ∀ v ∈ log, v.scope ∈ s.frame.scopes → v.name ≠ name := by
  rintro ⟨scope, own, data⟩ hv hopen rfl
  obtain ⟨base, hbase, htable⟩ := h.table
  obtain ⟨hlookup, -⟩ := (find?_ofName htable).mp hfind
  obtain ⟨-, habsent⟩ := lookup_none (tidy_log hbase h.logged) hlookup
  exact habsent scope data (h.mem_open.mpr hopen) ((mem_log_table hbase).mpr hv)

/-- A name that is no global stands for the one variable of that name that was declared in
a scope that is open. -/
theorem Tracks.find_iff (hglobal : Assoc.get? (globalName name) s.draft.globals = none) :
    ∃ found, find? (.ofName name) s = .ok found s ∧
      ∀ d, found = some d ↔ ∃ v ∈ log, v.scope ∈ s.frame.scopes ∧ v.name = name ∧ v.data = d := by
  obtain ⟨found, hfind⟩ := h.find_total name
  have hlocal : ∀ d, found = some d →
      ∃ scope ∈ s.frame.scopes, (⟨scope, name, d⟩ : Declared) ∈ log := by
    rintro d rfl
    rcases h.find_sound hfind with hmem | hdeclared
    · have hkey := List.lookup_eq_none_iff.mp hglobal _ hmem
      simp at hkey
    · exact hdeclared
  refine ⟨found, hfind, fun d => ⟨?_, ?_⟩⟩
  · intro hsome
    obtain ⟨scope, hopen, hmem⟩ := hlocal d hsome
    exact ⟨_, hmem, hopen, rfl, rfl⟩
  · rintro ⟨v, hv, hopen, hname, rfl⟩
    cases found with
    | none => exact absurd hname (h.find_none hfind v hv hopen)
    | some d =>
      obtain ⟨scope, hscope, hmem⟩ := hlocal d rfl
      have hsame := h.visible v hv _ hmem hopen hscope hname
      rw [hsame]

end

end

section

variable {s s' : BuildState} {log : List Declared}

theorem Tracks.enter (h : Tracks s log) (hrun : enterScope s = .ok () s') : Tracks s' log := by
  rw [enterScope_ok] at hrun
  subst hrun
  have hnew : ∀ v ∈ log, v.scope ∈ (s.frame.lastScope + 1) :: s.frame.scopes →
      v.scope ∈ s.frame.scopes := by
    intro v hv hopen
    rcases List.mem_cons.mp hopen with heq | hopen
    · have hbound := h.logged v hv
      omega
    · exact hopen
  refine ⟨rfl, List.mem_cons_of_mem _ h.outermost, ?_, ?_, ?_, h.named, h.table, h.distinct, ?_,
    h.globals⟩
  · refine List.pairwise_cons.mpr ⟨?_, h.descending⟩
    intro scope hscope
    exact Nat.lt_succ_of_le (h.bounded scope hscope)
  · intro scope hscope
    rcases List.mem_cons.mp hscope with rfl | hscope
    · exact Nat.le_refl _
    · exact Nat.le_succ_of_le (h.bounded scope hscope)
  · intro v hv
    exact Nat.le_succ_of_le (h.logged v hv)
  · intro v hv w hw hopen hopen' hname
    exact h.visible v hv w hw (hnew v hv hopen) (hnew w hw hopen') hname

theorem Tracks.exit (h : Tracks s log) (hrun : exitScope s = .ok () s') : Tracks s' log := by
  obtain ⟨inner, outer, rest, hscopes, rfl⟩ := exitScope_ok.mp hrun
  have hsub : ∀ scope ∈ outer :: rest, scope ∈ s.frame.scopes := by
    intro scope hscope
    rw [hscopes]
    exact List.mem_cons_of_mem _ hscope
  have hdescending := h.descending
  rw [hscopes, List.pairwise_cons] at hdescending
  refine ⟨rfl, ?_, hdescending.2, fun scope hscope => h.bounded scope (hsub scope hscope), h.logged,
    h.named, h.table, h.distinct, ?_, h.globals⟩
  · have hzero := h.outermost
    rw [hscopes] at hzero
    rcases List.mem_cons.mp hzero with hzero | hzero
    · have hlarger := hdescending.1 outer List.mem_cons_self
      omega
    · exact hzero
  · intro v hv w hw hopen hopen' hname
    exact h.visible v hv w hw (hsub _ hopen) (hsub _ hopen') hname

/-- Adding a variable of an unused name in the innermost scope is a new declaration. -/
theorem Tracks.addVariable (h : Tracks s log) (hunused : find? (.ofName name) s = .ok none s)
    (hrun : addVariable name type value constant s = .ok d s') :
    Tracks s' (log ++ [⟨s.frame.currentScope, name,
      declaredData s.frame.place.isSprite s.frame.currentScope name type constant⟩]) := by
  obtain ⟨rfl, hframe, hglobals, -, locals, hlocals, hafter⟩ := addVariable_ok hrun
  obtain ⟨base, hbase, htable⟩ := h.table
  obtain rfl := Option.some.inj (hlocals.symm.trans htable)
  have hcurrent : s.frame.currentScope ∈ s.frame.scopes := h.mem_open.mp (.inr List.mem_cons_self)
  have hnew := h.find_none hunused
  have habsent := absent_of_lookup_none (tidy_log hbase h.logged)
    ((find?_ofName htable).mp hunused).1 (.inr List.mem_cons_self)
  refine ⟨hframe ▸ h.innermost, hframe ▸ h.outermost, hframe ▸ h.descending, hframe ▸ h.bounded, ?_,
    ?_, ⟨base, hbase, ?_⟩, ?_, ?_, hglobals ▸ h.globals⟩
  · simp only [hframe, List.forall_mem_append, List.forall_mem_singleton]
    exact ⟨h.logged, h.bounded _ hcurrent⟩
  · simp only [hframe, List.forall_mem_append, List.forall_mem_singleton]
    exact ⟨h.named, rfl⟩
  · rw [hframe, hafter, declaredData, Assoc.put_of_absent habsent]
    simp [Declared.entry]
  · refine List.pairwise_append.mpr ⟨h.distinct, List.pairwise_singleton _ _, ?_⟩
    intro v hv w hw
    obtain rfl := List.mem_singleton.mp hw
    by_cases hscope : v.scope = s.frame.currentScope
    · exact .inr (hnew v hv (hscope ▸ hcurrent))
    · exact .inl hscope
  · rw [hframe]
    intro v hv w hw hopen hopen' hname
    rw [List.mem_append, List.mem_singleton] at hv hw
    rcases hv with hv | rfl <;> rcases hw with hw | rfl
    · exact h.visible v hv w hw hopen hopen' hname
    · exact absurd hname (hnew v hv hopen)
    · exact absurd hname.symm (hnew w hw hopen')
    · rfl

theorem Tracks.step (h : Tracks s log) {step : ScopeStep} (hrun : step.run s = .ok () s') :
    Tracks s' (log ++ step.declared s) := by
  cases step with
  | enter =>
    simp only [ScopeStep.declared, List.append_nil]
    exact h.enter hrun
  | exit =>
    simp only [ScopeStep.declared, List.append_nil]
    exact h.exit hrun
  | declare target type value constant =>
    obtain ⟨name, e, start, v, d, t, t', hname, hunused, -, -, hvalue, hadd, hassign⟩ :=
      declareVariable_ok hrun
    have hkeeps : Keeps s t := keeps_expression _ _ _ _ _ hvalue
    have hunused' : find? (.ofName name) t = .ok none t := by
      obtain ⟨base, -, htable⟩ := h.table
      have htable' : t.draft.locals? t.frame.place = s.draft.locals? s.frame.place := by
        rw [hkeeps.place, hkeeps.locals]
      refine (find?_ofName (htable'.trans htable)).mpr ⟨?_, rfl⟩
      rw [hkeeps.globals, hkeeps.place, hkeeps.currentScope, hkeeps.scopes]
      exact ((find?_ofName htable).mp hunused).1
    have hadded := ((h.keeps hkeeps).addVariable hunused' hadd).keeps (keeps_assign _ _ _ hassign)
    obtain ⟨rest, hscopes⟩ : ∃ rest, s.frame.scopes = s.frame.currentScope :: rest :=
      List.head?_eq_some_iff.mp h.innermost
    simp only [ScopeStep.declared, hname, hscopes]
    rw [hkeeps.place, hkeeps.currentScope] at hadded
    exact hadded

theorem runSteps_cons (h : runSteps (step :: rest) s = .ok log s') :
    ∃ t later, step.run s = .ok () t ∧ runSteps rest t = .ok later s' ∧
      log = step.declared s ++ later := by
  rw [runSteps, get_bind_ok] at h
  obtain ⟨_, t, hstep, later, t', hrest, h⟩ := bind_bind_ok.mp h
  obtain ⟨rfl, rfl⟩ := pure_ok.mp h
  exact ⟨t, later, hstep, hrest, rfl⟩

theorem Tracks.run (h : Tracks s log)
    (hrun : runSteps steps s = .ok later s') : Tracks s' (log ++ later) := by
  induction steps generalizing s log later with
  | nil =>
    obtain ⟨rfl, rfl⟩ := pure_ok.mp hrun
    rwa [List.append_nil]
  | cons step rest ih =>
    obtain ⟨t, rest, hstep, hrest, rfl⟩ := runSteps_cons hrun
    rw [← List.append_assoc]
    exact ih (h.step hstep) hrest

/-- The current scope is the innermost of those that are open, as it is for a new builder. -/
def Innermost (s : BuildState) : Prop := s.frame.scopes.head? = some s.frame.currentScope

/-- What one statement after the other does to the scopes. -/
structure Returns (s s' : BuildState) : Prop where
  scopes : s'.frame.scopes = s.frame.scopes
  last : s.frame.lastScope ≤ s'.frame.lastScope
  current : Innermost s → s'.frame.currentScope = s.frame.currentScope

theorem Returns.innermost (h : Returns s s') (hs : Innermost s) : Innermost s' := by
  rw [Innermost, h.scopes, h.current hs]
  exact hs

instance : IsPreorder BuildState Returns where
  refl _ := ⟨rfl, Nat.le_refl _, fun _ => rfl⟩
  trans _ _ _ h k := ⟨k.scopes.trans h.scopes, Nat.le_trans h.last k.last, fun hs =>
    (k.current (h.innermost hs)).trans (h.current hs)⟩

theorem Keeps.returns (h : Keeps s s') : Returns s s' :=
  ⟨h.scopes, Nat.le_of_eq h.lastScope.symm, fun _ => h.currentScope⟩

theorem Returns.of_frame (h : s'.frame = s.frame) : Returns s s' := by
  constructor <;> simp [h]

/-- Scopes that are opened are numbered on from the last one, and the current one is the innermost. -/
structure Numbers (s s' : BuildState) : Prop where
  last : s.frame.lastScope ≤ s'.frame.lastScope
  opened : ∀ scope ∈ s'.frame.scopes, scope ∈ s.frame.scopes ∨
    s.frame.lastScope < scope ∧ scope ≤ s'.frame.lastScope
  innermost : Innermost s → Innermost s'

instance : IsPreorder BuildState Numbers where
  refl _ := ⟨Nat.le_refl _, fun _ => .inl, id⟩
  trans _ _ _ h k := by
    refine ⟨Nat.le_trans h.last k.last, fun scope hscope => ?_, fun hs => k.innermost (h.innermost hs)⟩
    rcases k.opened scope hscope with hscope | ⟨hnew, hlast⟩
    · exact (h.opened scope hscope).imp_right fun h => ⟨h.1, Nat.le_trans h.2 k.last⟩
    · exact .inr ⟨Nat.lt_of_le_of_lt h.last hnew, hlast⟩

theorem Returns.numbers (h : Returns s s') : Numbers s s' :=
  ⟨h.last, fun _ hscope => .inl (h.scopes ▸ hscope), h.innermost⟩

theorem numbers_enterScope : Within Numbers enterScope := by
  intro s u s' h
  obtain rfl := enterScope_ok.mp h
  refine ⟨Nat.le_succ _, fun scope hscope => ?_, fun _ => rfl⟩
  rcases List.mem_cons.mp hscope with rfl | hscope
  · exact .inr ⟨Nat.lt_succ_self _, Nat.le_refl _⟩
  · exact .inl hscope

theorem numbers_exitScope : Within Numbers exitScope := by
  intro s u s' h
  obtain ⟨inner, outer, rest, hscopes, rfl⟩ := exitScope_ok.mp h
  refine ⟨Nat.le_refl _, fun scope hscope => .inl ?_, fun _ => rfl⟩
  rw [hscopes]
  exact List.mem_cons_of_mem _ hscope

/-- Numbers of scopes are never used again. -/
theorem ScopeStep.numbers (step : ScopeStep) : Within Numbers step.run := by
  cases step with
  | enter => exact numbers_enterScope
  | exit => exact numbers_exitScope
  | declare target type value constant =>
    intro s u s' h
    obtain ⟨name, e, start, v, d, t, t', -, -, -, -, hvalue, hadd, hassign⟩ := declareVariable_ok h
    have hkeeps : Keeps s t := keeps_expression _ _ _ _ _ hvalue
    have hadded : Returns t t' := .of_frame (addVariable_ok hadd).2.1
    exact (chain hkeeps.returns (chain hadded (keeps_assign _ _ _ hassign).returns)).numbers

theorem numbers_runSteps (steps : List ScopeStep) : Within Numbers (runSteps steps) := by
  induction steps with
  | nil => exact .pure _
  | cons step rest ih => exact .get_bind fun t => .bind step.numbers fun _ => .bind ih fun _ => .pure _

/-- Two declarations have one full name only if they are the same declaration. -/
theorem Tracks.names_nodup (h : Tracks s log) : (log.map (·.data.name)).Nodup := by
  rw [List.Nodup, List.pairwise_map]
  refine h.distinct.imp_of_mem ?_
  intro v w hv hw hdistinct hname
  rw [h.named v hv, h.named w hw] at hname
  obtain ⟨hscope, hown⟩ := fullName_inj hname
  rcases hdistinct with hne | hne
  · exact hne hscope
  · exact hne hown

/-- A variable of a scope that is closed is what no name stands for. -/
theorem Tracks.find_ne_closed (h : Tracks s log) (hv : v ∈ log) (hclosed : v.scope ∉ s.frame.scopes)
    (name : String) : find? (.ofName name) s ≠ .ok (some v.data) s := by
  intro hfind
  have hnamed := h.named v hv
  rcases h.find_sound hfind with hglobal | ⟨scope, hopen, hmem⟩
  · have hkind := h.globals _ hglobal
    rw [hnamed, isGlobalName_fullName] at hkind
    cases hkind
  · have hsame := h.named _ hmem
    rw [hnamed] at hsame
    obtain ⟨rfl, -⟩ := fullName_inj hsame
    exact hclosed hopen

/-- After every run of a new builder a name that is no global stands for the variable of
that name that was declared in a scope that is still open, if there is one, and for nothing
otherwise. A variable of a scope that was left is found by no name after any further steps.
All variables have different full names, and every name can be looked up. -/
theorem scope_hygiene {s₀ s : BuildState} {steps : List ScopeStep} {log : List Declared}
    (hnew : Unused s₀) (hrun : runSteps steps s₀ = .ok log s) :
    (∀ name, Assoc.get? (globalName name) s.draft.globals = none →
      ∃ found, find? (.ofName name) s = .ok found s ∧ ∀ d, found = some d ↔
        ∃ v ∈ log, v.scope ∈ s.frame.scopes ∧ v.name = name ∧ v.data = d) ∧
    (∀ v ∈ log, v.scope ∉ s.frame.scopes → ∀ steps' log' s', runSteps steps' s = .ok log' s' →
      ∀ name, find? (.ofName name) s' ≠ .ok (some v.data) s') ∧
    (log.map (·.data.name)).Nodup ∧ ∀ name, ∃ found, find? (.ofName name) s = .ok found s := by
  have htracks : Tracks s log := (unused_tracks hnew).run hrun
  refine ⟨fun name hglobal => htracks.find_iff hglobal, ?_, htracks.names_nodup,
    htracks.find_total⟩
  intro v hv hclosed steps' log' s' hrun'
  have hclosed' : v.scope ∉ s'.frame.scopes := fun hopen =>
    ((numbers_runSteps _ _ _ _ hrun').opened _ hopen).elim hclosed fun hnew =>
      absurd (htracks.logged v hv) (Nat.not_le.mpr hnew.1)
  exact (htracks.run hrun').find_ne_closed (List.mem_append_left _ hv) hclosed'

end

/-- A builder for the stage that is writing a script. -/
def stageBuilder : BuildState :=
  { BuildState.fresh (Session.fresh (some .error) false) "project" with
    frame := { Frame.fresh .stage with unfinished := [[]] } }

/-- Two scopes beside each other that declare one name. -/
def siblingScopes : List ScopeStep :=
  [.enter, .declare (.name .nowhere "x") .ofNumber none false, .exit,
    .enter, .declare (.name .nowhere "x") .ofString none false]

theorem scope_hygiene_siblings :
    ∃ s, runSteps siblingScopes stageBuilder =
        .ok [⟨1, "x", declaredData false 1 "x" .ofNumber false⟩,
          ⟨2, "x", declaredData false 2 "x" .ofString false⟩] s ∧
      find? (.ofName "x") s = .ok (some (declaredData false 2 "x" .ofString false)) s ∧
      ∀ name, find? (.ofName name) s ≠ .ok (some (declaredData false 1 "x" .ofNumber false)) s := by
  have hnew : Unused stageBuilder := ⟨rfl, rfl, rfl, ⟨[], rfl, by simp⟩, by
    intro entry hentry
    cases hentry⟩
  obtain ⟨s, hrun, hscopes, hglobals⟩ : ∃ s, runSteps siblingScopes stageBuilder =
      .ok [⟨1, "x", declaredData false 1 "x" .ofNumber false⟩,
        ⟨2, "x", declaredData false 2 "x" .ofString false⟩] s ∧
      s.frame.scopes = [2, 0] ∧ s.draft.globals = [] := ⟨_, rfl, rfl, rfl⟩
  obtain ⟨hopen, hclosed, -, -⟩ := scope_hygiene hnew hrun
  refine ⟨s, hrun, ?_, ?_⟩
  · obtain ⟨found, hfind, hiff⟩ := hopen "x" (by rw [hglobals]; rfl)
    rw [(hiff (declaredData false 2 "x" .ofString false)).mpr
      ⟨_, List.mem_cons_of_mem _ List.mem_cons_self, by rw [hscopes]; decide, rfl, rfl⟩] at hfind
    exact hfind
  · exact hclosed _ List.mem_cons_self (by rw [hscopes]; decide) [] [] s rfl

end BlockScript.Build
