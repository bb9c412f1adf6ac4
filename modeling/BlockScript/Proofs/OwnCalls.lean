import BlockScript.Proofs.Parameters
import BlockScript.Proofs.Footprint

/-!
Functions that call themselves. The block of a function is known once its body has been built. Until
then the table of functions holds its name and the variable for its result only, and a call of it
stops. So what a body calls has been built before, and no function is built whose body calls it.
-/
namespace BlockScript.Build

variable {s s' : BuildState} {b : Bool} {w : List Work}

/-- A call of a function of the script. A statement looks for the name in the language first. -/
inductive Work.Calls (n : String) : Work → Prop
  | value : Calls n (.call (.name p n))
  | statement (h : Builtins.functions.resolve (.name p n) = none) : Calls n (.run (.name p n))

/-- The functions of the script that are called have blocks. -/
def Callable (s : BuildState) (w : List Work) : Prop :=
  ∀ item ∈ w, ∀ n function, item.Calls n → Assoc.get? n s.frame.functions = some function →
    function.signature ≠ none

/-- What building does inside functions, or outside of them. -/
def Ready (b : Bool) (w : List Work) (s s' : BuildState) : Prop :=
  Advances s s' ∧ ((s.frame.building != "") = b → Callable s w)

theorem Advances.ready (h : Advances s s') (hw : ∀ item ∈ w, ∀ n, ¬ item.Calls n) : Ready b w s s' :=
  ⟨h, fun _ item hitem n _ hcalls => absurd hcalls (hw item hitem n)⟩

theorem ready_of_within (h : Within Advances x) : Within (Ready b []) x :=
  h.mono fun _ _ hadvances => hadvances.ready (by simp)

instance : Graded (Ready b) where
  refl s := Advances.ready (refl s) (by simp)
  trans h h' := by
    refine ⟨chain h.1 h'.1, fun hb item hitem => ?_⟩
    rcases List.mem_append.mp hitem with hitem | hitem
    · exact h.2 hb item hitem
    · have hknown := h'.2 (by rw [h.1.building, hb]) item hitem
      rwa [h.1.functions] at hknown

theorem signature_of_callValue (hfunction : Assoc.get? n s.frame.functions = some function)
    (h : callValue (.name p n) arguments s = .ok v s') : function.signature ≠ none := by
  rw [callValue, get_bind_ok] at h
  simp only [hfunction] at h
  obtain ⟨_, signature, -, hsignature, -⟩ := functionValue_ok h
  simp [hsignature]

theorem signature_of_calleeOf (hname : Builtins.functions.resolve (.name p n) = none)
    (hfunction : Assoc.get? n s.frame.functions = some function)
    (h : calleeOf (.name p n) given s = .ok callee s') : function.signature ≠ none := by
  intro hnone
  simp only [calleeOf, builtin?, hname, pure_bind] at h
  rw [customCallee, get_bind_ok] at h
  simp only [hfunction, hnone] at h
  exact fault_ok.mp h

theorem working_ready : Working b (Ready b) where
  moveTo p := ready_of_within (building_advances.moveTo p)
  emitAll blocks hblocks := ready_of_within (building_advances.emitAll blocks hblocks)
  cloneFlag s v s' h := (building_advances.cloneFlag s v s' h).ready
    (List.forall_mem_singleton.mpr fun _ h => by cases h)
  calls _ _ := trivial
  called {f arguments v s s'} h hready := by
    refine ⟨hready.1, fun _ item hitem n function hcalls hfunction => ?_⟩
    obtain rfl := List.mem_singleton.mp hitem
    cases hcalls
    exact signature_of_callValue hfunction h
  run {f given callee s s'} h hready := by
    refine ⟨hready.1, fun _ item hitem n function hcalls hfunction => ?_⟩
    obtain rfl := List.mem_singleton.mp hitem
    obtain _ | hname := hcalls
    exact signature_of_calleeOf hname hfunction h
  declare hunused h := (building_advances.declare hunused h).ready
    (List.forall_mem_singleton.mpr fun _ h => by cases h)
  broadcast name := ready_of_within (building_advances.broadcast name)
  scope {w _ _ _ _} henter h hexit := by
    refine ⟨building_advances.scope (w := w) henter h.1 hexit, ?_⟩
    obtain rfl := enterScope_ok.mp henter
    exact h.2
  script {w _ _ _ _} h hscript := ⟨building_advances.script (w := w) h.1 hscript, h.2⟩
  elsewhere e s s' hb := and_congr_right fun _ =>
    iff_of_true (fun hinside => absurd hinside hb) fun hinside => absurd hinside hb

/-- While the body of a function is built, its entry lacks the block. -/
theorem openFunction_entry
    (h : openFunction returns name parameters warp s = .ok (copies, output) s') :
    s'.frame.building = name ∧ output.isSome = returns.isSome ∧
      Assoc.get? name s'.frame.functions = some ⟨output, none⟩ := by
  obtain ⟨t, t₁, t₂, -, -, houtput, rfl⟩ := openFunction_ok h
  refine ⟨rfl, ?_, Assoc.get?_put_self _ _ _⟩
  cases returns with
  | none =>
    obtain ⟨rfl, -⟩ := pure_ok.mp houtput
    rfl
  | some type =>
    obtain ⟨d, -, rfl⟩ := map_ok.mp houtput
    rfl

/-- No function is built whose body calls it, at any depth. Where the call is reached, a statement
stops with a fault, and so does a value if the function has a result; otherwise the missing result
is the problem. -/
theorem own_calls_stop (returns : Option TypeSet) (name : String) (parameters : List String)
    (warp : Bool) (body : List Stmt) (s : BuildState) :
    ((∃ item ∈ workAll (name != "") body, item.Calls name) →
      ∀ s', addFunction returns name parameters warp body s ≠ .ok () s') ∧
    ∀ made start, openFunction returns name parameters warp s = .ok made start →
      ∀ t p, t.frame.functions = start.frame.functions →
        (∀ arguments values t', Builtins.functions.resolve (.name p name) = none →
          expressions .script arguments t = .ok values t' →
          callStatement (.name p name) arguments t = fault .missingField t') ∧
        ∀ values, callValue (.name p name) values t =
          (if returns.isSome then fault .missingField else reject .noReturnType) t := by
  refine ⟨fun ⟨item, hitem, hcalls⟩ s' h => ?_, ?_⟩
  · rw [addFunction_eq] at h
    obtain ⟨⟨copies, output⟩, start, hopen, h⟩ := bind_ok.mp h
    obtain ⟨hbuilding, -, hentry⟩ := openFunction_entry hopen
    obtain ⟨blocks, t, hbody, -⟩ := bind_ok.mp h
    have hready : Ready (name != "") (workAll (name != "") body) start t :=
      working_ready.inScript false (working_ready.statements body) _ _ _ hbody
    exact hready.2 (by rw [hbuilding]) item hitem name _ hcalls hentry rfl
  · rintro ⟨copies, output⟩ start hopen t p hfunctions
    obtain ⟨-, houtput, hentry⟩ := openFunction_entry hopen
    rw [← hfunctions] at hentry
    refine ⟨fun arguments values t' hname hvalues => ?_, fun values => ?_⟩
    · have hcallee : calleeOf (.name p name) values.length t' = fault .missingField t' := by
        simp only [calleeOf, builtin?, hname, pure_bind]
        rw [customCallee, bind_of_ok (rfl : (get : Build BuildState) t' = .ok t' t')]
        simp only [(keeps_expressions _ _ _ hvalues).functions, hentry]
      rw [callStatement, bind_of_ok hvalues]
      exact bind_of_error hcallee
    · rw [callValue, bind_of_ok (rfl : (get : Build BuildState) t = .ok t t), ← houtput]
      simp only [hentry, functionValue]
      cases output <;> rfl

/-- A function that does nothing but call itself. -/
theorem own_calls_stop_only :
    (Work.run (.name (.start 0) "f")).Calls "f" ∧ ∀ s', addFunction none "f" ["a"] false
      [.call (.start 0) (.name (.start 0) "f") [.name (.start 0) "a"]] stageBuilder ≠ .ok () s' := by
  have hcalls : (Work.run (.name (.start 0) "f")).Calls "f" := .statement rfl
  exact ⟨hcalls, (own_calls_stop none "f" ["a"] false _ stageBuilder).1
    ⟨_, by simp [workAll, work], hcalls⟩⟩

end BlockScript.Build
