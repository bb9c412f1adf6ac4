import BlockScript.Proofs.OwnCalls

/-!
Results of functions that declare no type for them. A body leaves its function as it found it, so
wherever in the body a result stands, there is no variable to store it in. The result is looked at
before this is noticed, and one that counts as false is taken for none at all.
-/
namespace BlockScript.Build

variable {s s' : BuildState} {name : String} {parameters : List String} {warp : Bool}
  {body : List Stmt} {m : Moment} {pos : Position} {e : Expr}

/-- The functions that are known, and the one that is built, are the same. -/
structure SameFunctions (s s' : BuildState) : Prop where
  functions : s'.frame.functions = s.frame.functions
  building : s'.frame.building = s.frame.building

instance : IsPreorder BuildState SameFunctions where
  refl _ := ⟨rfl, rfl⟩
  trans _ _ _ h h' := ⟨h'.functions.trans h.functions, h'.building.trans h.building⟩

theorem pointing_sameFunctions : Pointing Advances SameFunctions where
  building := building_advances
  step h := ⟨h.functions, h.building⟩
  enter _ _ _ h := by
    obtain rfl := enterScope_ok.mp h
    exact ⟨rfl, rfl⟩
  opened _ := ⟨rfl, rfl⟩

/-- What becomes of a result without a variable for it. -/
def refuse {α : Type} (v : Value) : Build α :=
  if v.truthy then reject .noReturnType else fault .typeMismatch

theorem giveBack_untyped
    (hname : s.frame.building ≠ "")
    (hentry : Assoc.get? s.frame.building s.frame.functions = some function)
    (houtput : function.output = none) : (statement (.giveBack pos (some e)) >>= k) s =
      (do moveTo pos; refuse (← expression .script e)) s := by
  rw [statement, bind_assoc]
  cases hmove : moveTo pos s with
  | error f t => rw [bind_of_error hmove, bind_of_error hmove]
  | ok u t =>
    have hget : (get : Build BuildState) t = .ok t t := rfl
    obtain ⟨-, rfl⟩ := moveTo_ok.mp hmove
    have hbuilding : (s.frame.building != "") = true := by simpa using hname
    rw [bind_of_ok hmove, bind_of_ok hmove, giveBack, bind_assoc, bind_of_ok hget]
    simp only [hbuilding, if_true, hentry, storeResult, houtput, bind_assoc, refuse]
    refine congrFun (bind_congr fun v => ?_) _
    cases v.truthy <;> rfl

/-- At every moment of a body without a type for its result, a result is refused. -/
theorem result_untyped (hname : name ≠ "")
    (hopen : openFunction none name parameters warp s = .ok made s')
    (hm : m ∈ moments (scriptPlan false body) [] s')
    (haction : m.action = .simple (.giveBack pos (some e))) :
    m.result = (do moveTo pos; refuse (← expression .script e)) m.before := by
  obtain ⟨copies, output⟩ := made
  obtain ⟨hbuilding, houtput, hentry⟩ := openFunction_entry hopen
  have hsame := pointing_sameFunctions.visits_scriptPlan false body [] s' m hm
  have hbefore : m.before.frame.building = name := hsame.building.trans hbuilding
  have hfunction : Assoc.get? m.before.frame.building m.before.frame.functions =
      some ⟨output, none⟩ := by
    rw [hbefore, hsame.functions, hentry]
  rw [Moment.result, haction, Action.run]
  exact giveBack_untyped (by rwa [hbefore]) hfunction (by simpa using houtput)

/-- No function without a type for its result is built if there is a result in its body, at any
depth. Where the result is reached, a value that counts as true makes the missing type the problem,
and any other stops with a fault. -/
theorem untyped_results_stop (name : String) (parameters : List String) (warp : Bool)
    (body : List Stmt) (s : BuildState) (hname : name ≠ "") :
    ((∃ pos e, Action.simple (.giveBack pos (some e)) ∈ planAll body) →
      ∀ s', addFunction none name parameters warp body s ≠ .ok () s') ∧
    ∀ made start, openFunction none name parameters warp s = .ok made start →
      ∀ m ∈ moments (scriptPlan false body) [] start, ∀ pos e v t,
        m.action = .simple (.giveBack pos (some e)) →
        (do moveTo pos; expression .script e) m.before = .ok v t →
        m.result = (if v.truthy then reject .noReturnType else fault .typeMismatch) t := by
  refine ⟨fun ⟨pos, e, hmem⟩ s' h => ?_, fun made start hopen m hm pos e v t haction hvalue => ?_⟩
  · rw [addFunction_eq] at h
    obtain ⟨made, start, hopen, blocks, t, hbody, -⟩ := bind_bind_ok.mp h
    have hrun := runAll_of_script hbody []
    obtain ⟨m, hm, haction⟩ := exists_moment hrun
      (List.mem_cons_of_mem _ (List.mem_append_left _ hmem))
    obtain ⟨held, t', hran⟩ := result_of_mem_moments hrun hm
    rw [result_untyped hname hopen hm haction] at hran
    obtain ⟨_, _, -, v, _, -, hran⟩ := bind_bind_ok.mp hran
    unfold refuse at hran
    split at hran
    · exact reject_ok.mp hran
    · exact fault_ok.mp hran
  · obtain ⟨_, t₁, hmove, hvalue⟩ := bind_ok.mp hvalue
    rw [result_untyped hname hopen hm haction, bind_of_ok hmove, bind_of_ok hvalue, refuse]

/-- A function that gives back zero, in a branch of its own. -/
def givesZero : List Stmt :=
  [.ifThen .nowhere (.truth true) [.giveBack .nowhere (some (.int 0))]]

theorem untyped_results_stop_zero :
    "f" ≠ "" ∧ ∃ made start, openFunction none "f" [] false stageBuilder = .ok made start ∧
      ∃ m ∈ moments (scriptPlan false givesZero) [] start, ∃ t,
        m.result = fault .typeMismatch t := by
  obtain ⟨made, start, hopen⟩ : ∃ made start,
      openFunction none "f" [] false stageBuilder = .ok made start := ⟨_, _, rfl⟩
  have hname : "f" ≠ "" := by decide
  refine ⟨hname, made, start, hopen, ?_⟩
  have hresult := (untyped_results_stop "f" [] false givesZero stageBuilder hname).2 made start hopen
  cases hopen
  exact ⟨_, List.mem_of_getElem? (i := 4) rfl, _,
    hresult _ (List.mem_of_getElem? (i := 4) rfl) _ _ _ _ rfl rfl⟩

end BlockScript.Build
