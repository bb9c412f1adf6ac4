import BlockScript.Proofs.Bodies
import BlockScript.Proofs.Meanings

/-!
What the parameters of a function and the message of a broadcast stand for in the body. Each
is given a variable of a new scope without a check whether its name is in use. A global, a
variable of the target or one of an open scope is found first, and so a name that stands for
something else before keeps doing so all through the body; any other name stands for the new
variable, at every moment of the body.
-/
namespace BlockScript.Build

open Text

variable {s s' : BuildState}

/-- The variable of a parameter: one of any type in the next scope. -/
def parameterVariable (s : BuildState) (name : String) : Data :=
  declaredData s.frame.place.isSprite (s.frame.lastScope + 1) name .general false

/-- No variable of the name belongs to the current scope. -/
def Vacant (s : BuildState) (name : String) : Prop :=
  ∀ d, (fullName s.frame.place.isSprite s.frame.currentScope name, d) ∉
    (s.draft.locals? s.frame.place).getD []

theorem Consistent.not_found_next (hs : Consistent s) (name : String) :
    find? (.ofName name) s ≠ .ok (some (parameterVariable s name)) s := by
  intro hfind
  obtain ⟨locals, hlocals, htidy, -⟩ := hs.table
  rcases hs.find_name hfind with hglobal | ⟨table, scope, htable, -, hmem⟩
  · have hkind := isGlobalName_globalName name
    rw [← hglobal] at hkind
    exact absurd hkind (by simp [parameterVariable, declaredData, isGlobalName_fullName])
  · obtain rfl := Option.some.inj (htable.symm.trans hlocals)
    exact fresh_not_mem htidy (Nat.lt_succ_self _) name _ hmem

section

/-- A variable that is added without a check is found where nothing was found before. -/
theorem find?_addVariable (hs : Consistent s) (hscope : s.frame.currentScope ≠ 0)
    (hvacant : Vacant s name) (h : addVariable name type value constant s = .ok d s')
    (hfind : find? (.ofName wanted) s = .ok found s) :
    find? (.ofName wanted) s' = .ok (found.or (if name = wanted then some d else none)) s' := by
  have hs' := hs.addVariable h
  obtain ⟨hd, hframe, hglobals, -, locals, hlocals, hafter⟩ := addVariable_ok h
  have hname : d.name = fullName s.frame.place.isSprite s.frame.currentScope name := by
    rw [hd]
    rfl
  have hnone : Assoc.get? d.name locals = none := by
    cases hget : Assoc.get? d.name locals with
    | none => rfl
    | some other =>
      refine absurd (Assoc.mem_of_get? hget) ?_
      rw [hname]
      simpa [hlocals] using hvacant other
  have hcurrent : s.frame.currentScope ∈ s.frame.scopes :=
    List.mem_of_mem_head? (Option.mem_def.mpr hs.innermost)
  rw [hs.find?_iff, meaning, hlocals, Option.map_some, Option.some.injEq] at hfind
  rw [hs'.find?_iff, meaning, hframe, hglobals, hafter, Option.map_some,
    Assoc.put_of_absent hnone, hname, lookup_last hscope, hfind]
  simp [Except.map, hcurrent]

theorem Vacant.addVariable (hvacant : Vacant s wanted) (hne : wanted ≠ name)
    (h : addVariable name type value constant s = .ok d s') : Vacant s' wanted := by
  obtain ⟨rfl, hframe, -, -, locals, hlocals, hafter⟩ := addVariable_ok h
  intro other hmem
  rw [hframe, hafter, Option.getD_some] at hmem
  rcases Assoc.mem_put hmem with heq | hmem
  · exact hne (fullName_inj (congrArg Prod.fst heq)).2
  · refine hvacant other ?_
    rw [hlocals]
    exact hmem

/-- The scope that is entered next has no variables yet. -/
theorem vacant_enterScope (hs : Consistent s) (h : enterScope s = .ok () s') (name : String) :
    Vacant s' name := by
  obtain ⟨locals, hlocals, htidy, -⟩ := hs.table
  obtain rfl := enterScope_ok.mp h
  intro d hmem
  refine fresh_not_mem htidy (Nat.lt_succ_self _) name d ?_
  simpa [hlocals] using hmem

/-- Each parameter gets a variable of its own, which is found if nothing was found before. -/
theorem copyParameters_ok (hs : Consistent s) (hscope : s.frame.currentScope ≠ 0)
    (hvacant : ∀ name ∈ names, Vacant s name) (hnodup : names.Nodup)
    (h : copyParameters label index names s = .ok copies s') :
    Consistent s' ∧ ∀ wanted found, find? (.ofName wanted) s = .ok found s →
      find? (.ofName wanted) s' = .ok (found.or (if wanted ∈ names then
        some (declaredData s.frame.place.isSprite s.frame.currentScope wanted .general false)
        else none)) s' := by
  induction names generalizing index s copies with
  | nil =>
    obtain ⟨rfl, rfl⟩ := pure_ok.mp h
    exact ⟨hs, fun wanted found hfind => by simpa using hfind⟩
  | cons name rest ih =>
    obtain ⟨d, t, hadd, blocks, t', hrest, h⟩ := bind_bind_ok.mp h
    obtain ⟨rfl, rfl⟩ := pure_ok.mp h
    obtain ⟨hd, hframe, -⟩ := addVariable_ok hadd
    obtain ⟨hnew, hnodup⟩ := List.nodup_cons.mp hnodup
    obtain ⟨hfirst, hvacant⟩ := List.forall_mem_cons.mp hvacant
    obtain ⟨ht', hfinds⟩ := ih (hs.addVariable hadd) (by rwa [hframe])
      (fun other hother =>
        (hvacant other hother).addVariable (ne_of_mem_of_not_mem hother hnew) hadd)
      hnodup hrest
    refine ⟨ht', fun wanted found hfind => ?_⟩
    have hfound := hfinds wanted _ (find?_addVariable hs hscope hfirst hadd hfind)
    rw [hfound, hframe, hd]
    by_cases heq : name = wanted
    · subst heq
      simp [hnew]
    · simp [heq, Ne.symm heq]

end

section

variable {returns : Option TypeSet} {name : String} {parameters : List String} {warp : Bool}
  {body : List Stmt} {start : BuildState}

/-- Where the body of a function starts, a parameter is found if nothing was found before. -/
theorem openFunction_finds (hs : Consistent s) (hnodup : parameters.Nodup)
    (h : openFunction returns name parameters warp s = .ok (copies, output) start) :
    Consistent start ∧
      copies = parameters.zipIdx.map (fun parameter =>
        .op .setVariable [.data (parameterVariable s parameter.1),
          .parameter parameter.2 (blockLabel name parameters.length)]) ∧
      ∀ wanted found, find? (.ofName wanted) s = .ok found s →
        find? (.ofName wanted) start = .ok (found.or
          (if wanted ∈ parameters then some (parameterVariable s wanted) else none)) start := by
  obtain ⟨t, t₁, t₂, henter, hcopies, houtput, rfl⟩ := openFunction_ok h
  have hlocals := locals?_withBlock s (blockLabel name parameters.length) warp s.frame.place
  have hblock : Consistent (withBlock s (blockLabel name parameters.length) warp) :=
    hs.congr (congrArg (·, _) hlocals)
  have ht : Consistent t := hblock.enter henter
  have hframe := congrArg BuildState.frame (enterScope_ok.mp henter).symm
  obtain ⟨ht₁, hfinds⟩ :=
    copyParameters_ok ht (by rw [hframe]; exact Nat.succ_ne_zero _)
    (fun own _ => vacant_enterScope hblock henter own) hnodup hcopies
  have hagrees := Within.addOutput?
    (fun _ _ hname => agrees_addData_stage (.inr hname)) _ _ _ _ _ houtput
  have ht₂ := (Within.addOutput? (fun _ _ hname => advances_addData_stage
    (.inr (unscoped_of_isOutputName hname))) _ _ _ _ _ houtput).consistent ht₁
  have hstart : Consistent (withFunction t₂ name output) := ht₂.congr rfl
  refine ⟨hstart, ?_, ?_⟩
  · rw [copyParameters_eq hcopies, hframe]
    rfl
  · intro wanted found hfind
    have hopened := find?_enterScope hblock henter
      (hs.find?_congr hblock rfl (meaning_congr (congrArg (·, _) hlocals)) hfind)
    have hcopied := hfinds wanted found hopened
    rw [hframe] at hcopied
    refine ht₂.find?_congr hstart rfl (meaning_congr rfl) ?_
    exact ht₁.find?_congr ht₂ (by rw [hagrees.frame]) hagrees.meaning hcopied

theorem receiveMessage_ok (hname : name ≠ "")
    (h : receiveMessage (some name) message s = .ok setter s') :
    ∃ d, addVariable name .general (.str "") false s = .ok d s' ∧
      setter = [.op .setVariable [.data d, .data message]] := by
  have heq : receiveMessage (some name) message = (do
      let d ← addVariable name .general (.str "") false
      return [.op .setVariable [.data d, .data message]]) := by
    unfold receiveMessage
    split
    · rename_i heq
      cases heq
    · rename_i heq
      exact absurd (Option.some.inj heq) hname
    · rename_i heq
      rw [Option.some.inj heq]
  rw [heq] at h
  obtain ⟨d, t, hadd, h⟩ := bind_ok.mp h
  obtain ⟨rfl, rfl⟩ := pure_ok.mp h
  exact ⟨d, hadd, rfl⟩

/-- Where the body of a receiver starts, the message is found if nothing was found before. -/
theorem openReceiver_finds (hs : Consistent s) (hname : name ≠ "")
    (h : openReceiver written (some name) s = .ok (b, setter) start) :
    Consistent start ∧
      setter = [.op .setVariable [.data (parameterVariable s name), .data b.message]] ∧
      ∀ wanted found, find? (.ofName wanted) s = .ok found s →
        find? (.ofName wanted) start = .ok (found.or
          (if name = wanted then some (parameterVariable s name) else none)) start := by
  obtain ⟨text, -, h⟩ := (readOnly_writtenName _).bind_ok h
  obtain ⟨b, t, hbroadcast, _, t₁, henter, h⟩ := bind_bind_ok.mp h
  obtain ⟨setter, t₂, hsetter, h⟩ := bind_ok.mp h
  obtain ⟨heq, rfl⟩ := pure_ok.mp h
  obtain ⟨rfl, rfl⟩ := Prod.mk.inj heq
  have hagrees := agrees_broadcastNamed _ _ _ _ hbroadcast
  have ht := (advances_broadcastNamed _ _ _ _ hbroadcast).consistent hs
  have ht₁ := ht.enter henter
  have hvacant := vacant_enterScope ht henter name
  have hplace : t₁.frame.place = s.frame.place := by
    rw [← enterScope_ok.mp henter, hagrees.frame]
  have hcurrent : t₁.frame.currentScope = s.frame.lastScope + 1 := by
    rw [← enterScope_ok.mp henter, hagrees.frame]
  obtain ⟨d, hadd, rfl⟩ := receiveMessage_ok hname hsetter
  have hd : d = parameterVariable s name := by
    rw [(addVariable_ok hadd).1, hplace, hcurrent]
    rfl
  refine ⟨ht₁.addVariable hadd, by rw [hd], fun wanted found hfind => ?_⟩
  have hopened := find?_enterScope ht henter
    (hs.find?_congr ht (by rw [hagrees.frame]) hagrees.meaning hfind)
  rw [← hd]
  exact find?_addVariable ht₁ (by rw [hcurrent]; exact Nat.succ_ne_zero _) hvacant hadd hopened

/-- What a parameter stands for at every moment of the body. -/
theorem parameter_throughout (hs : Consistent s) (hstart : Consistent start)
    (hfinds : ∀ found, find? (.ofName parameter) s = .ok found s → find? (.ofName parameter) start =
      .ok (found.or (some (parameterVariable s parameter))) start)
    (hm : m ∈ moments (scriptPlan false body) [] start) (hu : Keeps m.before u) :
    (find? (.ofName parameter) u = .ok (some (parameterVariable s parameter)) u ↔
      find? (.ofName parameter) s = .ok none s) ∧
    ∀ d, find? (.ofName parameter) s = .ok (some d) s →
      find? (.ofName parameter) u = .ok (some d) u := by
  obtain ⟨-, hrecalls⟩ := pointing_recalls.visits_scriptPlan false body [] start m hm hstart
  have hthrough : ∀ {found d}, find? (.ofName parameter) s = .ok found s →
      found.or (some (parameterVariable s parameter)) = some d →
      find? (.ofName parameter) u = .ok (some d) u := by
    intro found d hfind hd
    have hfound := hfinds found hfind
    rw [hd] at hfound
    exact hu.find? (hrecalls _ _ hfound)
  refine ⟨⟨?_, fun hnone => hthrough hnone rfl⟩, fun d hsome => hthrough hsome rfl⟩
  intro hfind
  obtain ⟨found, hfound⟩ := hs.find?_total parameter
  cases found with
  | none => exact hfound
  | some d =>
    have hsame : EStateM.Result.ok (some (parameterVariable s parameter)) u = .ok (some d) u :=
      hfind.symm.trans (hthrough hfound rfl)
    obtain rfl : parameterVariable s parameter = d := by
      simpa using hsame
    exact absurd hfound (hs.not_found_next parameter)

/-- A parameter or message stands for its own variable in the body exactly if its name stands
for nothing before, and otherwise it stands for what it stood for. -/
theorem parameters_bind_iff (hs : Consistent s) (body : List Stmt) :
    (∀ returns name parameters warp,
      addFunction returns name parameters warp body s = (do
        let (copies, output) ← openFunction returns name parameters warp
        let blocks ← script false body
        closeFunction s.frame.place (blockCount s s.frame.place) name parameters.length output
          (copies ++ blocks)) s ∧
      (parameters.Nodup → ∀ copies output start,
        openFunction returns name parameters warp s = .ok (copies, output) start →
        copies = parameters.zipIdx.map (fun parameter =>
          .op .setVariable [.data (parameterVariable s parameter.1),
            .parameter parameter.2 (blockLabel name parameters.length)]) ∧
        ∀ parameter ∈ parameters, ∀ m ∈ moments (scriptPlan false body) [] start,
          ∀ u, Keeps m.before u →
          (find? (.ofName parameter) u = .ok (some (parameterVariable s parameter)) u ↔
            find? (.ofName parameter) s = .ok none s) ∧
          ∀ d, find? (.ofName parameter) s = .ok (some d) s →
            find? (.ofName parameter) u = .ok (some d) u)) ∧
    (∀ written pos message rest,
      addReceiver (written :: .name pos message :: rest) body s = (do
        let (b, setter) ← openReceiver written (some message)
        let blocks ← script false body
        addPending (.op .whenBroadcastReceived [.broadcast b.name] :: (setter ++ blocks))
        exitScope) s ∧
      (message ≠ "" → ∀ b setter start,
        openReceiver written (some message) s = .ok (b, setter) start →
        setter = [.op .setVariable [.data (parameterVariable s message), .data b.message]] ∧
        ∀ m ∈ moments (scriptPlan false body) [] start, ∀ u, Keeps m.before u →
          (find? (.ofName message) u = .ok (some (parameterVariable s message)) u ↔
            find? (.ofName message) s = .ok none s) ∧
          ∀ d, find? (.ofName message) s = .ok (some d) s →
            find? (.ofName message) u = .ok (some d) u)) := by
  refine ⟨?_, ?_⟩
  · intro returns name parameters warp
    refine ⟨addFunction_eq _ _ _ _ _ _, fun hnodup copies output start hopen => ?_⟩
    obtain ⟨hstart, hcopies, hfinds⟩ := openFunction_finds hs hnodup hopen
    refine ⟨hcopies, fun parameter hparameter m hm u hu => ?_⟩
    refine parameter_throughout hs hstart (fun found hfind => ?_) hm hu
    rw [hfinds parameter found hfind, if_pos hparameter]
  · intro written pos message rest
    refine ⟨congrFun addReceiver_eq s, fun hname b setter start hopen => ?_⟩
    obtain ⟨hstart, hsetter, hfinds⟩ := openReceiver_finds hs hname hopen
    refine ⟨hsetter, fun m hm u hu => ?_⟩
    refine parameter_throughout hs hstart (fun found hfind => ?_) hm hu
    rw [hfinds message found hfind, if_pos rfl]

/-- A global of the project that has the name of a parameter. -/
def globalNumber : Data := ⟨"g_a", false, .typed .ofNumber, true⟩

def sumBody : List Stmt :=
  [.declare .nowhere (.name .nowhere "x") .general (some (.name .nowhere "a")) false,
    .declare .nowhere (.name .nowhere "y") .general (some (.name .nowhere "c")) false]

/-- A new builder for the stage of a project with the global. -/
def capturing : BuildState :=
  let fresh : BuildState := .fresh (.fresh (some .error) false) "project"
  { fresh with draft.globals := [("g_a", globalNumber)] }

theorem parameters_bind_iff_captured : ∃ copies output start, Consistent capturing ∧
    openFunction none "f" ["a", "c"] false capturing = .ok (copies, output) start ∧
    (moments (scriptPlan false sumBody) [] start).length = 4 ∧
    ∀ m ∈ moments (scriptPlan false sumBody) [] start,
      find? (.ofName "a") m.before = .ok (some globalNumber) m.before ∧
      find? (.ofName "c") m.before = .ok (some (parameterVariable capturing "c")) m.before := by
  have hs : Consistent capturing := by
    refine ⟨⟨[], rfl, by simp [Tidy], by simp⟩, ?_, rfl, ?_⟩
    · simp [capturing, globalNumber]
    · simp [capturing, BuildState.fresh, Frame.fresh]
  obtain ⟨⟨copies, output⟩, start, hopen, hlength⟩ : ∃ opened start,
      openFunction none "f" ["a", "c"] false capturing = .ok opened start ∧
      (moments (scriptPlan false sumBody) [] start).length = 4 := ⟨_, _, rfl, by rfl⟩
  refine ⟨copies, output, start, hs, hopen, hlength, fun m hm => ?_⟩
  obtain ⟨-, hfunction⟩ := (parameters_bind_iff hs sumBody).1 none "f" ["a", "c"] false
  obtain ⟨-, hbinds⟩ := hfunction (by decide) copies output start hopen
  obtain ⟨-, hcaptured⟩ := hbinds "a" (by simp) m hm m.before (refl _)
  obtain ⟨hown, -⟩ := hbinds "c" (by simp) m hm m.before (refl _)
  exact ⟨hcaptured globalNumber rfl, hown.mpr rfl⟩

end

end BlockScript.Build
