import BlockScript.Proofs.Constants
import BlockScript.Proofs.TopLevel

/-!
The scripts of a target. Building a target makes one script of each hat, in the order of the
hats. The first time that an expression asks whether the sprite is a clone, a variable is created
together with two scripts that set it, and these are complete before the script in whose body the
question stands. A question that comes later finds the variable. So the two scripts stand at one
place among the scripts of the hats, or nowhere if no such question is translated.
-/
namespace BlockScript

section

def Expr.isCloneTest : Expr → Bool
  | .attr _ object n => object.isText "this" && n == "is_clone"
  | _ => false

mutual

/-- The expressions that are translated with an expression, itself first. What stands before a
point, and the name of a function, are looked up and not translated. -/
def Expr.translated : Expr → List Expr
  | .list items => .list items :: Expr.translatedAll items
  | .index pos target i => .index pos target i :: (Expr.translated target ++ Expr.translated i)
  | .call pos f arguments => .call pos f arguments :: Expr.translatedAll arguments
  | .concat pos operands => .concat pos operands :: Expr.translatedAll operands
  | .arith pos op operands => .arith pos op operands :: Expr.translatedAll operands
  | .compare pos op operands => .compare pos op operands :: Expr.translatedAll operands
  | .logic pos op operands => .logic pos op operands :: Expr.translatedAll operands
  | .unknown pos family operands => .unknown pos family operands :: Expr.translatedAll operands
  | e => [e]

def Expr.translatedAll : List Expr → List Expr
  | [] => []
  | e :: rest => Expr.translated e ++ Expr.translatedAll rest

end

/-- The condition of a loop is translated unless it always holds. -/
def Expr.translatedTest : Expr → List Expr
  | .truth true => []
  | c => c.translated

mutual

/-- The expressions that are translated when a statement is built. A value that is given back is
translated in functions only, and the value of an assignment to an item is translated twice. -/
def Stmt.translated (inFunction : Bool) : Stmt → List Expr
  | .declare _ _ _ value _ => (value.map Expr.translated).getD []
  | .assign _ (.index _ list index) value =>
    value.translated ++ (list.translated ++ (index.translated ++ value.translated))
  | .assign _ _ value => value.translated
  | .update _ _ (.index _ _ index) operand => operand.translated ++ index.translated
  | .update _ _ _ operand => operand.translated
  | .call _ _ arguments => Expr.translatedAll arguments
  | .ifThen _ c body => c.translated ++ Stmt.translatedAll inFunction body
  | .ifElse _ c body alternative =>
    c.translated ++ (Stmt.translatedAll inFunction body ++ Stmt.translatedAll inFunction alternative)
  | .whileLoop _ c body => Stmt.translatedAll inFunction body ++ c.translatedTest
  | .forLoop _ start c next body =>
    Stmt.translated inFunction start ++ (Stmt.translatedAll inFunction body ++
      (Stmt.translated inFunction next ++ c.translated))
  | .giveBack _ (some e) => if inFunction then e.translated else []
  | _ => []

def Stmt.translatedAll (inFunction : Bool) : List Stmt → List Expr
  | [] => []
  | stmt :: rest => Stmt.translated inFunction stmt ++ Stmt.translatedAll inFunction rest

end

namespace Build

/-- The arguments of a hat that are translated: of a key that is let go only the first, and none
of a receiver. -/
def hatTranslated (event : Expr) (arguments : List Expr) : List Expr :=
  match event with
  | .attr pos object name =>
    if name == "on_keyrelease" then (arguments.head?.map Expr.translated).getD []
    else match Builtins.hats.resolve (.attr pos object name) with
      | some (.entry .whenBroadcastReceived) => []
      | _ => Expr.translatedAll arguments
  | _ => []

/-- The expressions that are translated for a statement at the top level. -/
def topTranslated : Stmt → List Expr
  | .shared _ _ _ value => value.translated
  | .function _ _ name _ _ body => Stmt.translatedAll (name != "") body
  | .hat _ event arguments body => hatTranslated event arguments ++ Stmt.translatedAll false body
  | _ => []

/-- Whether one of some expressions asks for a clone. -/
def asks (es : List Expr) : Bool := es.any Expr.isCloneTest

@[simp] theorem asks_nil : asks [] = false := rfl

@[simp] theorem asks_append (es es' : List Expr) : asks (es ++ es') = (asks es || asks es') :=
  List.any_append

theorem asks_cons (e : Expr) (es : List Expr) : asks (e :: es) = (e.isCloneTest || asks es) := rfl

end Build

end

namespace Build

variable {s t s' : BuildState}

section

/-- The scripts that a question makes necessary. -/
def newScripts (used : Bool) (flag : Option Data) : List (List Value) :=
  if used && flag.isNone then cloneScripts else []

/-- The variable for clones is created if it is needed, with its scripts. -/
structure Tracked (used : Bool) (s s' : BuildState) : Prop where
  flag : s'.frame.cloneFlag.isSome = (s.frame.cloneFlag.isSome || used)
  pending : s'.frame.pending = s.frame.pending ++ newScripts used s.frame.cloneFlag
  building : s'.frame.building = s.frame.building

theorem newScripts_or (h : flag'.isSome = (flag.isSome || u)) :
    newScripts (u || v) flag = newScripts u flag ++ newScripts v flag' := by
  cases u <;> cases v <;> cases flag <;> cases flag' <;> simp_all [newScripts]

theorem Tracked.trans (h : Tracked u s t) (h' : Tracked v t s') : Tracked (u || v) s s' := by
  refine ⟨?_, ?_, h'.building.trans h.building⟩
  · rw [h'.flag, h.flag, Bool.or_assoc]
  · rw [h'.pending, h.pending, List.append_assoc, newScripts_or h.flag]

theorem Tracked.of_same (hflag : s'.frame.cloneFlag = s.frame.cloneFlag)
    (hpending : s'.frame.pending = s.frame.pending)
    (hbuilding : s'.frame.building = s.frame.building) : Tracked false s s' := by
  refine ⟨?_, ?_, hbuilding⟩
  · rw [hflag, Bool.or_false]
  · rw [hpending]
    exact (List.append_nil _).symm

theorem Tracked.of_frame (h : s'.frame = s.frame) : Tracked false s s' :=
  .of_same (by rw [h]) (by rw [h]) (by rw [h])

/-- What happens to the variable for clones inside or outside a function. -/
def Asking (inFunction used : Bool) (s s' : BuildState) : Prop :=
  (s.frame.building != "") = inFunction → Tracked used s s'

variable {b u v : Bool}

theorem Asking.trans (h : Asking b u s t) (h' : Asking b v t s') : Asking b (u || v) s s' := by
  intro hb
  have hfirst := h hb
  exact hfirst.trans (h' (by rw [hfirst.building]; exact hb))

instance : IsPreorder BuildState (Asking b false) where
  refl _ := fun _ => .of_frame rfl
  trans _ _ _ h h' := h.trans h'

theorem Tracked.asking (h : Tracked u s s') : Asking b u s s' := fun _ => h

instance : Graded fun es => Asking b (asks es) where
  refl _ := fun _ => .of_frame rfl
  trans h h' := by
    rw [asks_append]
    exact h.trans h'

theorem asking_cloneFlag : Within (Asking b true) cloneFlag := by
  intro s v s' h
  obtain ⟨d, hkept, -⟩ := (cloneFlag_ok h).2
  refine Tracked.asking ⟨?_, ?_, ?_⟩
  · rw [hkept, Option.isSome_some, Bool.or_true]
  · rcases (cloneFlag_ok h).1 with rfl | ⟨hflag, rfl⟩
    · rw [newScripts, ← Option.not_isSome, hkept]
      exact (List.append_nil _).symm
    · rw [hflag]
      rfl
  · rcases (cloneFlag_ok h).1 with rfl | ⟨-, rfl⟩ <;> rfl

theorem asking_addVariable (name : String) (type : TypeSet) (value : Value) (constant : Bool) :
    Within (Asking b false) (addVariable name type value constant) := by
  intro s d s' h
  obtain ⟨-, hframe, -⟩ := addVariable_ok h
  exact (Tracked.of_frame hframe).asking

theorem asking_broadcastNamed (name : Value) : Within (Asking b false) (broadcastNamed name) := by
  intro s c s' h
  rcases broadcastNamed_ok h with ⟨rfl, -⟩ | ⟨text, t, -, hadd, hframe, -⟩
  · exact refl _
  · exact (Tracked.of_frame (hframe.trans (addData_stage_ok hadd).1)).asking

theorem asking_moveTo (p : Position) : Within (Asking b false) (moveTo p) :=
  fun _ _ _ h => (Tracked.of_frame (quiet_moveTo h).frame).asking

theorem asking_enterScope : Within (Asking b false) enterScope := by
  intro s u s' h
  obtain rfl := enterScope_ok.mp h
  exact fun _ => .of_same rfl rfl rfl

theorem asking_exitScope : Within (Asking b false) exitScope := by
  intro s u s' h
  obtain ⟨_, _, _, -, rfl⟩ := exitScope_ok.mp h
  exact fun _ => .of_same rfl rfl rfl

def Work.isCloneTest : Work → Bool
  | .cloneTest => true
  | _ => false

instance : Graded fun w => Asking b (w.any Work.isCloneTest) where
  refl _ := fun _ => .of_frame rfl
  trans h h' := by
    rw [List.any_append]
    exact h.trans h'

theorem working_asking : Working b fun w => Asking b (w.any Work.isCloneTest) where
  moveTo := asking_moveTo
  emitAll blocks _ := by
    intro s u s' h
    obtain ⟨-, rfl⟩ := emitAll_ok.mp h
    exact fun _ => .of_same rfl rfl rfl
  cloneFlag := asking_cloneFlag
  calls _ _ := trivial
  declare _ h := asking_addVariable _ _ _ _ _ _ _ h
  broadcast := asking_broadcastNamed
  scope henter h hexit := by
    have hall := (asking_enterScope _ _ _ henter).trans (h.trans (asking_exitScope _ _ _ hexit))
    rwa [Bool.false_or, Bool.or_false] at hall
  script h _ := fun hb => ⟨(h hb).flag, (h hb).pending, (h hb).building⟩
  elsewhere _ _ _ hb := iff_of_true (fun h => absurd h hb) fun h => absurd h hb

mutual

/-- Among the expressions that are translated, those that ask are the work. -/
theorem asks_translated (e : Expr) : asks e.translated = e.work.any Work.isCloneTest := by
  cases e with
  | attr pos object n =>
    rw [Expr.translated, Expr.work, asks_cons, asks_nil, Bool.or_false, Expr.isCloneTest]
    · split
      · rename_i h
        exact h
      · rename_i h
        exact Bool.eq_false_iff.mpr h
    all_goals simp
  | index pos target i =>
    simp [Expr.translated, Expr.work, asks_cons, Expr.isCloneTest, asks_translated target,
      asks_translated i]
  | call pos f es =>
    rw [Expr.work, List.any_append]
    exact (asks_translatedAll es).trans (Bool.or_false _).symm
  | list es | concat _ es | arith _ _ es | compare _ _ es | logic _ _ es | unknown _ _ es =>
    exact asks_translatedAll es
  | _ => rfl

theorem asks_translatedAll (es : List Expr) :
    asks (Expr.translatedAll es) = (Expr.workAll es).any Work.isCloneTest := by
  cases es with
  | nil => rfl
  | cons e rest =>
    simp [Expr.translatedAll, Expr.workAll, asks_translated e, asks_translatedAll rest]

end

theorem asks_declare (target : Expr) (type : TypeSet) (value : Option Expr) (constant : Bool) :
    asks ((value.map Expr.translated).getD []) =
      (declareWork target type value constant).any Work.isCloneTest := by
  have hvalue : asks ((value.map Expr.translated).getD []) =
      ((value.map Expr.work).getD []).any Work.isCloneTest := by
    cases value with
    | none => rfl
    | some e => exact asks_translated e
  rw [declareWork, List.any_append, hvalue]
  cases target.plainName <;> simp [Work.isCloneTest]

mutual

theorem asks_statement (stmt : Stmt) :
    asks (stmt.translated b) = (work b stmt).any Work.isCloneTest := by
  cases stmt with
  | declare pos target type value constant => exact asks_declare target type value constant
  | assign pos target value =>
    cases target <;> simp [Stmt.translated, work, assignWork, asks_translated]
  | update pos op target operand =>
    cases target <;> simp [Stmt.translated, work, updateWork, asks_translated]
  | call pos f arguments =>
    rw [work, List.any_append]
    exact (asks_translatedAll arguments).trans (Bool.or_false _).symm
  | ifThen pos c body => simp [Stmt.translated, work, asks_translated, asks_statements body]
  | ifElse pos c body alternative =>
    simp [Stmt.translated, work, asks_translated, asks_statements body, asks_statements alternative]
  | whileLoop pos c body =>
    have hc : asks c.translatedTest = c.work.any Work.isCloneTest := by
      unfold Expr.translatedTest
      split
      · rfl
      · exact asks_translated c
    simp [Stmt.translated, work, hc, asks_statements body]
  | forLoop pos start c next body =>
    simp [Stmt.translated, work, asks_translated, asks_statement start, asks_statements body,
      asks_statement next]
  | giveBack pos value =>
    cases value <;> cases b <;> simp [Stmt.translated, work, asks_translated]
  | _ => rfl

theorem asks_statements (stmts : List Stmt) :
    asks (Stmt.translatedAll b stmts) = (workAll b stmts).any Work.isCloneTest := by
  cases stmts with
  | nil => rfl
  | cons stmt rest =>
    simp [Stmt.translatedAll, workAll, asks_statement stmt, asks_statements rest]

end

/-- Translating an expression creates the variable if one of the expressions translated asks. -/
theorem asking_expression (e : Expr) :
    Within (Asking b (asks e.translated)) (expression .script e) := by
  rw [asks_translated]
  exact working_asking.expression .script e

theorem asking_expressions (es : List Expr) :
    Within (Asking b (asks (Expr.translatedAll es))) (expressions .script es) := by
  rw [asks_translatedAll]
  exact working_asking.expressions .script es

/-- Building a script creates the variable if one of the expressions in its body asks. -/
theorem asking_script (ownScope : Bool) (body : List Stmt) :
    Within (Asking b (asks (Stmt.translatedAll b body))) (script ownScope body) := by
  rw [asks_statements]
  exact working_asking.inScript ownScope (working_asking.statements body)

end

section

/-- A function is built as a body inside a function. -/
theorem asking_functionOf (stmt : Stmt) :
    Within (Asking false (asks (topTranslated stmt))) (functionOf stmt) := by
  intro s u s' h hb
  cases stmt with
  | function pos returns name parameters warp body =>
    obtain ⟨t, t₁, t₂, t₃, copies, output, blocks, henter, hcopies, houtput, hbody, hexit⟩ :=
      addFunction_ok h
    have hopen : Asking false false s t₂ := by
      have hblock : Asking false false s (withBlock s (blockLabel name parameters.length) warp) :=
        fun _ => .of_same rfl rfl rfl
      have hcopied : Asking false false t t₁ :=
        Within.copyParameters (fun _ => asking_addVariable _ _ _ _) _ _ _ _ _ _ hcopies
      have hadded : Asking false false t₁ t₂ := Within.addOutput?
        (fun _ _ _ _ _ _ h => (Tracked.of_frame (addData_stage_ok h).1).asking) _ _ _ _ _ houtput
      exact chain hblock (trans (asking_enterScope _ _ _ henter)
        (chain hcopied hadded))
    have hopen := hopen hb
    have hbody : Tracked (asks (Stmt.translatedAll (name != "") body))
        (withFunction t₂ name output) t₃ := asking_script false body _ _ _ hbody rfl
    obtain ⟨_, _, _, -, rfl⟩ := exitScope_ok.mp hexit
    refine ⟨?_, ?_, ?_⟩
    · refine hbody.flag.trans ?_
      change (t₂.frame.cloneFlag.isSome || _) = _
      rw [hopen.flag, Bool.or_false]
      rfl
    · refine hbody.pending.trans ?_
      change t₂.frame.pending ++ newScripts _ t₂.frame.cloneFlag = _
      rw [hopen.pending]
      have hnew := newScripts_or (v := asks (Stmt.translatedAll (name != "") body)) hopen.flag
      rw [Bool.false_or] at hnew
      rw [List.append_assoc, ← hnew]
      rfl
    · exact (bne_eq_false_iff_eq.mp hb).symm
  | _ => cases h

/-- A variable of the whole target asks as its value does. -/
theorem asking_shareVariable (hpart : stmt.part = .shared) :
    Within (Asking false (asks (topTranslated stmt))) (shareVariable stmt) := by
  cases stmt with
  | shared pos target type value =>
    change Within (Asking false (asks value.translated)) (addShared target type value)
    cases value with
    | truth c =>
      refine (.bind (.pure _) fun v => ?_ : Within (Asking false false) _)
      exact .storeLiteral asking_moveTo (asking_addVariable · · · false) _ _ _ v _
    | _ =>
      refine .before (G := fun es => Asking false (asks es)) (asking_expression _) fun v => ?_
      exact .storeLiteral asking_moveTo (asking_addVariable · · · false) _ _ _ v _
  | malformed pos part f => exact .fault _
  | _ => cases hpart

/-- The block that a hat becomes. Its arguments are translated, but a receiver takes the name as
it is written, and a key that is let go is at first a key that is pressed. -/
inductive IsHatBlock : Expr → List Expr → Value → Prop
  | released {pos : Position} {object key : Expr} {rest : List Expr} {v : Value}
      {s t : BuildState} (hkey : expression .script key s = .ok v t) :
      IsHatBlock (.attr pos object "on_keyrelease") (key :: rest) (.op .whenKeyPressed [v])
  | received {pos : Position} {object written : Expr} {name : String} {rest : List Expr}
      {own known : Value} {s : BuildState} (hname : name ≠ "on_keyrelease")
      (hevent : Builtins.hats.resolve (.attr pos object name) =
        some (.entry .whenBroadcastReceived))
      (hwritten : writtenName written s = .ok own s) (hsame : known = own ∨ known.same own = true) :
      IsHatBlock (.attr pos object name) (written :: rest)
        (.op .whenBroadcastReceived [.broadcast known])
  | plain {pos : Position} {object : Expr} {name : String} {arguments : List Expr}
      {values : List Value} {op : Opcode} {s t : BuildState} (hname : name ≠ "on_keyrelease")
      (hevent : Builtins.hats.resolve (.attr pos object name) = some (.entry op))
      (hop : op ≠ .whenBroadcastReceived)
      (hvalues : expressions .script arguments s = .ok values t) :
      IsHatBlock (.attr pos object name) arguments (.op op values)

/-- A script starts with the block of a hat. -/
def StartsWithHat (hat : Stmt) (script : List Value) : Prop :=
  match hat with
  | .hat _ event arguments _ =>
    ∃ block rest, script = block :: rest ∧ IsHatBlock event arguments block
  | _ => False

theorem broadcastNamed_name (h : broadcastNamed name s = .ok c s') :
    c.name = name ∨ c.name.same name = true := by
  rcases broadcastNamed_ok h with ⟨-, -, hsame⟩ | ⟨-, -, hname, -⟩
  · exact .inr hsame
  · exact .inl hname

/-- Asking comes first, and then the script of a hat is complete. -/
structure Completes (used : Bool) (own : List Value) (s s' : BuildState) : Prop where
  flag : s'.frame.cloneFlag.isSome = (s.frame.cloneFlag.isSome || used)
  pending : s'.frame.pending = s.frame.pending ++ (newScripts used s.frame.cloneFlag ++ [own])
  building : s'.frame.building = s.frame.building

theorem Tracked.completes (h : Tracked used s t) (hflag : s'.frame.cloneFlag = t.frame.cloneFlag)
    (hpending : s'.frame.pending = t.frame.pending ++ [own])
    (hbuilding : s'.frame.building = t.frame.building) : Completes used own s s' := by
  refine ⟨?_, ?_, hbuilding.trans h.building⟩
  · rw [hflag, h.flag]
  · rw [hpending, h.pending, List.append_assoc]

/-- A hat asks as its arguments and its body do, and completes one script. -/
theorem addHat_completes (hb : s.frame.building = "")
    (h : addHat event arguments body s = .ok () s') :
    ∃ block rest, IsHatBlock event arguments block ∧
      Completes (asks (hatTranslated event arguments ++ Stmt.translatedAll false body))
        (block :: rest) s s' := by
  have hb : (s.frame.building != "") = false := by rw [hb]; rfl
  cases event with
  | attr pos object name =>
    rw [addHat] at h
    by_cases hname : (name == "on_keyrelease") = true
    · rw [if_pos hname] at h
      obtain rfl := eq_of_beq hname
      obtain ⟨key, rest, v, t, t₁, blocks, rfl, hkey, hbody, rfl⟩ := addKeyRelease_ok h
      have hasks := (asking_expression key _ _ _ hkey).trans (asking_script true body _ _ _ hbody) hb
      rw [asks_append]
      exact ⟨_, _, .released hkey, hasks.completes rfl rfl rfl⟩
    · rw [if_neg hname] at h
      have hname' : name ≠ "on_keyrelease" := fun heq => hname (beq_iff_eq.mpr heq)
      rw [hatTranslated, if_neg hname, asks_append]
      generalize hevent : Builtins.hats.resolve (.attr pos object name) = found at h ⊢
      split at h
      · obtain ⟨written, rest, message, own, t, t₁, t₂, t₃, c, setter, blocks, rfl, -, hwritten,
          hbroadcast, henter, hsetter, hbody, hexit⟩ := addReceiver_ok h
        have hmessage := Within.receiveMessage (R := Asking false false)
          (fun _ => asking_addVariable _ _ _ _) message c.message
        have hasks := ((asking_broadcastNamed own _ _ _ hbroadcast).trans
          ((asking_enterScope _ _ _ henter).trans ((hmessage _ _ _ hsetter).trans
            (asking_script false body _ _ _ hbody)))) hb
        obtain ⟨_, _, _, -, rfl⟩ := exitScope_ok.mp hexit
        exact ⟨_, _, .received hname' hevent hwritten (broadcastNamed_name hbroadcast),
          hasks.completes rfl rfl rfl⟩
      · rename_i op hop
        obtain ⟨values, t, t₁, blocks, hvalues, hbody, rfl⟩ := addPlainHat_ok h
        have hasks := (asking_expressions arguments _ _ _ hvalues).trans
          (asking_script true body _ _ _ hbody) hb
        split
        · rename_i heq
          cases heq
          exact absurd rfl hop
        · exact ⟨_, _, .plain hname' hevent hop hvalues, hasks.completes rfl rfl rfl⟩
      · cases h
  | _ => cases h

/-- The hats before the first one that asks for a clone, if the variable is not there yet. -/
def hatsBefore (flagged : Bool) (hats : List Stmt) : List Stmt :=
  if flagged then [] else hats.takeWhile fun hat => !asks (topTranslated hat)

/-- The hats from the first one on that asks for a clone. -/
def hatsAfter (flagged : Bool) (hats : List Stmt) : List Stmt :=
  if flagged then hats else hats.dropWhile fun hat => !asks (topTranslated hat)

theorem hatOf_completes (hb : s.frame.building = "") (h : hatOf stmt s = .ok () s') :
    ∃ own, StartsWithHat stmt own ∧ Completes (asks (topTranslated stmt)) own s s' := by
  cases stmt with
  | hat pos event arguments body =>
    obtain ⟨_, t, hmove, h⟩ := bind_ok.mp h
    have hframe := (quiet_moveTo hmove).frame
    obtain ⟨block, rest, hblock, hcompletes⟩ := addHat_completes (by rw [hframe]; exact hb) h
    refine ⟨block :: rest, ⟨block, rest, rfl, hblock⟩, ?_⟩
    obtain ⟨hflag, hpending, hbuilding⟩ := hcompletes
    rw [hframe] at hflag hpending hbuilding
    exact ⟨hflag, hpending, hbuilding⟩
  | malformed pos part f =>
    obtain ⟨_, t, -, h⟩ := bind_ok.mp h
    cases h
  | _ => cases h

/-- The hats complete one script each, in their order, and the scripts for clones come right
before the script of the first hat that asks. The variable for clones is there if one of them
does. -/
theorem hats_complete (hb : s.frame.building = "")
    (h : (hats.forM hatOf : Build Unit) s = .ok () s') :
    ∃ own own', List.Forall₂ StartsWithHat (hatsBefore s.frame.cloneFlag.isSome hats) own ∧
      List.Forall₂ StartsWithHat (hatsAfter s.frame.cloneFlag.isSome hats) own' ∧
      s'.frame.cloneFlag.isSome =
        (s.frame.cloneFlag.isSome || hats.any fun hat => asks (topTranslated hat)) ∧
      s'.frame.pending = s.frame.pending ++ (own ++
        (newScripts (hats.any fun hat => asks (topTranslated hat)) s.frame.cloneFlag ++ own')) := by
  induction hats generalizing s with
  | nil =>
    obtain ⟨-, rfl⟩ := pure_ok.mp h
    refine ⟨[], [], ?_, ?_, by simp, by simp [newScripts]⟩
    all_goals cases s.frame.cloneFlag.isSome <;> exact .nil
  | cons hat rest ih =>
    obtain ⟨t, hfirst, hrest⟩ := forM_cons_ok.mp h
    obtain ⟨script, hscript, hflag, hpending, hbuilding⟩ := hatOf_completes hb hfirst
    obtain ⟨own, own', hown, hown', hlast, hend⟩ := ih (hbuilding.trans hb) hrest
    rw [List.any_cons, newScripts_or hflag, hend, hpending, hlast, hflag, Bool.or_assoc]
    rw [hflag] at hown hown'
    cases hasked : s.frame.cloneFlag.isSome || asks (topTranslated hat) with
    | true =>
      rw [hasked] at hown hown' hflag
      cases hown
      refine ⟨[], script :: own', ?_, ?_, rfl, ?_⟩
      · cases hs : s.frame.cloneFlag.isSome <;> simp_all [hatsBefore]
      · cases hs : s.frame.cloneFlag.isSome <;> simp_all [hatsAfter]
      · obtain ⟨d, hd⟩ := Option.isSome_iff_exists.mp hflag
        simp [newScripts, hd]
    | false =>
      obtain ⟨hs, hused⟩ := Bool.or_eq_false_iff.mp hasked
      rw [hasked] at hown hown'
      refine ⟨script :: own, own', ?_, ?_, rfl, ?_⟩
      · simpa [hatsBefore, hs, hused] using ⟨hscript, hown⟩
      · simpa [hatsAfter, hs, hused] using hown'
      · simp [newScripts, hused]

/-- Whether a clone is asked for before the hats are built. -/
def asksEarly (body : List Stmt) : Bool :=
  body.any fun stmt => stmt.part != .hat && asks (topTranslated stmt)

/-- Only variables, functions and hats are translated at the top level. -/
theorem part_of_asks (h : asks (topTranslated stmt) = true) :
    stmt.part = .shared ∨ stmt.part = .function ∨ stmt.part = .hat := by
  cases stmt with
  | shared => exact .inl rfl
  | function => exact .inr (.inl rfl)
  | hat => exact .inr (.inr rfl)
  | _ => cases h

theorem asksEarly_eq (body : List Stmt) :
    asksEarly body = ((ofPart .shared body).any (fun stmt => asks (topTranslated stmt)) ||
      (ofPart .function body).any fun stmt => asks (topTranslated stmt)) := by
  rw [Bool.eq_iff_iff]
  simp only [asksEarly, Bool.or_eq_true, List.any_eq_true, List.mem_filter, Bool.and_eq_true,
    bne_iff_ne, beq_iff_eq]
  constructor
  · rintro ⟨stmt, hstmt, hpart, hasks⟩
    rcases part_of_asks hasks with h | h | h
    · exact .inl ⟨stmt, ⟨hstmt, h⟩, hasks⟩
    · exact .inr ⟨stmt, ⟨hstmt, h⟩, hasks⟩
    · exact absurd h hpart
  · rintro (⟨stmt, ⟨hstmt, h⟩, hasks⟩ | ⟨stmt, ⟨hstmt, h⟩, hasks⟩)
    all_goals exact ⟨stmt, hstmt, by rw [h]; decide, hasks⟩

theorem asks_body_eq (body : List Stmt) :
    (body.any fun stmt => asks (topTranslated stmt)) = (asksEarly body ||
      (ofPart .hat body).any fun stmt => asks (topTranslated stmt)) := by
  rw [Bool.eq_iff_iff]
  simp only [asksEarly, Bool.or_eq_true, List.any_eq_true, List.mem_filter, Bool.and_eq_true,
    bne_iff_ne, beq_iff_eq]
  constructor
  · rintro ⟨stmt, hstmt, hasks⟩
    by_cases hpart : stmt.part = .hat
    · exact .inr ⟨stmt, ⟨hstmt, hpart⟩, hasks⟩
    · exact .inl ⟨stmt, hstmt, hpart, hasks⟩
  · rintro (⟨stmt, hstmt, -, hasks⟩ | ⟨stmt, ⟨hstmt, -⟩, hasks⟩) <;> exact ⟨stmt, hstmt, hasks⟩

/-- Of a target that is built anew, the variable for clones is there if an expression that is
translated asks for a clone, and the scripts are complete. -/
theorem target_completes (hframe : s.frame = Frame.fresh s.frame.place)
    (h : target body s = .ok () s') :
    ∃ own own', List.Forall₂ StartsWithHat
        (hatsBefore (asksEarly body) (body.filter fun stmt => stmt.part == .hat)) own ∧
      List.Forall₂ StartsWithHat
        (hatsAfter (asksEarly body) (body.filter fun stmt => stmt.part == .hat)) own' ∧
      s'.frame.cloneFlag.isSome = (body.any fun stmt => asks (topTranslated stmt)) ∧
      s'.frame.pending = own ++
        ((if body.any fun stmt => asks (topTranslated stmt) then cloneScripts else []) ++ own') := by
  obtain ⟨t₀, t₁, t₂, t₃, t₄, t₅, hshares, hquiet, hfunctions, hquiet', hhats, hquiet'', hscripts⟩ :=
    target_parts h
  have hb : (s.frame.building != "") = false := by rw [hframe]; rfl
  have hshared := Within.each (G := fun es => Asking false (asks es)) (fun stmt hstmt =>
    asking_shareVariable (eq_of_beq (List.mem_filter.mp hstmt).2)) _ _ _ hshares
  have hblocks := Within.each (G := fun es => Asking false (asks es))
    (fun stmt _ => asking_functionOf stmt) _ _ _ hfunctions
  have hearly : Tracked (asksEarly body) s t₃ := by
    have hdone := hshared.trans ((Tracked.of_frame hquiet.frame).asking.trans
      (hblocks.trans (Tracked.of_frame hquiet'.frame).asking)) hb
    rw [asksEarly_eq]
    simpa [asks, List.any_flatMap] using hdone
  have hflag : t₃.frame.cloneFlag.isSome = asksEarly body := by
    rw [hearly.flag, hframe]
    rfl
  have hpending : t₃.frame.pending = newScripts (asksEarly body) none := by
    rw [hearly.pending, hframe]
    rfl
  obtain ⟨own, own', hown, hown', hlast, hdone⟩ :=
    hats_complete (hearly.building.trans (by rw [hframe]; rfl)) hhats
  rw [hflag] at hown hown' hlast
  have hadded : Tracked false t₅ s' := by
    refine Within.forM (R := Asking (t₅.frame.building != "") false) (fun script => ?_) _ _ _ _
      hscripts rfl
    intro s u s' h
    obtain rfl := modifyTarget_ok.mp h
    exact fun _ => .of_same rfl rfl rfl
  have hall : s'.frame.pending = t₄.frame.pending := by
    rw [hadded.pending, hquiet''.frame]
    exact List.append_nil _
  refine ⟨own, own', hown, hown', ?_, ?_⟩
  · rw [hadded.flag, hquiet''.frame, hlast, Bool.or_false, asks_body_eq body]
  rw [hall, hdone, hpending, asks_body_eq body]
  cases hasks : asksEarly body with
  | true =>
    rw [hasks] at hown hflag
    obtain ⟨d, hd⟩ := Option.isSome_iff_exists.mp hflag
    cases hown
    simp [hd, newScripts]
  | false =>
    rw [hasks] at hflag
    have hnone : t₃.frame.cloneFlag = none := by simpa using hflag
    simp [hnone, newScripts]

/-- The scripts of a target that is built anew. Each hat makes one script, which starts with the
block of the hat, and the scripts keep the order of the hats. The two scripts for clones are there
exactly if some expression that is translated asks for a clone, and then they come right before
the script of the first hat that does. -/
theorem target_scripts (body : List Stmt) (s s' : BuildState) (t : Target)
    (hframe : s.frame = Frame.fresh s.frame.place)
    (ht : s.draft.project.target? s.frame.place = some t) (h : target body s = .ok () s') :
    ∃ t' own own', s'.draft.project.target? s.frame.place = some t' ∧
      t'.scripts = t.scripts ++ (own ++
        ((if body.any fun stmt => asks (topTranslated stmt) then cloneScripts else []) ++ own')) ∧
      List.Forall₂ StartsWithHat
        (hatsBefore (asksEarly body) (body.filter fun stmt => stmt.part == .hat)) own ∧
      List.Forall₂ StartsWithHat
        (hatsAfter (asksEarly body) (body.filter fun stmt => stmt.part == .hat)) own' := by
  obtain ⟨own, own', hown, hown', -, hpending⟩ := target_completes hframe h
  have hstart : Holds s.frame.place t.custom t.scripts [] s :=
    ⟨rfl, congrArg (Option.map Target.made) ht, by rw [hframe]; rfl⟩
  obtain ⟨blocks, -, _, hmade, -⟩ := target_made hstart h
  obtain ⟨t', ht', hparts⟩ := Option.map_eq_some_iff.mp hmade.target
  refine ⟨t', own, own', ht', ?_, hown, hown'⟩
  have hscripts' : t'.scripts = t.scripts ++ s'.frame.pending := by
    rw [hmade.pending]
    exact (Prod.mk.inj hparts).2
  rw [hscripts', hpending]

/-- A hat that gives a value back, which is not translated. -/
def flagScript : Stmt :=
  .hat (.start 0) (.attr (.start 0) (.str "scratch") "on_flag") []
    [.giveBack (.start 0) (some (.attr (.start 0) (.str "this") "is_clone"))]

def keyScript : Stmt :=
  let test : Expr := .compare (.start 0) .eq [.attr (.start 0) (.str "this") "is_clone", .int 1]
  .hat (.start 0) (.attr (.start 0) (.str "scratch") "on_keyrelease") [.str "space"]
    [.ifThen (.start 0) test [.whileLoop (.start 0) test []]]

def cloneScript : Stmt := .hat (.start 0) (.attr (.start 0) (.str "scratch") "on_clone") [] []

def catBuilder : BuildState :=
  { BuildState.fresh (.fresh (some .error) false) "project" with
    draft := { Draft.fresh "project" with
      project.sprites := [Target.fresh "cat" []]
      sprites := [("cat", ⟨0, "cat.sbs", [], []⟩)] }
    frame := Frame.fresh (.sprite 0) }

theorem target_scripts_cat : ∃ s' t' first second third,
    target [cloneScript, flagScript, keyScript] catBuilder = .ok () s' ∧
      s'.draft.project.target? (.sprite 0) = some t' ∧
      t'.scripts = [first, second] ++ (cloneScripts ++ [third]) ∧ StartsWithHat cloneScript first ∧
      StartsWithHat flagScript second ∧ StartsWithHat keyScript third := by
  obtain ⟨s', hbuild⟩ : ∃ s', target [cloneScript, flagScript, keyScript] catBuilder = .ok () s' :=
    ⟨_, rfl⟩
  obtain ⟨t', own, own', ht', hscripts, hown, hown'⟩ :=
    target_scripts _ catBuilder s' (Target.fresh "cat" []) rfl rfl hbuild
  obtain _ | ⟨hfirst, _ | ⟨hsecond, _ | _⟩⟩ :
    List.Forall₂ StartsWithHat [cloneScript, flagScript] own := hown
  obtain _ | ⟨hthird, _ | _⟩ : List.Forall₂ StartsWithHat [keyScript] own' := hown'
  exact ⟨s', t', _, _, _, hbuild, ht', hscripts, hfirst, hsecond, hthird⟩

end

end Build

end BlockScript
