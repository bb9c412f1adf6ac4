import BlockScript.Proofs.Lookup

/-!
What blocks change. A few blocks set a variable or change a list, and the blocks with scripts
inside them change what those scripts change. None of the blocks that the names of the language
stand for is among these, but every function of a variable is.
-/
namespace BlockScript

/-- The argument that a block sets or changes. A list is the last argument of its blocks, but
for the one that replaces an item. -/
def Opcode.target? : Opcode → List Value → Option Value
  | .setVariable, arguments => arguments.head?
  | .replaceInList, arguments => arguments[1]?
  | .clearList, arguments | .addToList, arguments | .insertIntoList, arguments
  | .deleteOfList, arguments => arguments.getLast?
  | _, _ => none

/-- Whether a block neither changes a variable nor has a script inside it. -/
def Opcode.inert : Opcode → Bool
  | .setVariable | .replaceInList | .clearList | .addToList | .insertIntoList | .deleteOfList
  | .ifThen | .repeatUntil | .forever => false
  | _ => true

namespace Value

/-- The variable that a block itself changes. -/
def ownChange (op : Opcode) (arguments : List Value) : List Data :=
  match op.target? arguments with
  | some (data d) => [d]
  | _ => []

mutual

/-- The variables that a block changes, each as often as a block changes it. -/
def changes : Value → List Data
  | block .ifThen (_ :: body) _ alternative => changesAll body ++ changesElse alternative
  | block .repeatUntil (_ :: body) _ _ => changesAll body
  | block .forever body _ _ => changesAll body
  | block op arguments _ _ => ownChange op arguments
  | _ => []

def changesAll : List Value → List Data
  | [] => []
  | b :: rest => changes b ++ changesAll rest

def changesElse : Option (List Value) → List Data
  | none => []
  | some script => changesAll script

end

theorem changesAll_append (first second : List Value) :
    changesAll (first ++ second) = changesAll first ++ changesAll second := by
  induction first with
  | nil => rfl
  | cons b rest ih => rw [List.cons_append, changesAll, changesAll, ih, List.append_assoc]

theorem mem_changesAll : d ∈ changesAll script ↔ ∃ b ∈ script, d ∈ b.changes := by
  induction script with
  | nil => simp [changesAll]
  | cons b rest ih => simp [changesAll, ih]

theorem changes_inert {op : Opcode} (h : op.inert = true) (arguments : List Value) :
    (Value.op op arguments).changes = [] := by
  cases op <;> first | rfl | cases h

theorem apply_ok {op : Opcode} (h : Value.apply op arguments = .ok v) : v = .op op arguments := by
  unfold Value.apply at h
  split at h
  · split at h
    · cases h
    · exact (Except.ok.inj h).symm
  · exact (Except.ok.inj h).symm

end Value

open Value

/-- Whether a name of the language, run as a statement, builds a block that changes nothing. -/
def Builtin.inert : Builtin → Bool
  | block op | broadcast op => op.inert
  | changeEffect | setEffect | changeLayer | clone | glideTo | glideToPosition => true
  | _ => false

theorem Builtin.apply_inert {b : Builtin} (hb : b.inert = true) (h : b.apply arguments = .ok v) :
    ∃ op operands, op.inert = true ∧ v = .op op operands := by
  have hop : ∀ {op : Opcode} {operands : List Value}, op.inert = true →
      Except.ok (Value.op op operands) = (Except.ok v : Outcome Value) →
      ∃ op operands, op.inert = true ∧ v = .op op operands := by
    intro op operands hop heq
    exact ⟨op, operands, hop, (Except.ok.inj heq).symm⟩
  unfold Builtin.apply at h
  split at h
  · cases happly : Value.apply _ arguments with
    | error f =>
      rw [happly] at h
      cases h
    | ok w =>
      rw [happly] at h
      exact ⟨_, arguments, hb, (Except.ok.inj h).symm.trans (apply_ok happly)⟩
  all_goals first
    | exact absurd hb Bool.false_ne_true
    | exact hop rfl h
    | exact hop hb h
    | exact hop (by split <;> rfl) h
    | cases h

theorem Builtin.changes_apply {b : Builtin}
    (hb : b.inert = true) (h : b.apply arguments = .ok v) : v.changes = [] := by
  obtain ⟨op, operands, hop, rfl⟩ := apply_inert hb h
  exact changes_inert hop operands

theorem functions_inert : Builtins.functions.All fun entry => entry.builtin.inert = true := by
  simp [Builtins.functions, NameTable.All, NameTable.AllNamed, Builtins.anywhere,
    Builtins.inSprites, Builtin.inert, Opcode.inert]

theorem setters_inert : Builtins.setters.All fun entry => entry.builtin.inert = true := by
  simp [Builtins.setters, NameTable.All, NameTable.AllNamed, Builtins.anywhere,
    Builtins.inSprites, Builtin.inert, Opcode.inert]

/-- Whether what a name after a variable builds changes the variable. -/
def MemberAction.isChange : MemberAction → Bool
  | block op => op = .addToList ∨ op = .clearList
  | indexOf => false
  | remove | insert => true

theorem MemberAction.changes_apply {action : MemberAction} {d : Data} (haction : action.isChange = true)
    (h : action.apply arguments (.data d) = .ok v) : v.changes = [d] := by
  have hplaced : ∀ {i : Except Fault Value} {build : Value → Value},
      (∀ place, (build place).changes = [d]) → (do return build (← i)) = Except.ok v →
      v.changes = [d] := by
    intro i build hbuild hv
    cases i with
    | error f => cases hv
    | ok place =>
      rw [← Except.ok.inj hv]
      exact hbuild place
  unfold MemberAction.apply at h
  split at h
  · rw [Value.apply_ok h]
    simp only [isChange, decide_eq_true_eq] at haction
    rcases haction with rfl | rfl <;> simp [changes, ownChange, Opcode.target?]
  · cases haction
  · exact hplaced (fun _ => rfl) h
  · exact hplaced (fun _ => rfl) h
  · cases h

/-- Every function of a variable changes it. -/
theorem MemberAction.isChange_function (htable : tableOf type .function = .ok table)
    (haction : Assoc.get? name table = some action) : action.isChange = true := by
  have hmem := Assoc.mem_of_get? haction
  unfold tableOf at htable
  split at htable <;> cases htable <;> grind [isChange]

end BlockScript
