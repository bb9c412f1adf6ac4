import BlockScript.Build.Script

/-!
Successful steps of building. Each primitive step has one lemma that says exactly when it
succeeds, what it gives and what state it leaves; a step made of others is taken apart by
the lemma on sequences. Failures are not described here: a failing step leaves no state
that anything else is proved about.
-/
namespace BlockScript

theorem ok_of_bind {ε α β : Type} {x : Except ε α} {f : α → Except ε β} {b : β}
    (h : (x >>= f) = .ok b) : ∃ a, x = .ok a ∧ f a = .ok b := by
  cases x with
  | error e => cases h
  | ok a => exact ⟨a, rfl, h⟩

namespace NameTable

variable {α : Type} {P : α → Prop}

mutual

/-- Every entry of a table, however deep, has a property. -/
def All (P : α → Prop) : NameTable α → Prop
  | entry a => P a
  | table names => AllNamed P names

def AllNamed (P : α → Prop) : List (String × NameTable α) → Prop
  | [] => True
  | (_, t) :: rest => All P t ∧ AllNamed P rest

end

theorem AllNamed.lookup (h : AllNamed P names) (ht : names.lookup name = some t) : All P t := by
  induction names with
  | nil => cases ht
  | cons entry rest ih =>
    obtain ⟨own, u⟩ := entry
    rw [List.lookup_cons] at ht
    split at ht
    · cases ht
      exact h.1
    · exact ih h.2 ht

theorem All.find? (h : All P root) (ht : root.find? name = some t) : All P t := by
  cases root with
  | entry a => cases ht
  | table names => exact AllNamed.lookup h ht

theorem All.resolve (h : All P root) (e : Expr) (ht : root.resolve e = some t) : All P t := by
  fun_induction NameTable.resolve root e generalizing t with
  | case1 s | case2 pos n => exact h.find? ht
  | case3 pos object n ih =>
    obtain ⟨u, hu, ht⟩ := Option.bind_eq_some_iff.mp ht
    exact (ih hu).find? ht
  | case4 e => cases ht

end NameTable

namespace Build

variable {α β : Type} {s s' : BuildState}

variable {x : Build α} {a : α}

theorem bind_ok : (x >>= f) s = .ok b s' ↔ ∃ a t, x s = .ok a t ∧ f a t = .ok b s' := by
  change EStateM.bind x f s = _ ↔ _
  cases hx : x s with
  | ok a t =>
    simp only [EStateM.bind, hx, EStateM.Result.ok.injEq]
    constructor
    · intro h
      exact ⟨a, t, ⟨rfl, rfl⟩, h⟩
    · rintro ⟨_, _, ⟨rfl, rfl⟩, h⟩
      exact h
  | error e t => simp [EStateM.bind, hx]

theorem bind_bind_ok {f : α → Build β} {g : α → β → Build γ} :
    (x >>= fun a => f a >>= g a) s = .ok c s' ↔
      ∃ a t, x s = .ok a t ∧ ∃ b t', f a t = .ok b t' ∧ g a b t' = .ok c s' := by
  simp only [bind_ok]

theorem bind_of_ok (h : x s = .ok a s') : (x >>= f) s = f a s' := by
  change EStateM.bind x f s = _
  simp [EStateM.bind, h]

theorem bind_of_error {failure : Failure} (h : x s = .error failure s') :
    (x >>= f) s = .error failure s' := by
  change EStateM.bind x f s = _
  simp [EStateM.bind, h]

theorem pure_ok {b : α} : (pure a : Build α) s = .ok b s' ↔ a = b ∧ s = s' := by
  change EStateM.Result.ok a s = .ok b s' ↔ _
  simp

theorem map_ok {f : α → β} : (f <$> x) s = .ok b s' ↔ ∃ a, x s = .ok a s' ∧ f a = b := by
  change EStateM.map f x s = _ ↔ _
  cases hx : x s with
  | ok a t =>
    simp only [EStateM.map, hx, EStateM.Result.ok.injEq]
    constructor
    · rintro ⟨rfl, rfl⟩
      exact ⟨a, ⟨rfl, rfl⟩, rfl⟩
    · rintro ⟨_, ⟨rfl, rfl⟩, rfl⟩
      exact ⟨rfl, rfl⟩
  | error e t => simp [EStateM.map, hx]

/-- A step that reads the state goes on in the same state. -/
theorem get_bind_ok {f : BuildState → Build β} :
    ((get : Build BuildState) >>= f) s = .ok b s' ↔ f s s = .ok b s' := Iff.rfl

theorem modify_ok {f : BuildState → BuildState} :
    (modify f : Build Unit) s = .ok u s' ↔ f s = s' := by
  change EStateM.Result.ok PUnit.unit (f s) = .ok u s' ↔ _
  simp

theorem fault_ok {f : Fault} : (fault f : Build α) s = .ok a s' ↔ False := by
  change EStateM.Result.error _ s = .ok a s' ↔ _
  simp

theorem reject_ok : (reject p : Build α) s = .ok a s' ↔ False := by
  change EStateM.Result.error _ s = .ok a s' ↔ _
  simp

theorem ofExcept_ok {x : Except Fault α} : ofExcept x s = .ok a s' ↔ x = .ok a ∧ s = s' := by
  cases x with
  | ok b => simp [ofExcept, pure_ok]
  | error f => simp [ofExcept, fault_ok]

theorem ofOutcome_ok {x : Outcome α} : ofOutcome x s = .ok a s' ↔ x = .ok a ∧ s = s' := by
  rcases x with (f | p) | b
  · simp [ofOutcome, fault_ok]
  · simp [ofOutcome, reject_ok]
  · simp [ofOutcome, pure_ok]

theorem modifyFrame_ok {f : Frame → Frame} :
    modifyFrame f s = .ok u s' ↔ { s with frame := f s.frame } = s' := modify_ok

theorem modifyDraft_ok {f : Draft → Draft} :
    modifyDraft f s = .ok u s' ↔ { s with draft := f s.draft } = s' := modify_ok

theorem modifyTarget_ok {f : Target → Target} :
    modifyTarget place f s = .ok u s' ↔
      { s with draft.project := s.draft.project.modify place f } = s' := modify_ok

theorem ofExcept_bind_ok {x : Except Fault α} :
    (ofExcept x >>= f) s = .ok b s' ↔ ∃ a, x = .ok a ∧ f a s = .ok b s' := by
  simp [bind_ok, ofExcept_ok, and_assoc]

theorem modify_bind_ok {f : BuildState → BuildState} :
    ((modify f : Build Unit) >>= g) s = .ok b s' ↔ g () (f s) = .ok b s' := Iff.rfl

theorem modifyFrame_bind_ok {f : Frame → Frame} :
    (modifyFrame f >>= g) s = .ok b s' ↔ g () { s with frame := f s.frame } = .ok b s' := Iff.rfl

theorem modifyDraft_bind_ok {f : Draft → Draft} :
    (modifyDraft f >>= g) s = .ok b s' ↔ g () { s with draft := f s.draft } = .ok b s' := Iff.rfl

theorem inSprite_ok {b : Bool} : inSprite s = .ok b s' ↔ s.frame.place.isSprite = b ∧ s = s' := by
  change EStateM.Result.ok _ s = .ok b s' ↔ _
  simp

/-- Looking at a tree with a position changes nothing but the current position. -/
theorem moveTo_ok {p : Position} :
    moveTo p s = .ok u s' ↔
      p ≠ .missing ∧ { s with session.position := match p with
        | .start n => some n
        | _ => none } = s' := by
  cases p with
  | missing => simp [moveTo, fault_ok]
  | nowhere | start n => simp [moveTo, setPosition, modify_ok]

theorem requireScript_ok : requireScript s = .ok u s' ↔ s.frame.unfinished ≠ [] ∧ s = s' := by
  rw [requireScript, get_bind_ok]
  cases h : s.frame.unfinished with
  | nil => simp [fault_ok]
  | cons script rest => simp [pure_ok]

/-- Every success of a step gives something with a property. -/
def Gives (P : α → Prop) (x : Build α) : Prop := ∀ s a s', x s = .ok a s' → P a

namespace Gives

theorem pure {a : α} (h : P a) : Gives P (pure a : Build α) :=
  fun _ _ _ hrun => (pure_ok.mp hrun).1 ▸ h

theorem fault {f : Fault} : Gives P (fault f : Build α) := fun _ _ _ h => (fault_ok.mp h).elim

theorem reject : Gives P (reject p : Build α) := fun _ _ _ h => (reject_ok.mp h).elim

theorem any (x : Build α) : Gives (fun _ => True) x := fun _ _ _ _ => trivial

theorem bind (hx : Gives P x) (hf : ∀ a, P a → Gives Q (f a)) : Gives Q (x >>= f) := by
  intro s b s' h
  obtain ⟨a, t, ha, hb⟩ := bind_ok.mp h
  exact hf a (hx s a t ha) t b s' hb

theorem ofExcept (x : Except Fault α) : Gives (fun a => x = .ok a) (ofExcept x) :=
  fun _ _ _ h => (ofExcept_ok.mp h).1

theorem ofOutcome (x : Outcome α) : Gives (fun a => x = .ok a) (ofOutcome x) :=
  fun _ _ _ h => (ofOutcome_ok.mp h).1

end Gives

/-- What is found in a table of names is an entry of the table. -/
theorem gives_builtin? {P : Entry → Prop} (role : Role) {table : EntryTable} (h : table.All P)
    (e : Expr) : Gives (fun found => ∀ b, found = some b → ∃ entry, P entry ∧ b = entry.builtin)
      (builtin? role table e) := by
  unfold builtin?
  cases hresolve : table.resolve e with
  | none => exact .pure fun b hb => by cases hb
  | some place =>
    cases place with
    | entry entry =>
      have hused : Gives (fun b => b = entry.builtin) (useEntry role entry) := by
        refine .bind (.any _) fun sprite _ => ?_
        split
        · exact .bind (P := fun _ => False) .reject fun _ h => h.elim
        · exact .pure rfl
      refine .bind hused fun b hb => .pure fun own hown => ?_
      obtain rfl := Option.some.inj hown
      exact ⟨entry, h.resolve e hresolve, hb⟩
    | table names =>
      have hunused : Gives (fun _ => False) (useTable role names.length) := by
        unfold useTable
        split
        · exact .fault
        · refine .bind (.any _) fun sprite _ => ?_
          split
          · exact .reject
          · exact .fault
      exact .bind hunused fun b hb => hb.elim

theorem gives_builtin (role : Role) (h : table.All P) (e : Expr) :
    Gives (fun b => ∃ entry, P entry ∧ b = entry.builtin) (builtin role table e) := by
  refine .bind (gives_builtin? role h e) fun found hfound => ?_
  cases found with
  | some b => exact .pure (hfound b rfl)
  | none =>
    dsimp only
    cases e.position with
    | ok p => exact .bind (.any _) fun _ _ => .reject
    | error f => exact .reject

end Build

end BlockScript
