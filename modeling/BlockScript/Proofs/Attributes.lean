import BlockScript.Proofs.Consistency
import BlockScript.Proofs.ParsedScripts
import BlockScript.Proofs.Footprint

/-!
Fields, methods and functions of variables in scripts that were parsed. A variable is looked
up by the object of an attribute only if the object is a text, and the grammar gives a text
for no object but the two words for the stage and the sprite. An attribute of any other name
is looked up in the tables of known names alone, and these have none of the names that
variables have as members. So a member of a variable is never found where it is written after
the name of the variable.
-/
namespace BlockScript

namespace NameTable

variable {α : Type} {name : String}

mutual

/-- A name that stands in no table, however deep. -/
def lacks (name : String) : NameTable α → Bool
  | entry _ => true
  | table names => lacksAll name names

def lacksAll (name : String) : List (String × NameTable α) → Bool
  | [] => true
  | (own, t) :: rest => own != name && lacks name t && lacksAll name rest

end

theorem lacksAll_lookup (h : lacksAll name names = true) (ht : names.lookup other = some t) :
    other ≠ name ∧ t.lacks name = true := by
  induction names with
  | nil => cases ht
  | cons entry rest ih =>
    obtain ⟨own, u⟩ := entry
    simp only [lacksAll, Bool.and_eq_true, bne_iff_ne] at h
    rw [List.lookup_cons] at ht
    split at ht
    · rename_i hown
      cases ht
      rw [eq_of_beq hown]
      exact h.1
    · exact ih h.2 ht

theorem lacks_find? {root t : NameTable α} (h : root.lacks name = true) {other : String}
    (ht : root.find? other = some t) : other ≠ name ∧ t.lacks name = true := by
  cases root with
  | entry a => cases ht
  | table names => exact lacksAll_lookup h ht

theorem lacks_resolve {root t : NameTable α} (h : root.lacks name = true) (e : Expr)
    (ht : root.resolve e = some t) : t.lacks name = true := by
  fun_induction NameTable.resolve root e generalizing t with
  | case1 s | case2 pos n => exact (lacks_find? h ht).2
  | case3 pos object n ih =>
    obtain ⟨u, hu, ht⟩ := Option.bind_eq_some_iff.mp ht
    exact (lacks_find? (ih hu) ht).2
  | case4 e => cases ht

/-- Whatever its object stands for, an attribute of the name stands for nothing. -/
theorem resolve_attr_lacks {root : NameTable α} (h : root.lacks name = true) (pos : Position)
    (object : Expr) : root.resolve (.attr pos object name) = none := by
  rw [resolve, Option.bind_eq_none_iff]
  intro u hu
  cases hfound : u.find? name with
  | none => rfl
  | some t => exact absurd rfl (lacks_find? (lacks_resolve h object hu) hfound).1

end NameTable

namespace MemberAction

/-- The names that variables of any type have as members. -/
def names : List String := ["length", "index", "push", "remove", "clear", "insert"]

theorem mem_names (htable : tableOf type kind = .ok table) (h : Assoc.get? name table = some action)
    : name ∈ names := by
  have hmem := Assoc.mem_of_get? h
  unfold tableOf at htable
  split at htable <;> cases htable <;> grind [names]

end MemberAction

/-- None of the tables of known names has a member of a variable. -/
theorem builtins_lack_members : ∀ name ∈ MemberAction.names,
    Builtins.reporters.lacks name = true ∧ Builtins.functionReporters.lacks name = true ∧
      Builtins.functions.lacks name = true := by
  decide

/-- The name that an object is written as, if it is no more than a name. -/
def Expr.spelling? : Expr → Option String
  | .value (.str w) => some w
  | .name _ x => some x
  | _ => none

/-- What a name after a variable does, by the table of the variable's type. -/
def Data.member? (d : Data) (kind : Member) (name : String) : Option MemberAction :=
  match MemberAction.tableOf d.type.name kind with
  | .ok table => Assoc.get? name table
  | .error _ => none

theorem Data.mem_names {d : Data} {kind : Member} {name : String} {action : MemberAction}
    (h : d.member? kind name = some action) : name ∈ MemberAction.names := by
  unfold member? at h
  split at h
  · rename_i table htable
    exact MemberAction.mem_names htable h
  · cases h

namespace Build

open Grammar

variable {s s' : BuildState}

theorem member_of_table (h : d.member? kind name = some action) (pos : Position) (object : Expr)
    (arguments : List Value) :
    member kind pos object name arguments d = ofExcept (action.apply arguments (.data d)) := by
  unfold Data.member? at h
  split at h
  · rename_i table htable
    simp only [member, htable, ofExcept, pure_bind, h]
  · cases h

section

variable {object : Expr} {x : String} {d : Data} {pos : Position} {name : String}
  {action : MemberAction}

/-- Nothing in a tidy table has no name. -/
theorem findScoped_unnamed (h : Tidy sprite last table) (scopes : List Nat) :
    findScoped none scopes table = .ok none := by
  simp [findScoped_eq h.keys, shows]

/-- No variable is found for an object that is a tree. -/
theorem find?_place (hs : Consistent s) (hplace : object.isPlace = true) :
    find? (.ofExpr object) s = .ok none s := by
  obtain ⟨locals, hlocals, htidy, -⟩ := hs.table
  have hkey : Key.ofExpr object = ⟨none, none⟩ := by
    cases object <;> first | rfl | cases hplace
  rw [hkey, find?_ok, hlocals]
  exact ⟨findScoped_unnamed htidy _, rfl⟩

theorem isText_place (hplace : object.isPlace = true) (text : String) :
    object.isText text = false := by
  cases object <;> first | rfl | cases hplace

theorem place_of_not_word (hattached : (Expr.attr pos e name).Attached) (hword : e.isWord = false) :
    e.isPlace = true :=
  (hattached pos e name rfl).resolve_left (by simp [hword])

/-- A word is looked up as the name it is. -/
theorem ofExpr_word (hword : object.isWord = true) (hx : object.spelling? = some x) :
    Key.ofExpr object = .ofName x := by
  cases object with
  | value v =>
    cases v with
    | str w => exact congrArg Key.ofName (Option.some.inj hx)
    | _ => cases hx
  | name => cases hword
  | _ => cases hx

/-- An attribute that a table of known names does not have is rejected. -/
theorem builtin_of_lacks (h : table.lacks name = true) :
    ∃ t, builtin role table (.attr pos object name) s = (reject (.notFound role) : Build _) t := by
  have hnone : builtin? role table (.attr pos object name) s = .ok none s := by
    rw [builtin?, NameTable.resolve_attr_lacks h]
    rfl
  rw [builtin, bind_of_ok hnone]
  cases pos with
  | missing => exact ⟨s, rfl⟩
  | nowhere | start n => exact ⟨_, rfl⟩

theorem calleeOf_of_lacks (h : Builtins.functions.lacks name = true) (given : Nat) :
    calleeOf (.attr pos object name) given s = .ok .unknown s := by
  have hnone : builtin? .function Builtins.functions (.attr pos object name) s = .ok none s := by
    rw [builtin?, NameTable.resolve_attr_lacks h]
    rfl
  rw [calleeOf, bind_of_ok hnone]
  rfl

theorem attributeValue_member (hfind : find? (.ofExpr object) s = .ok (some d) s)
    (haction : d.member? .field name = some action) :
    attributeValue pos object name s = ofExcept (action.apply [] (.data d)) s := by
  rw [attributeValue, bind_of_ok hfind]
  exact congrFun (member_of_table haction pos object []) s

theorem attributeValue_place (hs : Consistent s) (hplace : object.isPlace = true)
    (hname : name ∈ MemberAction.names) :
    ∃ t, attributeValue pos object name s = (reject (.notFound .attr) : Build Value) t := by
  have hlacks : Builtins.reporters.lacks name = true := (builtins_lack_members name hname).1
  obtain ⟨t, ht⟩ : ∃ t, builtin .attr Builtins.reporters (.attr pos object name) s =
      (reject (.notFound .attr) : Build _) t := builtin_of_lacks hlacks
  refine ⟨t, ?_⟩
  rw [attributeValue, bind_of_ok (find?_place hs hplace)]
  simp only [isText_place hplace, Bool.false_and, Bool.false_eq_true, if_false]
  exact bind_of_error ht

theorem callValue_member (hfind : find? (.ofExpr object) s = .ok (some d) s)
    (haction : d.member? .method name = some action) (arguments : List Value) :
    callValue (.attr pos object name) arguments s =
      ofExcept (action.apply arguments (.data d)) s := by
  rw [callValue, bind_of_ok hfind]
  exact congrFun (member_of_table haction pos object arguments) s

theorem callValue_place (hs : Consistent s) (hplace : object.isPlace = true)
    (hname : name ∈ MemberAction.names) (arguments : List Value) :
    ∃ t, callValue (.attr pos object name) arguments s =
      (reject (.notFound .function) : Build Value) t := by
  have hlacks : Builtins.functionReporters.lacks name = true :=
    (builtins_lack_members name hname).2.1
  obtain ⟨t, ht⟩ : ∃ t, builtin .function Builtins.functionReporters (.attr pos object name) s =
      (reject (.notFound .function) : Build _) t := builtin_of_lacks hlacks
  refine ⟨t, ?_⟩
  rw [callValue, bind_of_ok (find?_place hs hplace), builtinValue]
  exact bind_of_error ht

theorem callStatement_member {arguments : List Expr} {values : List Value}
    (hvalues : expressions .script arguments s = .ok values s')
    (hfind : find? (.ofExpr object) s' = .ok (some d) s')
    (haction : d.member? .function name = some action) :
    callStatement (.attr pos object name) arguments s =
      (do requireScript; emit (← ofExcept (action.apply values (.data d)))) s' := by
  have hlacks := (builtins_lack_members name (Data.mem_names haction)).2.2
  rw [callStatement, bind_of_ok hvalues, bind_of_ok (calleeOf_of_lacks hlacks _)]
  dsimp only [objectKey]
  rw [bind_of_ok hfind]
  simp only [changeVariable, member_of_table haction]

theorem callStatement_place (hs : Consistent s)
    (hvalues : expressions .script arguments s = .ok values s') (hplace : object.isPlace = true)
    (hname : name ∈ MemberAction.names) :
    callStatement (.attr pos object name) arguments s =
      (reject (.notFound .function) : Build Unit) s' := by
  have hlacks := (builtins_lack_members name hname).2.2
  have hs' := hs.keeps (keeps_expressions _ _ _ hvalues)
  rw [callStatement, bind_of_ok hvalues, bind_of_ok (calleeOf_of_lacks hlacks _)]
  dsimp only [objectKey]
  rw [bind_of_ok (find?_place hs' hplace)]
  simp only [callKnown, isBroadcast, isText_place hplace, Bool.false_and, Bool.false_eq_true,
    if_false, pure_bind]

/-- Members of variables in a script that was parsed: after one of the two words they are taken
from the table of the variable's type, and after any other name they are not found. -/
theorem member_translation (source : String) (p : Script) :
    (∀ session after : Session, session.content = .ok source →
      session.parseScript = (.ok p, after) → Spells source p) ∧
    (Spells source p →
      ∀ (pos : Position) (object : Expr) (name : String), .attr pos object name ∈ p.nodes →
        ∀ (s : BuildState) (x : String) (d : Data), Consistent s → object.spelling? = some x →
          find? (.ofName x) s = .ok (some d) s →
          (∀ action s₁, d.member? .field name = some action → moveTo pos s = .ok () s₁ →
            (object.isWord = true → expression .script (.attr pos object name) s =
              ofExcept (action.apply [] (.data d)) s₁) ∧
            (object.isWord = false → ∃ t, expression .script (.attr pos object name) s =
              (reject (.notFound .attr) : Build Value) t)) ∧
          (∀ action start arguments values s₁, d.member? .method name = some action →
            (do moveTo start; expressions .script arguments) s = .ok values s₁ →
            (object.isWord = true →
              expression .script (.call start (.attr pos object name) arguments) s =
                ofExcept (action.apply values (.data d)) s₁) ∧
            (object.isWord = false → ∃ t,
              expression .script (.call start (.attr pos object name) arguments) s =
                (reject (.notFound .function) : Build Value) t)) ∧
          (∀ action start arguments values s₁, d.member? .function name = some action →
            (do moveTo start; expressions .script arguments) s = .ok values s₁ →
            (object.isWord = true →
              statement (.call start (.attr pos object name) arguments) s =
                (do requireScript; emit (← ofExcept (action.apply values (.data d)))) s₁) ∧
            (object.isWord = false → ∃ t,
              statement (.call start (.attr pos object name) arguments) s =
                (reject (.notFound .function) : Build Unit) t))) := by
  refine ⟨fun session after => Session.parseScript_spells, ?_⟩
  intro hspells pos object name hnode s x d hs hx hfind
  have hattached := hspells.attached _ hnode
  have hfound : object.isWord = true → ∀ t, Keeps s t →
      find? (.ofExpr object) t = .ok (some d) t := by
    intro hword t hkeeps
    rw [ofExpr_word hword hx]
    exact hkeeps.find? hfind
  refine ⟨?_, ?_, ?_⟩
  · intro action s₁ haction hmove
    have hkeeps : Keeps s s₁ := (quiet_moveTo hmove).keeps
    rw [expression, bind_of_ok hmove]
    refine ⟨fun hword => attributeValue_member (hfound hword s₁ hkeeps) haction, fun hword => ?_⟩
    exact attributeValue_place (hs.keeps hkeeps) (place_of_not_word hattached hword)
      (Data.mem_names haction)
  · intro action start arguments values s₁ haction hvalues
    obtain ⟨_, s₂, hmove, hvalues⟩ := bind_ok.mp hvalues
    have hkeeps : Keeps s s₁ := chain (quiet_moveTo hmove).keeps
      (keeps_expressions _ _ _ hvalues)
    rw [expression, bind_of_ok hmove, bind_of_ok hvalues]
    refine ⟨fun hword => callValue_member (hfound hword s₁ hkeeps) haction values, fun hword => ?_⟩
    exact callValue_place (hs.keeps hkeeps) (place_of_not_word hattached hword)
      (Data.mem_names haction) values
  · intro action start arguments values s₁ haction hvalues
    obtain ⟨_, s₂, hmove, hvalues⟩ := bind_ok.mp hvalues
    have hmoved : Keeps s s₂ := (quiet_moveTo hmove).keeps
    have hkeeps : Keeps s s₁ := chain hmoved (keeps_expressions _ _ _ hvalues)
    rw [statement, bind_of_ok hmove]
    refine ⟨fun hword => callStatement_member hvalues (hfound hword s₁ hkeeps) haction,
      fun hword => ⟨s₁, ?_⟩⟩
    exact callStatement_place (hs.keeps hmoved) hvalues (place_of_not_word hattached hword)
      (Data.mem_names haction)

def lengthSource : String := "n: num = l.length;"

def lengthOfList : Expr := .attr (.start 9) (.name (.start 9) "l") "length"

theorem lengthSource_spells : Spells lengthSource
    ⟨[], [.declare (.start 0) (.name (.start 0) "n") .ofNumber (some lengthOfList) false]⟩ := by
  refine ⟨1, rfl, ?_⟩
  let token (i : Nat) : Token := (scan .script 1 lengthSource).tokens.getD i ⟨.dot, .int 0, 0, 0⟩
  have htarget := Derives.step 58 rfl (.token (token 0) .nil) rfl .nil
  have htype := Derives.step 74 rfl
    (.token (token 1) (.step 70 rfl (.token (token 2) .nil) rfl .nil)) rfl .nil
  have hlength := Derives.step 57 rfl
    (.step 58 rfl (.token (token 4) .nil) rfl (.token (token 5) (.token (token 6) .nil))) rfl .nil
  have hvalue := Derives.token (token 3) (.step 97 rfl hlength rfl .nil)
  have hvariable := Derives.step 21 rfl
    (.step 37 rfl ((htarget.append htype).append hvalue) rfl (.token (token 7) .nil)) rfl .nil
  exact (Derives.step 2 rfl (.step 19 rfl hvariable rfl .nil) rfl .nil :)

def globalList : Data := ⟨"g_l", true, .typed .ofList, false⟩

theorem member_translation_length : ∃ s t, Consistent s ∧
    find? (.ofName "l") s = .ok (some globalList) s ∧
    globalList.member? .field "length" = some (.block .listLength) ∧
    expression .script lengthOfList s = (reject (.notFound .attr) : Build Value) t := by
  let fresh : BuildState := .fresh (.fresh (some .error) false) "project"
  let s : BuildState := { fresh with draft.globals := [("g_l", globalList)] }
  have hs : Consistent s := by
    refine ⟨⟨[], rfl, by simp [Tidy], by simp⟩, ?_, rfl, ?_⟩
    · simp [s, globalList]
    · simp [s, fresh, BuildState.fresh, Frame.fresh]
  have hfind : find? (.ofName "l") s = .ok (some globalList) s := rfl
  have haction : globalList.member? .field "length" = some (.block .listLength) := rfl
  obtain ⟨hfield, -⟩ := (member_translation _ _).2 lengthSource_spells (.start 9)
    (.name (.start 9) "l") "length" (by simp [lengthOfList]) s "l" globalList hs rfl hfind
  obtain ⟨t, ht⟩ := (hfield _ _ haction rfl).2 rfl
  exact ⟨s, t, hs, hfind, haction, ht⟩

end

end Build

end BlockScript
