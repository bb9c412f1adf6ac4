import BlockScript.Proofs.FullNames
import Mathlib.Data.List.Find

/-!
Looking up a name. The tables only ever grow at their ends while a body is built, so what
a name stands for is followed through a growing table: an entry at the end is found where
no earlier one was, and an entry of a scope that is not open is passed over.
-/
namespace BlockScript

namespace Assoc

variable [BEq κ] [LawfulBEq κ]

variable {key : κ}

theorem put_of_absent (h : get? key table = none) :
    put key value table = table ++ [(key, value)] := by
  induction table with
  | nil => rfl
  | cons entry rest ih =>
    obtain ⟨k, v⟩ := entry
    rw [get?, List.lookup_cons] at h
    split at h
    · cases h
    · rename_i hne
      simp [put, BEq.comm.trans hne, ih h]

theorem get?_put_self (key : κ) (value : υ) (table : Assoc κ υ) :
    get? key (put key value table) = some value := by
  induction table with
  | nil => simp [put, get?]
  | cons entry rest ih =>
    obtain ⟨k, v⟩ := entry
    by_cases hk : (k == key) = true
    · obtain rfl := eq_of_beq hk
      simp [put, get?]
    · have hk' : (key == k) = false := BEq.comm.trans (Bool.eq_false_iff.mpr hk)
      simp only [put, hk, Bool.false_eq_true, if_false, get?, List.lookup_cons, hk'] at ih ⊢
      exact ih

theorem get?_put_of_ne (h : key ≠ other) (value : υ) (table : Assoc κ υ) :
    get? key (put other value table) = get? key table := by
  induction table with
  | nil =>
    have hne : (key == other) = false := beq_false_of_ne h
    simp [put, get?, List.lookup_cons, hne]
  | cons entry rest ih =>
    obtain ⟨k, v⟩ := entry
    rw [put]
    split
    · rename_i hk
      have hne : (key == k) = false := beq_false_of_ne (eq_of_beq hk ▸ h)
      simp [get?, List.lookup_cons, hne]
    · simp only [get?, List.lookup_cons] at ih ⊢
      rw [ih]

theorem mem_of_get? (h : get? key table = some value) : (key, value) ∈ table := by
  obtain ⟨before, after, hsplit, -⟩ := List.lookup_eq_some_iff.mp h
  simp [hsplit]

end Assoc

namespace Build

open Text

/-- The variable that a name stands for: a global, else a variable of the target, else one
in an open scope. -/
def lookup (globals locals : Assoc String Data) (sprite : Bool) (scopes : List Nat)
    (name : String) : Except Fault (Option Data) :=
  match Assoc.get? (globalName name) globals with
  | some data => .ok (some data)
  | none =>
    match Assoc.get? (fullName sprite 0 name) locals with
    | some data => .ok (some data)
    | none => findScoped (some name) scopes locals

/-- Finding a name in a state is looking it up in the tables of the state. -/
theorem find?_ofName (hlocals : s.draft.locals? s.frame.place = some locals) :
    find? (.ofName name) s = .ok found s' ↔
      lookup s.draft.globals locals s.frame.place.isSprite
        (s.frame.currentScope :: s.frame.scopes) name = .ok found ∧ s = s' := by
  rw [find?_ok, hlocals]
  rfl

theorem findScoped_append (name : Option String) (scopes : List Nat)
    (first second : Assoc String Data) :
    findScoped name scopes (first ++ second) =
      (findScoped name scopes first).bind fun found =>
        if found.isSome then .ok found else findScoped name scopes second := by
  induction first with
  | nil => rfl
  | cons entry rest ih =>
    obtain ⟨full, data⟩ := entry
    simp only [List.cons_append, findScoped]
    split
    · exact ih
    · cases decode? full with
      | error f => rfl
      | ok decoded =>
        simp only [bind, Except.bind]
        split
        · rfl
        · exact ih

/-- A key is that of a variable of the name in one of the scopes. -/
def shows (sprite : Bool) (scopes : List Nat) (name : Option String) (full : String) : Bool :=
  decide (∃ scope ∈ scopes, scope ≠ 0 ∧ ∃ own ∈ name, full = fullName sprite scope own)

theorem shows_fullName : shows sprite scopes name (fullName sprite scope own) =
    decide (scope ≠ 0 ∧ some own = name ∧ scope ∈ scopes) := by
  refine decide_eq_decide.mpr ⟨?_, ?_⟩
  · rintro ⟨_, hopen, hscope, _, hname, hkey⟩
    obtain ⟨rfl, rfl⟩ := fullName_inj hkey
    exact ⟨hscope, hname.symm, hopen⟩
  · rintro ⟨hscope, hname, hopen⟩
    exact ⟨scope, hopen, hscope, own, hname.symm, rfl⟩

theorem shows_unscoped (h : unscoped.any (beginsWith · full) = true) :
    shows sprite scopes name full = false := by
  refine decide_eq_false ?_
  rintro ⟨scope, -, hscope, own, -, rfl⟩
  simp [unscoped_fullName, hscope] at h

/-- In a table whose keys have no scope or are full names, the first variable of the name in an open
scope is found. -/
theorem findScoped_eq (h : ∀ entry ∈ table, unscoped.any (beginsWith · entry.1) = true ∨
      ∃ scope own, entry.1 = fullName sprite scope own) (name : Option String) (scopes : List Nat) :
    findScoped name scopes table =
      .ok ((table.find? fun entry => shows sprite scopes name entry.1).map Prod.snd) := by
  induction table with
  | nil => rfl
  | cons entry rest ih =>
    obtain ⟨full, data⟩ := entry
    rw [findScoped, List.find?_cons, ih fun e he => h e (List.mem_cons_of_mem _ he)]
    by_cases hkey : unscoped.any (beginsWith · full) = true
    · rw [if_pos hkey, shows_unscoped hkey]
    · obtain ⟨scope, own, rfl⟩ := (h _ List.mem_cons_self).resolve_left hkey
      have hscope : scope ≠ 0 := by simpa [unscoped_fullName] using hkey
      have hany : (scopes.any fun n => (n : Int) == scope) = decide (scope ∈ scopes) := by
        rw [Bool.eq_iff_iff]
        simp only [List.any_eq_true, beq_iff_eq, Int.ofNat_inj, exists_eq_right, decide_eq_true_eq]
      rw [if_neg hkey, decode?_fullName sprite scope own hscope, shows_fullName]
      simp only [bind, Except.bind, hany]
      by_cases hname : some own = name <;> by_cases hopen : scope ∈ scopes <;>
        simp [hname, hopen, hscope, pure, Except.pure]

/-- A single variable of a script is found by its own name while its scope is open. -/
theorem findScoped_single (sprite : Bool) (scope : Nat) (name wanted : String)
    (scopes : List Nat) (data : Data) :
    findScoped (some wanted) scopes [(fullName sprite scope name, data)] =
      .ok (if scope ≠ 0 ∧ name = wanted ∧ scope ∈ scopes then some data else none) := by
  have hkey : ∀ entry ∈ [(fullName sprite scope name, data)],
      unscoped.any (beginsWith · entry.1) = true ∨
        ∃ scope own, entry.1 = fullName sprite scope own := by simp
  simp only [findScoped_eq hkey, List.find?_cons, shows_fullName, Option.some.injEq]
  by_cases hfound : scope ≠ 0 ∧ name = wanted ∧ scope ∈ scopes
  · rw [if_pos hfound, decide_eq_true hfound]
    rfl
  · rw [if_neg hfound, decide_eq_false hfound]
    rfl

/-- The table of a target in which every key either has no scope or is the full name of a
variable of a scope with a number up to `last`. -/
def Tidy (sprite : Bool) (last : Nat) (table : Assoc String Data) : Prop :=
  ∀ entry ∈ table, unscoped.any (beginsWith · entry.1) = true ∨
    ∃ scope name, scope ≠ 0 ∧ scope ≤ last ∧ entry.1 = fullName sprite scope name

theorem Tidy.mono (h : Tidy sprite last table) (hlast : last ≤ last') :
    Tidy sprite last' table := by
  intro entry hentry
  rcases h entry hentry with hkey | ⟨scope, name, hscope, hbound, hkey⟩
  · exact .inl hkey
  · exact .inr ⟨scope, name, hscope, Nat.le_trans hbound hlast, hkey⟩

theorem Tidy.append (h : Tidy sprite last first) (h' : Tidy sprite last second) :
    Tidy sprite last (first ++ second) := by
  intro entry hentry
  rcases List.mem_append.mp hentry with hmem | hmem
  · exact h entry hmem
  · exact h' entry hmem

theorem tidy_single (sprite : Bool) (last scope : Nat) (name : String) (data : Data)
    (hscope : scope ≤ last) : Tidy sprite last [(fullName sprite scope name, data)] := by
  intro entry hentry
  obtain rfl := List.mem_singleton.mp hentry
  by_cases hzero : scope = 0
  · left
    simp [unscoped_fullName, hzero]
  · exact .inr ⟨scope, name, hzero, hscope, rfl⟩

theorem Tidy.keys (h : Tidy sprite last table) : ∀ entry ∈ table,
    unscoped.any (beginsWith · entry.1) = true ∨ ∃ scope own, entry.1 = fullName sprite scope own :=
  fun entry hentry => (h entry hentry).imp_right fun ⟨scope, own, _, _, hkey⟩ => ⟨scope, own, hkey⟩

section

variable (h : Tidy sprite last table)

include h

/-- A tidy table never fails to be read, and what is found is an entry of the name in an
open scope. -/
theorem findScoped_tidy (name : String) (scopes : List Nat) :
    ∃ found, findScoped (some name) scopes table = .ok found ∧
      (∀ data, found = some data →
        ∃ scope, scope ≠ 0 ∧ scope ∈ scopes ∧ (fullName sprite scope name, data) ∈ table) ∧
      (found = none →
        ∀ scope data, scope ≠ 0 → scope ∈ scopes → (fullName sprite scope name, data) ∉ table) := by
  refine ⟨_, findScoped_eq h.keys _ scopes, fun data hdata => ?_, ?_⟩
  · obtain ⟨⟨full, _⟩, hfind, rfl⟩ := Option.map_eq_some_iff.mp hdata
    obtain ⟨scope, hopen, hscope, _, ⟨⟩, rfl⟩ := of_decide_eq_true (List.find?_some hfind :)
    exact ⟨scope, hscope, hopen, List.mem_of_find?_eq_some hfind⟩
  · intro hnone scope data hscope hopen hmem
    refine List.find?_eq_none.mp (Option.map_eq_none_iff.mp hnone) _ hmem ?_
    exact decide_eq_true ⟨scope, hopen, hscope, name, rfl, rfl⟩

/-- What is found is the entry under its own name, where entries are filed by name. -/
theorem findScoped_get?
    (hfiled : ∀ entry ∈ table, entry.2.name = entry.1)
    (hfound : findScoped (some name) scopes table = .ok (some d)) :
    Assoc.get? d.name table = some d := by
  rw [findScoped_eq h.keys] at hfound
  obtain ⟨⟨full, d⟩, hfind, rfl⟩ := Option.map_eq_some_iff.mp (Except.ok.inj hfound)
  obtain ⟨hshows, before, after, rfl, hbefore⟩ := List.find?_eq_some_iff_append.mp hfind
  obtain rfl : d.name = full := hfiled (full, d) (by simp)
  refine List.lookup_eq_some_iff.mpr ⟨before, after, rfl, fun entry hentry => ?_⟩
  rw [bne_iff_ne]
  intro hsame
  have hnot := hbefore entry hentry
  rw [← hsame, hshows] at hnot
  cases hnot

/-- Which scopes are open matters only for the numbers that occur in the table. -/
theorem findScoped_congr (name : String)
    (hscopes : ∀ scope, scope ≠ 0 → scope ≤ last → (scope ∈ scopes ↔ scope ∈ scopes')) :
    findScoped (some name) scopes table = findScoped (some name) scopes' table := by
  have hshows : ∀ entry ∈ table,
      shows sprite scopes (some name) entry.1 = shows sprite scopes' (some name) entry.1 := by
    intro entry hentry
    rcases h entry hentry with hkey | ⟨scope, own, hscope, hbound, hkey⟩
    · rw [shows_unscoped hkey, shows_unscoped hkey]
    · simp only [hkey, shows_fullName, hscopes scope hscope hbound]
  rw [findScoped_eq h.keys, findScoped_eq h.keys, List.find?_congr hshows]

end

/-- Variables of scopes that are closed are passed over. -/
theorem findScoped_closed (h : ∀ entry ∈ added, ∃ scope name, scope ≠ 0 ∧ scope ∉ scopes ∧
      entry.1 = fullName sprite scope name) (wanted : String) :
    findScoped (some wanted) scopes added = .ok none := by
  rw [findScoped_eq fun entry hentry => (h entry hentry).elim fun scope ⟨name, _, _, hkey⟩ =>
    .inr ⟨scope, name, hkey⟩, List.find?_eq_none.mpr fun entry hentry => ?_]
  · rfl
  · obtain ⟨scope, name, -, hclosed, hkey⟩ := h entry hentry
    simp [hkey, shows_fullName, hclosed]

section

variable {globals locals : Assoc String Data}

section

variable (h : Tidy sprite last locals)

include h

/-- Looking a name up in a tidy table never fails. -/
theorem lookup_total (scopes : List Nat) (name : String) :
    ∃ found, lookup globals locals sprite scopes name = .ok found := by
  unfold lookup
  split
  · exact ⟨_, rfl⟩
  · split
    · exact ⟨_, rfl⟩
    · obtain ⟨found, hfound, -⟩ := findScoped_tidy h name scopes
      exact ⟨found, hfound⟩

/-- What is found is a global, or a variable of the target in an open scope. -/
theorem lookup_sound (hfound : lookup globals locals sprite scopes name = .ok (some data)) :
    (globalName name, data) ∈ globals ∨
      ∃ scope, (scope = 0 ∨ scope ∈ scopes) ∧ (fullName sprite scope name, data) ∈ locals := by
  unfold lookup at hfound
  split at hfound
  · rename_i d hglobal
    cases hfound
    exact .inl (Assoc.mem_of_get? hglobal)
  · right
    split at hfound
    · rename_i d hlocal
      cases hfound
      exact ⟨0, .inl rfl, Assoc.mem_of_get? hlocal⟩
    · obtain ⟨found, hscoped, hsome, -⟩ := findScoped_tidy h name scopes
      rw [hscoped] at hfound
      cases hfound
      obtain ⟨scope, -, hopen, hmem⟩ := hsome data rfl
      exact ⟨scope, .inr hopen, hmem⟩

section

variable (hfound : lookup globals locals sprite scopes name = .ok none)

include hfound

/-- Where nothing is found there is no such global and no such variable in an open scope. -/
theorem lookup_none :
    Assoc.get? (globalName name) globals = none ∧
      ∀ scope data, scope = 0 ∨ scope ∈ scopes → (fullName sprite scope name, data) ∉ locals := by
  unfold lookup at hfound
  split at hfound
  · cases hfound
  · rename_i hglobal
    refine ⟨hglobal, ?_⟩
    split at hfound
    · cases hfound
    · rename_i hlocal
      obtain ⟨found, hscoped, -, hnone⟩ := findScoped_tidy h name scopes
      rw [hscoped] at hfound
      cases hfound
      intro scope data hscope hmem
      by_cases hzero : scope = 0
      · subst hzero
        have hkey := List.lookup_eq_none_iff.mp hlocal _ hmem
        simp at hkey
      · exact hnone rfl scope data hzero (hscope.resolve_left hzero) hmem

theorem absent_of_lookup_none
    (hopen : scope = 0 ∨ scope ∈ scopes) : Assoc.get? (fullName sprite scope name) locals = none := by
  cases hget : Assoc.get? (fullName sprite scope name) locals with
  | none => rfl
  | some data => exact absurd (Assoc.mem_of_get? hget) ((lookup_none h hfound).2 scope data hopen)

end

end

theorem get?_fullName_append (h : ¬ (scope = 0 ∧ wanted = name)) (data : Data) :
    Assoc.get? (fullName sprite 0 wanted) (locals ++ [(fullName sprite scope name, data)]) =
      Assoc.get? (fullName sprite 0 wanted) locals := by
  have hne : (fullName sprite 0 wanted == fullName sprite scope name) = false := by
    refine beq_eq_false_iff_ne.mpr fun heq => ?_
    exact h ⟨(fullName_inj heq).1.symm, (fullName_inj heq).2⟩
  simp [Assoc.get?, List.lookup_append, List.lookup_cons, hne]

/-- A variable at the end of the table is found where nothing was found before. -/
theorem lookup_last (hscope : scope ≠ 0) (name : String) (d : Data)
    (scopes : List Nat) (wanted : String) :
    lookup globals (locals ++ [(fullName sprite scope name, d)]) sprite scopes wanted =
      (lookup globals locals sprite scopes wanted).map
        (·.or (if name = wanted ∧ scope ∈ scopes then some d else none)) := by
  unfold lookup
  rw [get?_fullName_append (fun h => hscope h.1), findScoped_append, findScoped_single]
  cases Assoc.get? (globalName wanted) globals with
  | some data => rfl
  | none =>
    cases Assoc.get? (fullName sprite 0 wanted) locals with
    | some data => rfl
    | none =>
      cases findScoped (some wanted) scopes locals with
      | error f => rfl
      | ok found => cases found <;> simp [Except.bind, Except.map, hscope]

/-- A variable of another name does not matter. -/
theorem lookup_other (hne : wanted ≠ name) (d : Data) (scopes : List Nat) :
    lookup globals (locals ++ [(fullName sprite scope name, d)]) sprite scopes wanted =
      lookup globals locals sprite scopes wanted := by
  unfold lookup
  rw [get?_fullName_append (fun h => hne h.2), findScoped_append, findScoped_single]
  cases findScoped (some wanted) scopes locals with
  | error f => rfl
  | ok found => cases found <;> simp [Except.bind, Ne.symm hne]

/-- A variable added at the end under an unused name is what the name stands for from then
on, and no other name changes its meaning. -/
theorem lookup_append (hunused : lookup globals locals sprite scopes name = .ok none)
    (hopen : scope = 0 ∨ scope ∈ scopes) (wanted : String) :
    lookup globals (locals ++ [(fullName sprite scope name, data)]) sprite scopes wanted =
      if wanted = name then .ok (some data) else lookup globals locals sprite scopes wanted := by
  by_cases hwanted : wanted = name
  · subst hwanted
    by_cases hzero : scope = 0
    · subst hzero
      unfold lookup at hunused ⊢
      cases hglobal : Assoc.get? (globalName wanted) globals with
      | some d => simp [hglobal] at hunused
      | none =>
        cases hlocal : Assoc.get? (fullName sprite 0 wanted) locals with
        | some d => simp [hglobal, hlocal] at hunused
        | none => simp [Assoc.get?, List.lookup_append, show List.lookup _ locals = _ from hlocal]
    · rw [lookup_last hzero, hunused]
      simp [Except.map, hopen.resolve_left hzero]
  · rw [lookup_other hwanted, if_neg hwanted]

/-- Variables of scopes that are closed do not matter. -/
theorem lookup_closed (h : ∀ entry ∈ added, ∃ scope name, scope ≠ 0 ∧ scope ∉ scopes ∧
      entry.1 = fullName sprite scope name) (wanted : String) :
    lookup globals (locals ++ added) sprite scopes wanted =
      lookup globals locals sprite scopes wanted := by
  have hkey : Assoc.get? (fullName sprite 0 wanted) (locals ++ added) =
      Assoc.get? (fullName sprite 0 wanted) locals := by
    have hnone : List.lookup (fullName sprite 0 wanted) added = none := by
      refine List.lookup_eq_none_iff.mpr fun entry hentry => ?_
      obtain ⟨scope, name, hscope, -, hfull⟩ := h entry hentry
      rw [hfull, bne_iff_ne]
      intro heq
      exact hscope (fullName_inj heq).1.symm
    simp only [Assoc.get?, List.lookup_append, hnone, Option.or_none]
  have hscoped : findScoped (some wanted) scopes (locals ++ added) =
      findScoped (some wanted) scopes locals := by
    rw [findScoped_append, findScoped_closed h]
    cases findScoped (some wanted) scopes locals with
    | error f => rfl
    | ok found => cases found <;> rfl
  simp only [lookup, hkey, hscoped]

/-- Which scopes are open matters only for the numbers that occur in the table. -/
theorem lookup_congr (h : Tidy sprite last locals) (name : String)
    (hscopes : ∀ scope, scope ≠ 0 → scope ≤ last → (scope ∈ scopes ↔ scope ∈ scopes')) :
    lookup globals locals sprite scopes name = lookup globals locals sprite scopes' name := by
  simp only [lookup, findScoped_congr h name hscopes]

end

end Build

end BlockScript
