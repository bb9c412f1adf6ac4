import BlockScript.Proofs.Steps

/-!
The entries of the tables of names, and the blocks that they build. An expression that is looked up
in a table stands for one of its entries. If only sprites can use the entry, then it is a sprite
that uses it, wherever in a script the name is written.
-/
namespace BlockScript

/-- The words of a name with points. -/
def Expr.path? : Expr → Option (List String)
  | .value (.str s) => some [s]
  | .name _ n => some [n]
  | .attr _ object n => object.path?.map (· ++ [n])
  | _ => none

namespace NameTable

variable {α : Type}

mutual

def entries : NameTable α → List α
  | entry a => [a]
  | table names => entriesNamed names

def entriesNamed : List (String × NameTable α) → List α
  | [] => []
  | (_, t) :: rest => entries t ++ entriesNamed rest

end

mutual

theorem all_of_entries (t : NameTable α) (h : ∀ a ∈ t.entries, P a) : t.All P := by
  cases t with
  | entry a => exact h a (by simp [entries])
  | table names => exact allNamed_of_entries names fun a ha => h a (by simpa [entries] using ha)

theorem allNamed_of_entries (names : List (String × NameTable α))
    (h : ∀ a ∈ entriesNamed names, P a) : AllNamed P names := by
  cases names with
  | nil => trivial
  | cons first rest =>
    obtain ⟨name, t⟩ := first
    simp only [entriesNamed, List.mem_append, or_imp, forall_and] at h
    exact ⟨all_of_entries t h.1, allNamed_of_entries rest h.2⟩

end

theorem mem_entries_of_resolve {root : NameTable α} {e : Expr} {a : α}
    (h : root.resolve e = some (.entry a)) : a ∈ root.entries :=
  (all_of_entries root fun _ ha => ha).resolve e h

mutual

/-- The entries of a table with the names that lead to them. -/
def leaves : NameTable α → List (List String × α)
  | entry a => [([], a)]
  | table names => leavesNamed names

def leavesNamed : List (String × NameTable α) → List (List String × α)
  | [] => []
  | (name, t) :: rest => (leaves t).map (fun leaf => (name :: leaf.1, leaf.2)) ++ leavesNamed rest

end

theorem mem_leaves_of_find? {root t : NameTable α} {name : String}
    (h : root.find? name = some t) {leaf : List String × α} (hleaf : leaf ∈ t.leaves) :
    (name :: leaf.1, leaf.2) ∈ root.leaves := by
  cases root with
  | entry a => cases h
  | table names =>
    rw [find?] at h
    rw [leaves]
    induction names with
    | nil => cases h
    | cons first rest ih =>
      obtain ⟨own, u⟩ := first
      rw [leavesNamed, List.mem_append]
      rw [List.lookup_cons] at h
      split at h
      · rename_i hname
        obtain rfl := eq_of_beq hname
        cases h
        exact .inl (List.mem_map.mpr ⟨leaf, hleaf, rfl⟩)
      · exact .inr (ih h)

/-- What an expression stands for lies at the end of its path. -/
theorem mem_leaves_of_resolve {root : NameTable α} {e : Expr} {a : α}
    (h : root.resolve e = some (.entry a)) :
    ∃ path, e.path? = some path ∧ (path, a) ∈ root.leaves := by
  suffices hall : ∀ {t}, root.resolve e = some t → ∃ path, e.path? = some path ∧
      ∀ leaf ∈ t.leaves, (path ++ leaf.1, leaf.2) ∈ root.leaves by
    obtain ⟨path, hpath, hleaves⟩ := hall h
    exact ⟨path, hpath, by simpa using hleaves ([], a) (by simp [leaves])⟩
  clear h
  intro t ht
  fun_induction resolve root e generalizing t with
  | case1 s => exact ⟨[s], rfl, fun leaf => mem_leaves_of_find? ht⟩
  | case2 pos n => exact ⟨[n], rfl, fun leaf => mem_leaves_of_find? ht⟩
  | case3 pos object n ih =>
    obtain ⟨u, hu, ht⟩ := Option.bind_eq_some_iff.mp ht
    obtain ⟨path, hpath, hleaves⟩ := ih hu
    refine ⟨path ++ [n], by simp [Expr.path?, hpath], fun leaf hleaf => ?_⟩
    simpa using hleaves _ (mem_leaves_of_find? ht hleaf)
  | case4 e => cases ht

end NameTable

/-- The blocks that a name builds itself, besides those of operators and conversions. -/
def Builtin.opcodes : Builtin → List Opcode
  | block op | broadcast op | constant (.block op _ _ _) => [op]
  | changeEffect => [.changeSoundEffect, .changeGraphicEffect]
  | setEffect => [.setSoundEffect, .setGraphicEffect]
  | changeLayer => [.changeLayer]
  | clone => [.createCloneOf]
  | glideTo => [.glideTo]
  | glideToPosition => [.glideToPosition]
  | constant _ | operation _ | randomChoice | toNumber | toText | toBoolean => []

/-- A text, a number, or a block that has only texts for arguments and may be read as either. -/
def Value.isSimple : Value → Bool
  | str _ | float _ => true
  | block _ arguments retyped none =>
    retyped.all [.ofNumber, .ofString].contains && arguments.all isText
  | _ => false
where
  isText : Value → Bool
    | str _ => true
    | _ => false

/-- Whether a name, if it stands for a value, stands for a simple one. -/
def Builtin.isSimple : Builtin → Bool
  | constant v => v.isSimple
  | _ => true

/-- All entries that expressions and statements can use. -/
def Builtins.entries : List Entry :=
  reporters.entries ++ functionReporters.entries ++ functions.entries ++ setters.entries

namespace Builtins

theorem isSimple_of_mem (h : entry ∈ entries) : entry.builtin.isSimple = true := by
  have hall : (entries.all fun entry => entry.builtin.isSimple) = true := by decide
  exact List.all_eq_true.mp hall entry h

theorem mem_entries {table : EntryTable}
    (htable : table ∈ [reporters, functionReporters, functions, setters])
    (h : table.resolve e = some (.entry entry)) : entry ∈ entries := by
  have hentry := NameTable.mem_entries_of_resolve h
  simp only [List.mem_cons, List.not_mem_nil, or_false] at htable
  simp only [entries, List.mem_append]
  rcases htable with rfl | rfl | rfl | rfl <;> simp [hentry]

/-- An attribute that can be set is for sprites only if it can be read by sprites only. -/
theorem spriteOnly_of_setter {setter reporter : Entry}
    (hset : setters.resolve e = some (.entry setter))
    (hread : reporters.resolve e = some (.entry reporter)) :
    reporter.spriteOnly = setter.spriteOnly := by
  have hall : ∀ leaf ∈ setters.leaves, ∀ leaf' ∈ reporters.leaves, leaf'.1 = leaf.1 →
      leaf'.2.spriteOnly = leaf.2.spriteOnly := by decide
  obtain ⟨path, hpath, hset⟩ := NameTable.mem_leaves_of_resolve hset
  obtain ⟨path', hpath', hread⟩ := NameTable.mem_leaves_of_resolve hread
  exact hall _ hset _ hread (Option.some.inj (hpath'.symm.trans hpath))

/-- Nothing that is called for its effect can be called for a value. -/
theorem functionReporters_apart {entry' : Entry} (h : functions.resolve e = some (.entry entry))
    (h' : functionReporters.resolve e = some (.entry entry')) : False := by
  have hall : ∀ leaf ∈ functions.leaves, ∀ leaf' ∈ functionReporters.leaves,
      leaf'.1 ≠ leaf.1 := by decide
  obtain ⟨path, hpath, h⟩ := NameTable.mem_leaves_of_resolve h
  obtain ⟨path', hpath', h'⟩ := NameTable.mem_leaves_of_resolve h'
  exact hall _ h _ h' (Option.some.inj (hpath'.symm.trans hpath))

end Builtins

namespace Build

theorem builtin?_ok (h : builtin? role table e s = .ok (some b) s') :
    ∃ entry, table.resolve e = some (.entry entry) ∧ b = entry.builtin ∧
      (entry.spriteOnly = true → s.frame.place.isSprite = true) := by
  unfold builtin? at h
  cases hresolve : table.resolve e with
  | none =>
    simp only [hresolve] at h
    cases (pure_ok.mp h).1
  | some place =>
    simp only [hresolve] at h
    cases place with
    | entry entry =>
      obtain ⟨own, t, huse, h⟩ := bind_ok.mp h
      obtain ⟨heq, -⟩ := pure_ok.mp h
      obtain rfl := Option.some.inj heq
      obtain ⟨sprite, t₁, hsprite, huse⟩ := bind_ok.mp huse
      obtain ⟨rfl, rfl⟩ := inSprite_ok.mp hsprite
      split at huse
      · obtain ⟨_, _, hreject, -⟩ := bind_ok.mp huse
        cases hreject
      · rename_i hallowed
        refine ⟨entry, rfl, (pure_ok.mp huse).1.symm, fun honly => ?_⟩
        simpa [honly] using hallowed
    | table names =>
      obtain ⟨own, t, huse, -⟩ := bind_ok.mp h
      unfold useTable at huse
      split at huse
      · cases huse
      · obtain ⟨sprite, t₁, -, huse⟩ := bind_ok.mp huse
        split at huse
        all_goals cases huse

theorem builtin?_none (h : builtin? role table e s = .ok none s') : table.resolve e = none := by
  unfold builtin? at h
  cases hresolve : table.resolve e with
  | none => rfl
  | some place =>
    simp only [hresolve] at h
    cases place <;> (obtain ⟨_, _, -, h⟩ := bind_ok.mp h; cases (pure_ok.mp h).1)

theorem builtin_ok (h : builtin role table e s = .ok b s') :
    ∃ entry, table.resolve e = some (.entry entry) ∧ b = entry.builtin ∧
      (entry.spriteOnly = true → s.frame.place.isSprite = true) := by
  obtain ⟨found, t, hfound, h⟩ := bind_ok.mp h
  cases found with
  | some own =>
    obtain ⟨rfl, -⟩ := pure_ok.mp h
    exact builtin?_ok hfound
  | none =>
    cases hposition : e.position with
    | ok p =>
      simp only [hposition] at h
      obtain ⟨_, _, -, hreject⟩ := bind_ok.mp h
      cases hreject
    | error f =>
      simp only [hposition] at h
      cases h

end Build

end BlockScript
