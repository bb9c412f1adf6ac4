import BlockScript.Proofs.SpriteEffects

/-!
What the declarations of a script say. The parser gives each property a value of one kind, and the
declarations are accepted if no property is declared twice, the stage has none that belongs to
sprites, sizes lie between 0 and 100, and layers are positive. Each property then has its declared
value or what it starts with, in whatever order they stand; a sprite without a name is called as its
file, whose ending has four characters. Paths of costumes and sounds may be any
expressions; a search for one that is not a text fails.
-/
namespace BlockScript

/-- The values that the parser gives a property. -/
def Property.Takes (v : Record) : Property → Prop
  | name | rotationStyle => ∃ text, v = .str text
  | costume | sound => ∃ items, v = .list (exprRecords items)
  | visible | draggable => ∃ b, v = .value (.bool b)
  | _ => ∃ n : Number, v = .value (.ofNumber n)

def Expr.isLiteralText : Expr → Bool
  | .value (.str _) => true
  | _ => false

/-- A declaration as it is parsed. -/
structure Announcement where
  place : Nat
  property : Property
  value : Record
  taken : property.Takes value

def Announcement.declaration (d : Announcement) : Declaration :=
  ⟨.start d.place, some ("#" ++ d.property.word), some d.value⟩

def Declaration.IsParsed (d : Declaration) : Prop := ∃ e : Announcement, d = e.declaration

namespace Grammar

open Scan (Spelled)

/-- The property that a token names. -/
def propertyNamed : Terminal → Option Property
  | .spriteName => some .name
  | .costume => some .costume
  | .sound => some .sound
  | .visibility => some .visible
  | .xPosition => some .x
  | .yPosition => some .y
  | .size => some .size
  | .direction => some .direction
  | .draggable => some .draggable
  | .rotationStyle => some .rotationStyle
  | .layer => some .layer
  | _ => none

/-- The values of the symbols that declarations are made of. -/
def Declares (f : Fragment) : Symbol → Prop
  | .tok .string => ∃ text p, f = .token (.string text) p
  | .tok .integer | .tok .decimal => ∃ v p n, f = .token v p ∧ literalExpr v = .value (.ofNumber n)
  | .tok k => ∃ text p, f = .token (.text text) p ∧ ∀ own ∈ propertyNamed k, text = "#" ++ own.word
  | .cat .number => ∃ n, f = .expr (.value (.ofNumber n))
  | .cat .boolean => ∃ b, f = .expr (.truth b)
  | .cat .list => ∃ items, f = .expr (.list items)
  | .cat .declaration => ∃ d, f = .declaration d ∧ d.IsParsed
  | .cat .declarations => ∃ ds, f = .declarations ds ∧ ∀ d ∈ ds, d.IsParsed
  | .cat .topStatements => ∃ ss, f = .stmts ss
  | .cat .program => ∃ p, f = .script p ∧ ∀ d ∈ p.declarations, d.IsParsed
  | _ => True

theorem declares_token (h : Spelled .script t.kind t.value text) :
    Declares (.ofToken t) (.tok t.kind) := by
  have hvalue : (t.kind = .string → ∃ text, t.value = .string text) ∧
      (t.kind = .integer ∨ t.kind = .decimal → ∃ n, literalExpr t.value = .value (.ofNumber n)) ∧
      (t.kind ∉ [.string, .integer, .decimal] →
        ∃ text, t.value = .text text ∧ ∀ own ∈ propertyNamed t.kind, text = "#" ++ own.word) := by
    generalize t.kind = kind, t.value = value at h
    cases h with
    | @word text _ =>
      have hwords : ∀ k ∈ .word :: (Terminal.keywords .script).map Prod.snd,
          propertyNamed k = none ∧ k ≠ .string ∧ k ≠ .integer ∧ k ≠ .decimal := by decide
      have hkind :
          Terminal.ofWord .script text ∈ .word :: (Terminal.keywords .script).map Prod.snd := by
        by_cases hword : Terminal.ofWord .script text = .word
        · simp [hword]
        · exact List.mem_cons_of_mem _ (List.mem_map_of_mem (Scan.mem_keywords rfl hword))
      simp [hwords _ hkind]
    | @mark m hmark =>
      have hmarks : ∀ m ∈ Terminal.marks .script,
          (∀ own ∈ propertyNamed m.2, m.1 = "#" ++ own.word) ∧
            m.2 ≠ .string ∧ m.2 ≠ .integer ∧ m.2 ≠ .decimal := by decide
      have hmarks := hmarks m hmark
      simpa [hmarks.2] using hmarks.1
    | string _ _ _ => simp
    | integer _ _ _ => simpa using ⟨.int _, rfl⟩
    | based _ _ _ _ => simpa using ⟨.int _, rfl⟩
    | decimal _ _ _ _ => simpa using ⟨.float _, rfl⟩
  unfold Declares Fragment.ofToken
  split <;> simp_all

theorem isParsed_declared {own : Property} {p : Nat} (h : own.Takes v) :
    (⟨.start p, some ("#" ++ own.word), some v⟩ : Declaration).IsParsed :=
  ⟨⟨p, own, v, h⟩, rfl⟩

theorem stmts_of_statements (h : Scripts.statements fs = .ok f) : ∃ ss, f = .stmts ss := by
  unfold Scripts.statements at h
  split at h <;> cases h <;> exact ⟨_, rfl⟩

theorem list_of_bracketed (h : bracketed fs = .ok f) : ∃ items, f = .expr (.list items) := by
  unfold bracketed at h
  split at h <;> cases h <;> exact ⟨_, rfl⟩

open Scripts in
theorem declares_rules : ∀ r ∈ scripts.rules, ∀ parts v,
    List.Forall₂ (fun x f => Declares f x) r.body parts → r.action parts = .ok v →
      Declares v (.cat r.head) := by
  simp only [scripts, declarationRules, statementRules, placeRules, expressionRules, controlRules,
    rule, List.forall_mem_append, List.forall_mem_cons, Declares, implies_true, List.not_mem_nil,
    false_implies, and_true]
  and_intros
  all_goals
    simp only [List.forall₂_cons_left_iff, List.forall₂_nil_left_iff, propertyNamed,
      Option.mem_some_iff, forall_eq', forall_exists_index, and_imp]
    intros
    subst_vars
  all_goals first
    | exact stmts_of_statements ‹_›
    | exact list_of_bracketed ‹_›
    | simp only [program, declarations, declaration, paths, declared, literal, truth,
        Except.ok.injEq] at *
      subst_vars
  all_goals first
    | (refine ⟨_, rfl, isParsed_declared ?_⟩; exact ⟨_, rfl⟩)
    | simp_all

theorem Spells.isParsed (h : Spells source script) : ∀ d ∈ script.declarations, d.IsParsed := by
  obtain ⟨line, hscan, hderived⟩ := h
  have hvalues := hderived.forall₂_values (P := fun x f => Declares f x)
    (fun t ht => ((scan_spelled hscan).1 t ht).elim fun _ => declares_token)
    (fun r hr _ parts v _ _ => declares_rules r hr parts v) (List.Sublist.refl _)
  obtain ⟨_, ⟨⟩, hparsed⟩ := (List.forall₂_cons.mp hvalues).1
  exact hparsed

end Grammar

def Declaration.Names (d : Declaration) (p : Property) : Prop := d.property = some ("#" ++ p.word)

/-- The values that declarations give a property. -/
def valuesOf (p : Property) (ds : List Declaration) : List Record :=
  ds.filterMap fun d => if d.property = some ("#" ++ p.word) then d.value else none

theorem Property.word_inj {p q : Property} (h : "#" ++ p.word = "#" ++ q.word) : p = q := by
  have hwords : ∀ p ∈ all, ∀ q ∈ all, "#" ++ p.word = "#" ++ q.word → p = q := by decide
  exact hwords p (by cases p <;> decide) q (by cases q <;> decide) h

theorem Announcement.names_iff (e : Announcement) : e.declaration.Names p ↔ e.property = p :=
  ⟨fun h => Property.word_inj (Option.some.inj h), fun h => h ▸ rfl⟩

theorem valuesOf_cons (p : Property) (e : Announcement) (ds : List Declaration) :
    valuesOf p (e.declaration :: ds) =
      (if e.property = p then [e.value] else []) ++ valuesOf p ds := by
  by_cases hown : e.property = p
  · simp [valuesOf, Announcement.declaration, hown]
  · have hother : "#" ++ e.property.word ≠ "#" ++ p.word := fun h => hown (Property.word_inj h)
    simp only [valuesOf, Announcement.declaration, List.filterMap_cons, Option.some.injEq, hother,
      hown, if_false, List.nil_append]

/-- What the properties of a sprite start with if it is called `base`. -/
def Property.initial (base : String) : Property → Record
  | name => .str base
  | costume | sound => .list []
  | visible | draggable => .value (.bool true)
  | x | y => .value (.int 0)
  | size => .value (.int 100)
  | direction => .value (.int 90)
  | rotationStyle => .str "all_around"
  | layer => .value (.int 1)

/-- A file name is cut into what the sprite is called and an ending of four characters; one that is
shorter is all ending. -/
def FileName (base ending : String) : Prop :=
  ending.length = 4 ∨ base = "" ∧ ending.length < 4

theorem Property.default_append {base ending : String} (h : FileName base ending) (p : Property) :
    p.default (base ++ ending) = p.initial base := by
  have hstem : Property.stem (base ++ ending) = base := by
    rw [Property.stem, String.toList_append, String.length_append]
    rcases h with hfour | ⟨rfl, hshort⟩
    · rw [hfour, Nat.add_sub_cancel, ← String.length_toList, List.take_left, String.ofList_toList]
    · have hnone : "".length + ending.length - 4 = 0 := by
        rw [String.length_empty]
        omega
      rw [hnone, List.take_zero, String.ofList_nil]
  cases p
  case name => exact congrArg Record.str hstem
  all_goals rfl

namespace Build

section

variable {s : BuildState} {ds : List Declaration} (hds : ∀ d ∈ ds, d.IsParsed)
include hds

theorem readProperty_ok : (∃ s', readProperty p onStage found ds s = .ok r s') ↔
    (found.toList ++ valuesOf p ds).length ≤ 1 ∧ r = (found.toList ++ valuesOf p ds).head? ∧
      ∀ v ∈ valuesOf p ds, (p.spriteOnly && onStage) = false ∧ p.accepts v = .ok true := by
  induction ds generalizing found s with
  | nil =>
    simp only [readProperty, valuesOf, pure_ok]
    cases found <;> simp [@eq_comm _ r]
  | cons d rest ih =>
    rw [List.forall_mem_cons] at hds
    obtain ⟨⟨e, rfl⟩, hrest⟩ := hds
    have hparts : declarationParts e.declaration s =
        .ok ("#" ++ e.property.word, e.value) { s with session.position := some e.place } := rfl
    rw [readProperty, bind_of_ok hparts, valuesOf_cons]
    dsimp only
    by_cases hown : e.property = p
    · subst hown
      rw [if_neg (by simp), if_pos rfl]
      cases hstage : e.property.spriteOnly && onStage with
      | true =>
        exact iff_of_false (by simp [reject_ok]) fun h =>
          absurd (h.2.2 e.value (by simp)).1 (by simp)
      | false =>
        cases found with
        | some v => simp [reject_ok]
        | none =>
          cases haccepts : e.property.accepts e.value with
          | error f => simp [haccepts, bind_ok, ofExcept_ok]
          | ok accepted =>
            cases accepted with
            | false => simp [haccepts, bind_ok, ofExcept_ok, reject_ok]
            | true => simp [haccepts, bind_ok, ofExcept_ok, ih hrest, hstage]
    · have hother : "#" ++ e.property.word ≠ "#" ++ p.word := fun h => hown (Property.word_inj h)
      rw [if_pos (bne_iff_ne.mpr hother), if_neg hown, List.nil_append, ih hrest]

theorem readProperties_ok (ps : List Property) :
    (∃ s', readProperties ds filename onStage ps s = .ok r s') ↔
      r = ps.map (fun p => (p, (valuesOf p ds).head?.getD (p.default filename))) ∧
        ∀ p ∈ ps, (valuesOf p ds).length ≤ 1 ∧
          ∀ v ∈ valuesOf p ds, (p.spriteOnly && onStage) = false ∧ p.accepts v = .ok true := by
  induction ps generalizing r s with
  | nil => exact ⟨fun ⟨_, h⟩ => ⟨(pure_ok.mp h).1.symm, by simp⟩, fun h => ⟨s, h.1 ▸ rfl⟩⟩
  | cons p rest ih =>
    have hfound found : (∃ s', readProperty p onStage none ds s = .ok found s') ↔ _ :=
      readProperty_ok hds
    rw [readProperties, List.forall_mem_cons]
    constructor
    · rintro ⟨s', hrun⟩
      obtain ⟨found, t, hread, others, t', hothers, hrun⟩ := bind_bind_ok.mp hrun
      obtain ⟨hlength, rfl, hvalues⟩ := (hfound found).mp ⟨t, hread⟩
      obtain ⟨rfl, hrest⟩ := ih.mp ⟨t', hothers⟩
      obtain ⟨rfl, -⟩ := pure_ok.mp hrun
      exact ⟨rfl, ⟨hlength, hvalues⟩, hrest⟩
    · rintro ⟨rfl, ⟨hlength, hvalues⟩, hrest⟩
      obtain ⟨t, hread⟩ := (hfound _).mpr ⟨hlength, rfl, hvalues⟩
      obtain ⟨t', hothers⟩ := (ih (s := t)).mpr ⟨rfl, hrest⟩
      exact ⟨t', bind_ok.mpr ⟨_, t, hread, bind_ok.mpr ⟨_, t', hothers, rfl⟩⟩⟩

omit hds in
theorem mem_valuesOf : v ∈ valuesOf p ds ↔ ∃ d ∈ ds, d.Names p ∧ d.value = some v := by
  simp [valuesOf, Declaration.Names]

/-- On the stage there are costumes and sounds only, a size lies between 0 and 100, and a layer is
positive. -/
def Admissible (onStage : Bool) (d : Declaration) : Prop :=
  (onStage = true → d.Names .costume ∨ d.Names .sound) ∧
    (d.Names .size → ∃ n, d.value = some (.value (.ofNumber n)) ∧
      n.order? (.int 0) ∈ [some .gt, some .eq] ∧ n.order? (.int 100) ∈ [some .lt, some .eq]) ∧
    (d.Names .layer → ∃ n : Int, 0 < n ∧ d.value = some (.value (.int n)))

omit hds in
theorem admissible_iff (e : Announcement) (onStage : Bool) : Admissible onStage e.declaration ↔
    (e.property.spriteOnly && onStage) = false ∧ e.property.accepts e.value = .ok true := by
  simp only [Admissible, e.names_iff]
  obtain ⟨place, p, v, htaken⟩ := e
  cases p
  case size =>
    obtain ⟨n, rfl⟩ := htaken
    have hnumber : (Value.ofNumber n).isBlock = false ∧ (Value.ofNumber n).number? = some n := by
      cases n <;> exact ⟨rfl, rfl⟩
    have hinj : ∀ m, Value.ofNumber n = .ofNumber m ↔ n = m := by
      intro m
      cases n <;> cases m <;> simp [Value.ofNumber]
    cases onStage <;> simp [Announcement.declaration, Property.spriteOnly, Property.accepts,
      Property.acceptsSize, hnumber, Value.holds, hinj]
  case layer =>
    obtain ⟨n, rfl⟩ := htaken
    cases n <;> cases onStage <;>
      simp [Announcement.declaration, Property.spriteOnly, Property.accepts, Value.ofNumber]
  all_goals cases onStage <;> simp [Property.spriteOnly, Property.accepts]

theorem accepts_iff (onStage : Bool) : (∀ p ∈ Property.all, ∀ v ∈ valuesOf p ds,
      (p.spriteOnly && onStage) = false ∧ p.accepts v = .ok true) ↔
    ∀ d ∈ ds, Admissible onStage d := by
  refine ⟨fun h d hd => ?_, fun h p _ v hv => ?_⟩
  · obtain ⟨e, rfl⟩ := hds d hd
    exact (admissible_iff e onStage).mpr
      (h e.property (by cases e.property <;> decide) e.value (mem_valuesOf.mpr ⟨_, hd, rfl, rfl⟩))
  · obtain ⟨d, hd, hproperty, hvalue⟩ := mem_valuesOf.mp hv
    obtain ⟨e, rfl⟩ := hds d hd
    obtain rfl : e.property = p := e.names_iff.mp hproperty
    obtain rfl : e.value = v := Option.some.inj hvalue
    exact (admissible_iff e onStage).mp (h _ hd)

omit hds in
theorem head?_of_perm {l l' : List Record} (h : l.Perm l') (hl : l.length ≤ 1) :
    l.head? = l'.head? := by
  rcases l with _ | ⟨v, _ | ⟨w, l⟩⟩
  · rw [h.nil_eq]
  · rw [h.singleton_eq]
  · simp at hl

/-- Declarations are accepted, in every order, if no property has two values and each declaration
is admissible. -/
theorem declarations_ok {all : List Declaration} (hperm : ds.Perm all) :
    (∃ s', declarations ds filename onStage s = .ok r s') ↔
      ((∀ p ∈ Property.all, (valuesOf p all).length ≤ 1) ∧ ∀ d ∈ all, Admissible onStage d) ∧
        r = Property.all.map fun p => (p, (valuesOf p all).head?.getD (p.default filename)) := by
  have hall : ∀ d ∈ all, d.IsParsed := fun d hd => hds d (hperm.mem_iff.mpr hd)
  have hvalues : ∀ p, (valuesOf p ds).Perm (valuesOf p all) := fun p => hperm.filterMap _
  rw [declarations, readProperties_ok hds, ← accepts_iff hall, and_comm]
  simp only [(hvalues _).length_eq, (hvalues _).mem_iff, forall₂_and]
  refine and_congr_right fun h => ?_
  have hfirst : ∀ p ∈ Property.all, (p, (valuesOf p ds).head?.getD (p.default filename)) =
      (p, (valuesOf p all).head?.getD (p.default filename)) := fun p hp => by
    rw [head?_of_perm (hvalues p) ((hvalues p).length_eq ▸ h.1 p hp)]
  rw [List.map_congr_left hfirst]

end

/-- A script with a costume whose path is a number. -/
def costumeSource : String := "#costume [1]"

def costumeScript : Script := ⟨[⟨.start 0, some "#costume", some (.list [.value (.int 1)])⟩], []⟩

open Grammar in
theorem costumeSource_spells : Spells costumeSource costumeScript := by
  refine ⟨1, rfl, ?_⟩
  let token (i : Nat) : Token := (scan .script 1 costumeSource).tokens.getD i ⟨.dot, .int 0, 0, 0⟩
  have hnumber := Derives.step 94 rfl (.step 63 rfl (.token (token 2) .nil) rfl .nil) rfl .nil
  have hlist := Derives.step 66 rfl (.token (token 1)
    ((Derives.step 68 rfl hnumber rfl .nil).append (.token (token 3) .nil))) rfl .nil
  have hcostume := Derives.step 8 rfl (.token (token 0) hlist) rfl .nil
  exact (Derives.step 1 rfl (.step 5 rfl hcostume rfl .nil) rfl .nil :)

/-- Properties against their order, with others left out, and a property that is declared twice. -/
def placedSource : String := "#layer 2 #size 50 #x 7"

def repeatedSource : String := "#x 7 #layer 2 #x 8"

def placedScript : Script :=
  ⟨[⟨.start 0, some "#layer", some (.value (.int 2))⟩,
    ⟨.start 9, some "#size", some (.value (.int 50))⟩,
    ⟨.start 18, some "#x", some (.value (.int 7))⟩], []⟩

def repeatedScript : Script :=
  ⟨[⟨.start 0, some "#x", some (.value (.int 7))⟩,
    ⟨.start 5, some "#layer", some (.value (.int 2))⟩,
    ⟨.start 14, some "#x", some (.value (.int 8))⟩], []⟩

open Grammar in
theorem numberSources_spell :
    Spells placedSource placedScript ∧ Spells repeatedSource repeatedScript := by
  have hnumber (t : Token) {f : Fragment} (hf : literal [Fragment.ofToken t] = .ok f)
      (hkind : t.kind = .integer) :
      Derives scripts Fragment.ofToken [.cat .number] [t] [f] := by
    have htoken : Derives scripts Fragment.ofToken [.tok .integer] [t] [Fragment.ofToken t] :=
      hkind ▸ .token t .nil
    exact .step 63 rfl htoken hf .nil
  refine ⟨⟨1, rfl, ?_⟩, ⟨1, rfl, ?_⟩⟩
  · let token (i : Nat) : Token := (scan .script 1 placedSource).tokens.getD i ⟨.dot, .int 0, 0, 0⟩
    have hlayer := Derives.step 18 rfl (.token (token 0) (hnumber (token 1) rfl rfl)) rfl .nil
    have hsize := Derives.step 14 rfl (.token (token 2) (hnumber (token 3) rfl rfl)) rfl .nil
    have hx := Derives.step 12 rfl (.token (token 4) (hnumber (token 5) rfl rfl)) rfl .nil
    have hlast := Derives.step 5 rfl hx rfl .nil
    have hmore := Derives.step 4 rfl (hsize.append hlast) rfl .nil
    exact (Derives.step 1 rfl (.step 4 rfl (hlayer.append hmore) rfl .nil) rfl .nil :)
  · let token (i : Nat) : Token :=
      (scan .script 1 repeatedSource).tokens.getD i ⟨.dot, .int 0, 0, 0⟩
    have hfirst := Derives.step 12 rfl (.token (token 0) (hnumber (token 1) rfl rfl)) rfl .nil
    have hlayer := Derives.step 18 rfl (.token (token 2) (hnumber (token 3) rfl rfl)) rfl .nil
    have hsecond := Derives.step 12 rfl (.token (token 4) (hnumber (token 5) rfl rfl)) rfl .nil
    have hlast := Derives.step 5 rfl hsecond rfl .nil
    have hmore := Derives.step 4 rfl (hlayer.append hlast) rfl .nil
    exact (Derives.step 1 rfl (.step 4 rfl (hfirst.append hmore) rfl .nil) rfl .nil :)

/-- Declarations that were parsed are accepted, in every order, exactly if no property is declared
twice and each is admissible. They give each property its value, or what it starts with in a sprite
that is called as its file without the last four characters. -/
theorem declarations_iff (source : String) (script : Script) :
    (∀ session after : Session, session.content = .ok source →
      session.parseScript = (.ok script, after) → Grammar.Spells source script) ∧
    (Grammar.Spells source script → ∀ ds, ds.Perm script.declarations →
      ∀ base ending, FileName base ending → ∀ onStage s properties,
      (∃ s', declarations ds (base ++ ending) onStage s = .ok properties s') ↔
        ((∀ p ∈ Property.all, (valuesOf p script.declarations).length ≤ 1) ∧
          ∀ d ∈ script.declarations, Admissible onStage d) ∧
        properties = Property.all.map fun p =>
          (p, (valuesOf p script.declarations).head?.getD (p.initial base))) := by
  refine ⟨fun session after => Session.parseScript_spells, ?_⟩
  intro hspells ds hperm base ending hname onStage s properties
  simp only [← Property.default_append hname]
  exact declarations_ok (fun d hd => hspells.isParsed d (hperm.mem_iff.mp hd)) hperm

theorem declarations_iff_reordered : ∃ s,
    (∀ ds, ds.Perm placedScript.declarations → (∃ s', declarations ds "cat.sbs" false s = .ok
        [(.name, .str "cat"), (.costume, .list []), (.sound, .list []),
          (.visible, .value (.bool true)), (.x, .value (.int 7)), (.y, .value (.int 0)),
          (.size, .value (.int 50)), (.direction, .value (.int 90)),
          (.draggable, .value (.bool true)), (.rotationStyle, .str "all_around"),
          (.layer, .value (.int 2))] s') ∧
      ¬ ∃ properties s', declarations ds "cat.sbs" true s = .ok properties s') ∧
    ∀ ds, ds.Perm repeatedScript.declarations →
      ¬ ∃ properties s', declarations ds "cat.sbs" false s = .ok properties s' := by
  let s : BuildState := .fresh (.fresh (some .error) false) "project"
  have hname : FileName "cat" ".sbs" := .inl rfl
  obtain ⟨hplaced, hrepeated⟩ := numberSources_spell
  refine ⟨s, fun ds hperm => ⟨?_, ?_⟩, ?_⟩
  · have hsingle : ∀ p ∈ Property.all, (valuesOf p placedScript.declarations).length ≤ 1 := by
      decide
    have hadmissible : ∀ d ∈ placedScript.declarations, Admissible false d := by
      have hsize : ∃ n, Record.value (.int 50) = .value (.ofNumber n) ∧
          n.order? (.int 0) ∈ [some .gt, some .eq] ∧ n.order? (.int 100) ∈ [some .lt, some .eq] :=
        ⟨.int 50, rfl, by decide, by decide⟩
      simpa [placedScript, Admissible, Declaration.Names, Property.word] using hsize
    exact ((declarations_iff placedSource placedScript).2 hplaced ds hperm "cat" ".sbs" hname
      false s _).mpr ⟨⟨hsingle, hadmissible⟩, rfl⟩
  · rintro ⟨properties, hrun⟩
    obtain ⟨⟨-, hadmissible⟩, -⟩ := ((declarations_iff placedSource placedScript).2 hplaced ds hperm
      "cat" ".sbs" hname true s properties).mp hrun
    have hstage := (hadmissible _ List.mem_cons_self).1 rfl
    simp [Declaration.Names, Property.word] at hstage
  · rintro ds hperm ⟨properties, hrun⟩
    obtain ⟨⟨hsingle, -⟩, -⟩ := ((declarations_iff repeatedSource repeatedScript).2 hrepeated ds
      hperm "cat" ".sbs" hname false s properties).mp hrun
    exact absurd (hsingle .x (by decide)) (by decide)

section

variable {s : BuildState} (folder : Location) (kind : AssetKind) (place : Place)

theorem exists_addAssetsAt (h : s.session.console.level ≠ none) (text : String) :
    ∃ s', addAssetsAt folder kind place (.str text) s = .ok () s' ∧
      s'.session.console.level ≠ none := by
  change ∃ s', ((folder.search text).forM _ : Build Unit) s = .ok () s' ∧ _
  generalize folder.search text = files
  induction files generalizing s with
  | nil => exact ⟨s, rfl, h⟩
  | cons file files ih =>
    let added := s.draft.project.modify place (·.addAsset ⟨kind, file⟩)
    obtain ⟨t, hlog⟩ := @exists_log { s with draft.project := added } .debug
      ("  Added asset \"" ++ file ++ "\"") h
    obtain ⟨-, -, -, hlevel⟩ := log_ok hlog
    obtain ⟨s', hrun, hs'⟩ := ih (s := t) (by rw [hlevel]; exact h)
    exact ⟨s', forM_cons_ok.mpr ⟨t, bind_ok.mpr ⟨(), _, modifyTarget_ok.mpr rfl, hlog⟩, hrun⟩, hs'⟩

theorem addAssetsAt_toRecord (h : s.session.console.level ≠ none) (item : Expr) :
    ∃ s', addAssetsAt folder kind place item.toRecord s =
        (if item.isLiteralText then .ok () s' else .error (.fault .typeMismatch) s') ∧
      s'.session.console.level ≠ none := by
  cases item with
  | value v =>
    cases v with
    | str text => exact exists_addAssetsAt folder kind place h text
    | _ => exact ⟨s, rfl, h⟩
  | _ => exact ⟨s, rfl, h⟩

theorem forM_addAssetsAt (h : s.session.console.level ≠ none) (items : List Expr) :
    ∃ s', (exprRecords items).forM (addAssetsAt folder kind place) s =
      if items.all Expr.isLiteralText then .ok () s' else .error (.fault .typeMismatch) s' := by
  induction items generalizing s with
  | nil => exact ⟨s, rfl⟩
  | cons item items ih =>
    obtain ⟨t, hadd, ht⟩ := addAssetsAt_toRecord folder kind place h item
    change ∃ s', (addAssetsAt folder kind place item.toRecord >>= fun _ =>
      (exprRecords items).forM _) s = _
    cases hitem : item.isLiteralText with
    | true =>
      rw [hitem] at hadd
      rw [bind_of_ok hadd]
      simpa [hitem] using ih ht
    | false =>
      rw [hitem] at hadd
      rw [bind_of_error hadd]
      exact ⟨t, by simp [hitem]⟩

end

/-- The paths that a script declares are any expressions. The search for them goes through if all
are texts, and else it fails. -/
theorem addAssets_declared (source : String) (script : Script) :
    (∀ session after : Session, session.content = .ok source →
      session.parseScript = (.ok script, after) → Grammar.Spells source script) ∧
    (Grammar.Spells source script → ∀ filename onStage s s' properties,
      declarations script.declarations filename onStage s = .ok properties s' →
      ∀ p, p = .costume ∨ p = .sound → ∃ items : List Expr,
        properties.get p = .list (exprRecords items) ∧
        (items = [] ∨ ∃ d ∈ script.declarations, d.Names p ∧
          d.value = some (.list (exprRecords items))) ∧
        ∀ (folder : Location) (kind : AssetKind) (place : Place) (t : BuildState),
          t.session.console.level ≠ none →
          ∃ t', addAssets folder kind place (properties.get p) t =
            if items.all Expr.isLiteralText then .ok () t'
            else .error (.fault .typeMismatch) t') := by
  refine ⟨fun session after => Session.parseScript_spells, ?_⟩
  intro hspells filename onStage s s' properties hrun p hp
  have hparsed := hspells.isParsed
  obtain ⟨rfl, -⟩ := (readProperties_ok hparsed _).mp ⟨s', hrun⟩
  have hget : Properties.get (Property.all.map fun p =>
      (p, (valuesOf p script.declarations).head?.getD (p.default filename))) p =
        (valuesOf p script.declarations).head?.getD (.list []) := by
    rcases hp with rfl | rfl <;> rfl
  obtain ⟨items, hitems, hfrom⟩ : ∃ items, (valuesOf p script.declarations).head?.getD (.list []) =
      .list (exprRecords items) ∧ (items = [] ∨ ∃ d ∈ script.declarations, d.Names p ∧
        d.value = some (.list (exprRecords items))) := by
    cases hfirst : (valuesOf p script.declarations).head? with
    | none => exact ⟨[], rfl, .inl rfl⟩
    | some v =>
      obtain ⟨d, hd, hnames, hvalue⟩ := mem_valuesOf.mp (List.mem_of_head? hfirst)
      obtain ⟨e, rfl⟩ := hparsed d hd
      obtain rfl := e.names_iff.mp hnames
      obtain rfl : e.value = v := Option.some.inj hvalue
      have htaken := e.taken
      obtain ⟨items, hitems⟩ : ∃ items, e.value = .list (exprRecords items) := by
        rcases hp with hp | hp <;> rw [hp] at htaken <;> exact htaken
      exact ⟨items, hitems, .inr ⟨_, hd, hnames, hitems ▸ rfl⟩⟩
  rw [hget, hitems]
  refine ⟨items, rfl, hfrom, fun folder kind place t ht => ?_⟩
  exact forM_addAssetsAt folder kind place ht items

theorem addAssets_declared_costume : ∃ s properties s' t,
    declarations costumeScript.declarations "stage.sbs" true s = .ok properties s' ∧
      addAssets (.root "" (.folder [])) .costume .stage (properties.get .costume) s =
        .error (.fault .typeMismatch) t := by
  let s : BuildState := .fresh (.fresh (some .error) false) "project"
  obtain ⟨properties, s', hs', hcostume⟩ : ∃ properties s',
      declarations costumeScript.declarations "stage.sbs" true s = .ok properties s' ∧
        properties.get .costume = .list [.value (.int 1)] := ⟨_, _, rfl, rfl⟩
  obtain ⟨items, hget, _, hassets⟩ := (addAssets_declared costumeSource costumeScript).2
    costumeSource_spells _ _ _ _ _ hs' .costume (.inl rfl)
  rw [hcostume] at hget
  have hnumber : items.all Expr.isLiteralText = false := by
    rcases items with _ | ⟨item, items⟩
    · cases hget
    · obtain ⟨hitem, -⟩ := List.cons.inj (Record.list.inj hget)
      cases item <;> cases hitem
      rfl
  obtain ⟨t, ht⟩ := hassets (.root "" (.folder [])) .costume .stage s (by decide)
  rw [hnumber] at ht
  exact ⟨s, properties, s', t, hs', ht⟩

end Build

end BlockScript
