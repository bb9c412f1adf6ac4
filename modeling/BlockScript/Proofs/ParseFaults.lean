import BlockScript.Proofs.Acceptance
import BlockScript.Proofs.ParseSteps

/-!
The faults of the actions. The rules of both languages have a value for all their parts, with two
exceptions: the comparison of a literal has no position, and a title of which nothing is left names
no file.
-/
namespace BlockScript

namespace Scan

/-- The tokens are spelled in the text as far as it can be read. -/
theorem scanFrom_spelled {d : Dialect} :
    ∀ (cs : List Char) (line position skip : Nat) (afterWord : Bool),
    ∀ t ∈ (scanFrom d line position afterWord skip cs).tokens,
      ∃ text, Spelled d t.kind t.value text := by
  intro cs
  induction cs with
  | nil => simp [scanFrom]
  | cons c cs ih =>
    intro line position skip afterWord
    have hreads := lexeme_reads d afterWord position c cs
    rw [scanFrom]
    split
    · exact ih _ _ _ _
    · split
      · exact ih _ _ _ _
      · exact ih _ _ _ _
      · simp
      · next kind value n hlexeme =>
        rw [hlexeme] at hreads
        obtain ⟨text, _, -, -, hlexed⟩ := hreads
        exact List.forall_mem_cons.2 ⟨⟨text, hlexed.spelled⟩, ih _ _ _ _⟩

end Scan

namespace Grammar

open Scan (Spelled)

section

variable {α : Type} {g : Grammar α} {ofToken : Token → α} {xs : List Symbol} {tokens : List Token}
  {vs : List α} {P : List Token → α → Symbol → Prop}

/-- What holds of tokens and is kept by the rules holds of all parts of a derivation, each with its
own tokens. -/
theorem Derives.exists_parts
    (hrules : ∀ r ∈ g.rules, ∀ ps v, List.Forall₂ (fun x p => P p.1 p.2 x) r.body ps →
      r.action (ps.map Prod.snd) = .ok v → P (ps.flatMap Prod.fst) v (.cat r.head))
    (h : Derives g ofToken xs tokens vs)
    (htokens : ∀ t ∈ tokens, P [t] (ofToken t) (.tok t.kind)) :
    ∃ ps, ps.map Prod.snd = vs ∧ ps.flatMap Prod.fst = tokens ∧
      List.Forall₂ (fun x p => P p.1 p.2 x ∧ Derives g ofToken [x] p.1 [p.2]) xs ps := by
  induction h with
  | nil => exact ⟨[], rfl, rfl, .nil⟩
  | token t rest ih =>
    obtain ⟨htoken, hrest⟩ := List.forall_mem_cons.1 htokens
    obtain ⟨ps, rfl, rfl, hps⟩ := ih hrest
    exact ⟨([t], ofToken t) :: ps, rfl, rfl, .cons ⟨htoken, .token t .nil⟩ hps⟩
  | @rule r _ v _ _ _ _ hmem body hbuilt rest ihbody ihrest =>
    obtain ⟨hinner, houter⟩ := List.forall_mem_append.1 htokens
    obtain ⟨inner, rfl, rfl, hbody⟩ := ihbody hinner
    obtain ⟨ps, rfl, rfl, hps⟩ := ihrest houter
    have hvalue := hrules r hmem inner v (hbody.imp fun _ _ h => h.1) hbuilt
    have hderived := Derives.rule hmem body hbuilt .nil
    rw [List.append_nil] at hderived
    exact ⟨(inner.flatMap Prod.fst, v) :: ps, rfl, rfl, .cons ⟨hvalue, hderived⟩ hps⟩

theorem Derives.exists_token {k : Terminal} (h : Derives g ofToken [.tok k] tokens vs) :
    ∃ t, tokens = [t] ∧ t.kind = k := by
  generalize hsymbols : [Symbol.tok k] = symbols at h
  cases h with
  | nil => cases hsymbols
  | token t rest =>
    cases hsymbols
    cases rest
    exact ⟨t, rfl, rfl⟩
  | rule => cases hsymbols

end

variable {d : Dialect} {ts tokens : List Token} {f : Fragment} {x : Symbol} {c : Category}
  {r : Rule Fragment} {ps : List (List Token × Fragment)} {t : Token} {text : List Char}
  {fault : Fault}

/-- The values that a symbol has in a setup. -/
def SetupValueOf (ts : List Token) (f : Fragment) : Symbol → Prop
  | .tok .string => isLiteral ts = true ∧
      ∃ t title, ts = [t] ∧ t.value = .string title ∧ f = .ofToken t
  | .cat .fileDeclaration => ∃ d, f = .file d
  | .cat .setVariable | .cat .variableDeclarations => ∃ gs, f = .globals gs
  | .cat .program => ∃ s, f = .setup s
  | x => ValueOf ts f x

/-- The symbols that have other values in a setup. -/
def ofSetups : List Symbol :=
  [.cat .fileDeclaration, .cat .setVariable, .cat .variableDeclarations, .cat .program]

theorem SetupValueOf.valueOf (h : SetupValueOf ts f x) (hx : x ∉ ofSetups) : ValueOf ts f x := by
  unfold SetupValueOf at h
  split at h
  · obtain ⟨hliteral, t, title, -, -, rfl⟩ := h
    exact ⟨hliteral, t.value, _, rfl⟩
  · simp [ofSetups] at hx
  · simp [ofSetups] at hx
  · simp [ofSetups] at hx
  · simp [ofSetups] at hx
  · exact h

theorem ValueOf.setup (h : ValueOf ts f (.cat c)) (hc : .cat c ∉ ofSetups) :
    SetupValueOf ts f (.cat c) := by
  unfold SetupValueOf
  split <;> simp_all [ofSetups]

/-- A title of which nothing is left. -/
def Unnamed (ts : List Token) (f : Fault) : Prop :=
  ∃ t ∈ ts, ∃ title, t.value = .string title ∧ Text.fileName title = .error f

/-- A rule of a setup has a value for all its parts, unless it compares a literal or names a file
after a title. -/
def SetupTotal (r : Rule Fragment) : Prop :=
  ∀ ps, List.Forall₂ (fun x p => SetupValueOf p.1 p.2 x) r.body ps →
    if comparesLiteral r (ps.map Prod.fst) then r.action (ps.map Prod.snd) = .error .typeMismatch
    else (∃ v, r.action (ps.map Prod.snd) = .ok v ∧
        SetupValueOf (ps.flatMap Prod.fst) v (.cat r.head)) ∨
      ∃ f, r.action (ps.map Prod.snd) = .error f ∧ Unnamed (ps.flatMap Prod.fst) f

theorem Total.setup (h : Total r) (hbody : ∀ x ∈ r.body, x ∉ ofSetups)
    (hhead : .cat r.head ∉ ofSetups) : SetupTotal r := by
  intro ps hps
  have hparts : PartsOf r.body ps := by
    unfold PartsOf
    generalize r.body = body at hps hbody
    induction hps with
    | nil => exact .nil
    | cons hvalue _ ih =>
      obtain ⟨hx, hrest⟩ := List.forall_mem_cons.1 hbody
      exact .cons (hvalue.valueOf hx) (ih hrest)
  have htotal := h ps hparts
  split
  · next hliteral => simpa only [hliteral, if_true] using htotal
  · next hliteral =>
    rw [if_neg hliteral] at htotal
    obtain ⟨v, hv, hvalue⟩ := htotal
    exact .inl ⟨v, hv, hvalue.setup hhead⟩

theorem SetupTotal.valueOf {v : Fragment} (h : SetupTotal r)
    (hps : List.Forall₂ (fun x p => SetupValueOf p.1 p.2 x) r.body ps)
    (hv : r.action (ps.map Prod.snd) = .ok v) :
    SetupValueOf (ps.flatMap Prod.fst) v (.cat r.head) := by
  have hvalue := h ps hps
  rw [hv] at hvalue
  split at hvalue
  · cases hvalue
  · obtain ⟨_, ⟨⟩, hvalue⟩ | ⟨_, ⟨⟩, -⟩ := hvalue
    exact hvalue

theorem setupTotal_fileDeclaration : SetupTotal (rule .fileDeclaration
    [.tok .project, .tok .string, .tok .semicolon] Setups.fileDeclaration) := by
  rintro _ (_ | ⟨hproject, _ | ⟨htitle, _ | ⟨hend, ⟨⟩⟩⟩⟩)
  obtain ⟨-, _, _, hproject⟩ := hproject
  obtain ⟨-, t, title, htokens, hvalue, htitle⟩ := htitle
  obtain ⟨-, _, _, hend⟩ := hend
  simp only [rule, comparesLiteral, List.map_cons, List.map_nil, hproject, htitle, hend,
    Fragment.ofToken, hvalue, Setups.fileDeclaration]
  cases hname : Text.fileName title with
  | ok name => exact .inl ⟨_, rfl, _, rfl⟩
  | error f => exact .inr ⟨f, rfl, t, by simp [htokens], title, hvalue, hname⟩

theorem setupTotal_of_mem : ∀ r ∈ setups.rules, SetupTotal r := by
  have hexpressions : ∀ r ∈ expressionRules Setups.minusRank, SetupTotal r := by
    have hplain : ∀ r ∈ expressionRules Setups.minusRank,
        (∀ x ∈ r.body, x ∉ ofSetups) ∧ .cat r.head ∉ ofSetups := by
      simp [expressionRules, rule, ofSetups]
    intro r hr
    exact (total_expressions _ r hr).setup (hplain r hr).1 (hplain r hr).2
  simp only [setups, Setups.rules, List.forall_mem_append, List.forall_mem_cons,
    eq_true hexpressions, setupTotal_fileDeclaration, and_true, true_and]
  and_intros
  all_goals
    simp only [SetupTotal, rule, List.forall₂_cons_left_iff, List.forall₂_nil_left_iff,
      SetupValueOf, ValueOf, forall_exists_index, and_imp, List.not_mem_nil, false_implies,
      implies_true]
  all_goals
    intros
    subst_vars
    simp [*, comparesLiteral, inLiteral, Setups.program, Setups.globals, Setups.place,
      Setups.setVariable, Setups.fileDeclaration, Fragment.ofToken, formed_made,
      position_of_ne_missing]

theorem string_value {v : Literal} (h : Spelled d .string v text) : ∃ title, v = .string title := by
  generalize hkind : Terminal.string = kind at h
  cases h with
  | word _ =>
    cases d <;> simpa [Terminal.keywords, Terminal.scriptKeywords, Terminal.setupKeywords] using
      Scan.mem_keywords hkind.symm (by decide)
  | @mark m hmark =>
    have hkinds : ∀ m ∈ Terminal.marks d, m.2 ≠ .string := by cases d <;> decide
    exact absurd hkind.symm (hkinds m hmark)
  | string _ _ _ => exact ⟨_, rfl⟩
  | integer _ _ _ => cases hkind
  | based _ _ _ _ => cases hkind
  | decimal _ _ _ _ => cases hkind

theorem setupValueOf_token (h : Spelled .setup t.kind t.value text) :
    SetupValueOf [t] (.ofToken t) (.tok t.kind) := by
  have hvalue := valueOf_token h
  by_cases hkind : t.kind = .string
  · rw [hkind] at h hvalue ⊢
    obtain ⟨title, htitle⟩ := string_value h
    exact ⟨hvalue.1, t, title, rfl, htitle, rfl⟩
  · unfold SetupValueOf
    split <;> simp_all

/-- The kinds of comparisons. -/
def comparisons : List Terminal :=
  [.lessThan, .greaterThan, .lessThanEqual, .greaterThanEqual, .equalTo, .notEqualTo]

def ofDialect : Dialect → Grammar Fragment
  | .script => scripts
  | .setup => setups

/-- The faults of the actions in some tokens. -/
inductive ActionFault (d : Dialect) (tokens : List Token) : Fault → Prop
  | comparison {before operand after : List Token} {operator : Token} {v : Fragment}
      (htokens : before ++ operand ++ operator :: after = tokens)
      (hoperand : Derives (ofDialect d) .ofToken [.cat .expression] operand [v])
      (hliteral : isLiteral operand = true) (hoperator : operator.kind ∈ comparisons) :
      ActionFault d tokens .typeMismatch
  | title {f : Fault} (hsetup : d = .setup) (hunnamed : Unnamed tokens f) : ActionFault d tokens f

theorem ActionFault.append (h : ActionFault d tokens fault) (before after : List Token) :
    ActionFault d (before ++ tokens ++ after) fault := by
  cases h with
  | @comparison front operand back operator _ htokens hoperand hliteral hoperator =>
    have hsplit : before ++ front ++ operand ++ operator :: (back ++ after) =
        before ++ tokens ++ after := by simp [← htokens]
    exact .comparison hsplit hoperand hliteral hoperator
  | title hsetup hunnamed =>
    obtain ⟨t, ht, hname⟩ := hunnamed
    exact .title hsetup ⟨t, by simp [ht], hname⟩

theorem comparison_body (d : Dialect) (hrule : r ∈ (ofDialect d).rules)
    (hhead : r.head = .comparison) :
    ∃ k ∈ comparisons, r.body = [.cat .expression, .tok k, .cat .expression] := by
  have hbodies : ∀ s ∈ (ofDialect d).rules.map (fun r => (r.head, r.body)), s.1 = .comparison →
      ∃ k ∈ comparisons, s.2 = [.cat .expression, .tok k, .cat .expression] := by
    cases d <;> decide +kernel
  exact hbodies _ (List.mem_map_of_mem hrule) hhead

/-- A rule that compares a literal. -/
theorem comparison_fault (hrule : r ∈ (ofDialect d).rules)
    (hps : List.Forall₂ (fun x p => Derives (ofDialect d) .ofToken [x] p.1 [p.2]) r.body ps)
    (hliteral : comparesLiteral r (ps.map Prod.fst) = true) :
    ActionFault d (ps.flatMap Prod.fst) .typeMismatch := by
  obtain ⟨hhead, hfirst⟩ := Bool.and_eq_true_iff.1 hliteral
  obtain ⟨k, hk, hbody⟩ := comparison_body d hrule (by simpa using hhead)
  rw [hbody] at hps
  cases hps with
  | @cons _ operand _ _ hoperand hrest =>
    cases hrest with
    | @cons _ operator _ others hoperator _ =>
      obtain ⟨t, htoken, rfl⟩ := hoperator.exists_token
      have hsplit : [] ++ operand.1 ++ t :: others.flatMap Prod.fst =
          (operand :: operator :: others).flatMap Prod.fst := by simp [htoken]
      exact .comparison hsplit hoperand (by simpa using hfirst) hk

/-- An action fails only for one of the two reasons. -/
theorem action_fault (hspelled : ∀ t ∈ tokens, ∃ text, Spelled d t.kind t.value text)
    (hrule : r ∈ (ofDialect d).rules) {values : List Fragment}
    (hderived : Derives (ofDialect d) .ofToken r.body tokens values)
    (hfault : r.action values = .error fault) : ActionFault d tokens fault := by
  cases d with
  | script =>
    obtain ⟨ps, rfl, rfl, hps⟩ := hderived.exists_parts (P := fun ts v x => ValueOf ts v x)
      (fun r hr ps v hps hv => (total_of_mem r hr).valueOf hps hv)
      fun t ht => valueOf_token (hspelled t ht).choose_spec
    have htotal := total_of_mem r hrule ps (hps.imp fun _ _ h => h.1)
    rw [hfault] at htotal
    split at htotal
    · next hliteral =>
      obtain rfl := Except.error.inj htotal
      exact comparison_fault hrule (hps.imp fun _ _ h => h.2) hliteral
    · obtain ⟨_, ⟨⟩, -⟩ := htotal
  | setup =>
    obtain ⟨ps, rfl, rfl, hps⟩ := hderived.exists_parts
      (P := SetupValueOf) (fun r hr ps v hps hv => (setupTotal_of_mem r hr).valueOf hps hv)
      fun t ht => setupValueOf_token (hspelled t ht).choose_spec
    have htotal := setupTotal_of_mem r hrule ps (hps.imp fun _ _ h => h.1)
    rw [hfault] at htotal
    split at htotal
    · next hliteral =>
      obtain rfl := Except.error.inj htotal
      exact comparison_fault hrule (hps.imp fun _ _ h => h.2) hliteral
    · obtain ⟨_, ⟨⟩, -⟩ | ⟨_, hf, hunnamed⟩ := htotal
      exact .title rfl (Except.error.inj hf ▸ hunnamed)

/-- A parse fails only where an action does. -/
theorem parse_actionFault {line n : Nat} {source : String}
    (h : (Machine.ofGrammar (ofDialect d) .ofToken).parse line (scan d line source) =
      (.fault fault, n)) : ActionFault d (scan d line source).tokens fault := by
  have hcover : ∃ tables : Tables, tables.Cover (ofDialect d) := by
    cases d with
    | script => exact ⟨_, Scripts.settles.toCover⟩
    | setup => exact ⟨_, Setups.settles.toCover⟩
  obtain ⟨tables, hcover⟩ := hcover
  obtain ⟨rule, hrule, before, inner, after, parts, htokens, hderived, haction⟩ :=
    Machine.parse_fault hcover h
  have hspelled : ∀ t ∈ inner, ∃ text, Spelled d t.kind t.value text := fun t ht =>
    Scan.scanFrom_spelled source.toList line 0 0 false t (htokens ▸ by simp [ht])
  exact htokens ▸ (action_fault hspelled hrule hderived haction).append before after

end Grammar

end BlockScript
