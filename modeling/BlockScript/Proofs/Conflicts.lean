import BlockScript.Proofs.ParseTrees
import Mathlib.Algebra.GroupWithZero.Nat

/-!
Where rules compete. The symbols that lead to a state end with what a rule has read there, so two
rules that have been read to some points in one state have read the same from the right. A trail
keeps of those symbols as much as is needed to tell which categories can begin in the state. Tables
of such trails bound all rules that can compete. If all that they leave open is whether an operation
or an operator comes first, and whether a rule ends before a terminal that could be read, then a
tree in which precedence decides both is the tree for which the automaton decides.
-/
namespace BlockScript.Grammar

open Automaton ParseTree

variable {α : Type} {g : Grammar α} {p q r r' k n : Nat} {x : Symbol} {xs ys : List Symbol}
  {rule rule' : Rule α}

section

/-- An element of a list has one index if it differs from all others. -/
theorem index_unique {β : Type} {l : List β} {R : β → β → Prop} {i j : Nat} {a b : β}
    (h : l.Pairwise R) (hi : l[i]? = some a) (hj : l[j]? = some b) (hab : ¬ R a b)
    (hba : ¬ R b a) : i = j := by
  obtain ⟨hilt, rfl⟩ := List.getElem?_eq_some_iff.mp hi
  obtain ⟨hjlt, rfl⟩ := List.getElem?_eq_some_iff.mp hj
  have hpairs := List.pairwise_iff_getElem.mp h
  rcases Nat.lt_trichotomy i j with hlt | heq | hlt
  · exact absurd (hpairs i j hilt hjlt hlt) hab
  · exact heq
  · exact absurd (hpairs j i hjlt hilt hlt) hba

/-- A number is that of a rule, or stands for the rule of the whole input. -/
theorem rule_or_start (g : Grammar α) (r : Nat) :
    (∃ rule, g.rules[r]? = some rule) ∨ bodyOf g r = [.cat g.start] := by
  cases hrule : g.rules[r]? with
  | some rule => exact .inl ⟨rule, rfl⟩
  | none => exact .inr (by rw [bodyOf, hrule])

theorem path_append : Path g p (xs ++ ys) q ↔ ∃ m, Path g p xs m ∧ Path g m ys q := by
  induction xs generalizing p with
  | nil => simp [Path]
  | cons x xs ih =>
    simp only [List.cons_append, Path, ih]
    constructor
    · rintro ⟨p', hgoto, m, hxs, hys⟩
      exact ⟨m, ⟨p', hgoto, hxs⟩, hys⟩
    · rintro ⟨m, ⟨p', hgoto, hxs⟩, hys⟩
      exact ⟨p', hgoto, m, hxs, hys⟩

theorem path_concat : Path g p (xs ++ [x]) q ↔ ∃ m, Path g p xs m ∧ Goto g m x q := by
  simp [path_append, Path]

theorem cons_of_drop {body : List Symbol} (h : body.drop n = x :: xs) :
    body[n]? = some x ∧ body.drop (n + 1) = xs := by
  rw [← List.head?_drop, ← List.tail_drop, h]
  exact ⟨rfl, rfl⟩

theorem lt_of_drop {body : List Symbol} (h : body.drop n = xs) (hne : xs ≠ []) :
    n < body.length := by
  by_contra hle
  exact hne (h ▸ List.drop_eq_nil_of_le (Nat.le_of_not_lt hle))

/-- What is left of a rule can be read. -/
theorem Has.exists_path (hitem : Has g p r k) (hxs : (bodyOf g r).drop k = xs) :
    ∃ q, Path g p xs q := by
  induction xs generalizing p k with
  | nil => exact ⟨p, rfl⟩
  | cons x xs ih =>
    obtain ⟨hnext, hrest⟩ := cons_of_drop hxs
    obtain ⟨p', hgoto⟩ := exists_goto hitem hnext
    obtain ⟨q, hpath⟩ := ih (hgoto.has_succ.mpr ⟨hitem, hnext⟩) hrest
    exact ⟨q, p', hgoto, hpath⟩

/-- What leads to a state ends with what a rule has read there. -/
theorem Path.trace (h : Path g 0 ys q) (hitem : Has g q r k) : ∃ before p,
    ys = before ++ (bodyOf g r).take k ∧ Path g 0 before p ∧ Has g p r 0 := by
  induction ys using List.reverseRecOn generalizing q k with
  | nil =>
    obtain rfl : 0 = q := h
    obtain ⟨rfl, -⟩ := has_start.mp hitem
    exact ⟨[], 0, rfl, rfl, hitem⟩
  | append_singleton ys x ih =>
    cases k with
    | zero => exact ⟨ys ++ [x], q, by simp, h, hitem⟩
    | succ k =>
      obtain ⟨m, hpath, hgoto⟩ := path_concat.mp h
      obtain ⟨hbefore, hnext⟩ := hgoto.has_succ.mp hitem
      obtain ⟨before, p, rfl, hp, hbegins⟩ := ih hpath hbefore
      refine ⟨before, p, ?_, hp, hbegins⟩
      rw [List.take_add_one, hnext, List.append_assoc]
      rfl

/-- Where a category is expected, all its rules begin. -/
theorem Path.begins (h : Path g 0 ys p) (hitem : Has g p r k)
    (hnext : (bodyOf g r)[k]? = some (.cat c)) (hrule : g.rules[r']? = some rule)
    (hhead : rule.head = c) : Has g p r' 0 := by
  subst hhead
  have hfirst : ∀ {rule' : Rule α}, g.rules[r]? = some rule' → k = 0 →
      ∃ rule'' ∈ g.rules, rule''.head = rule'.head ∧ rule''.body.head? = some (.cat rule.head) := by
    rintro rule' hrule' rfl
    rw [bodyOf_eq hrule', ← List.head?_eq_getElem?] at hnext
    exact ⟨rule', List.mem_of_getElem? hrule', rfl, hnext⟩
  rcases List.eq_nil_or_concat' ys with rfl | ⟨init, x, rfl⟩
  · obtain rfl : 0 = p := h
    refine has_start.mpr ⟨rfl, .inr ⟨rule, hrule, ?_⟩⟩
    obtain ⟨rfl, rfl | ⟨rule', hrule', hstarts⟩⟩ := has_start.mp hitem
    · rw [bodyOf, List.getElem?_eq_none (Nat.le_refl _)] at hnext
      have hstart : g.start = rule.head := Symbol.cat.inj (Option.some.inj hnext)
      rw [← hstart]
    · exact hstarts.tail (hfirst hrule' rfl)
  · obtain ⟨p', -, hgoto⟩ := path_concat.mp h
    cases k with
    | succ k => exact hgoto.has_zero.mpr ⟨rule, hrule, r, k, rule.head, hitem, hnext, .refl⟩
    | zero =>
      obtain ⟨rule', hrule', r'', k'', c', hitem', hnext', hstarts⟩ := hgoto.has_zero.mp hitem
      exact hgoto.has_zero.mpr
        ⟨rule, hrule, r'', k'', c', hitem', hnext', hstarts.tail (hfirst hrule' rfl)⟩

end

/-- The last symbol that leads to a state, with a number by which some states are told apart that
it leads to. The initial state has no trail. -/
abbrev Trail := Option (Symbol × Nat)

/-- What precedence has to decide in a grammar. An operation begins with an operand that a rule
before it may claim. After a body it may be open whether the rule ends or a terminal is read. -/
structure Disputes where
  operand : Category
  contested : List Symbol → Terminal → Bool

/-- The terminal after the first operand of an operation. -/
def Disputes.operator? (d : Disputes) : List Symbol → Option Terminal
  | .cat c :: .tok t :: _ => if c = d.operand then some t else none
  | _ => none

/-- What is known of a grammar. There are the number that a symbol gets after a trail, the trails of
the states in which a category can begin, what can stand first in a category, terminals that never
follow it, and how much its trees fall short of the steps that are allowed for their tokens. -/
structure Tables extends Disputes where
  variant : Trail → Symbol → Nat
  left : Category → List Trail
  first : Category → List Terminal
  barred : Category → List Terminal
  slack : Category → Nat

namespace Tables

variable (tables : Tables)

/-- The trail that symbols leave after another one. -/
def after (m : Trail) (xs : List Symbol) : Trail :=
  xs.foldl (fun m x => some (x, tables.variant m x)) m

def enters (m : Trail) : Symbol → Bool
  | .tok _ => true
  | .cat c => (tables.left c).contains m

def firstOf : Symbol → List Terminal
  | .tok t => [t]
  | .cat c => tables.first c

def barredBy : Symbol → List Terminal
  | .tok _ => []
  | .cat c => tables.barred c

def slackOf : Symbol → Nat
  | .tok _ => 127
  | .cat c => tables.slack c

/-- The tables take in all that the rules of a grammar allow. -/
structure Cover (g : Grammar α) : Prop where
  left_start : tables.left g.start = [none]
  left_next : ∀ rule ∈ g.rules, ∀ k < rule.body.length, ∀ x ∈ rule.body[k]?,
    ∀ m ∈ tables.left rule.head, tables.enters (tables.after m (rule.body.take k)) x = true
  first : ∀ rule ∈ g.rules, ∀ x ∈ rule.body.head?, ∀ t ∈ tables.firstOf x,
    t ∈ tables.first rule.head
  barred_next : ∀ rule ∈ g.rules, ∀ k < rule.body.length, ∀ x ∈ rule.body[k]?,
    ∀ y ∈ rule.body[k + 1]?, ∀ t ∈ tables.barredBy x, t ∉ tables.firstOf y
  barred_last : ∀ rule ∈ g.rules, ∀ x ∈ rule.body.getLast?, ∀ t ∈ tables.barredBy x,
    t ∈ tables.barred rule.head
  start : ∀ rule ∈ g.rules, .cat g.start ∉ rule.body ∧ (rule.body = [] → rule.head = g.start)
  slack : ∀ rule ∈ g.rules, rule.head = g.start ∨
    tables.slack rule.head < (rule.body.map tables.slackOf).sum

/-- Where one category begins, another one can begin after so many symbols. -/
def meets (c : Category) (xs : List Symbol) (c' : Category) : Bool :=
  (xs.getLast?.all fun x => (tables.left c').any fun m => m.any (·.1 == x)) &&
    (tables.left c).any fun m => (tables.left c').contains (tables.after m xs)

/-- After so many symbols of one rule, so many of another one can have been read. -/
def coincides (rule : Rule α) (n : Nat) (rule' : Rule α) (k : Nat) : Bool :=
  let read := rule.body.take n
  let read' := rule'.body.take k
  read'.isSuffixOf read &&
      tables.meets rule.head (read.take (read.length - read'.length)) rule'.head ||
    read.isSuffixOf read' &&
      tables.meets rule'.head (read'.take (read'.length - read.length)) rule.head

variable {tables}

theorem after_append (m : Trail) (xs ys : List Symbol) :
    tables.after m (xs ++ ys) = tables.after (tables.after m xs) ys := List.foldl_append

theorem Cover.mem_left (hcover : tables.Cover g) (hrule : rule ∈ g.rules)
    (hnext : rule.body[k]? = some (.cat c)) (hm : m ∈ tables.left rule.head) :
    tables.after m (rule.body.take k) ∈ tables.left c :=
  List.contains_iff_mem.mp (hcover.left_next rule hrule k (List.getElem?_eq_some_iff.mp hnext).1 _
    hnext m hm)

theorem Cover.left_starts (hcover : tables.Cover g) (h : g.Starts c d) (hm : m ∈ tables.left c) :
    m ∈ tables.left d := by
  induction h with
  | refl => exact hm
  | tail _ hstep ih =>
    obtain ⟨rule, hrule, rfl, hfirst⟩ := hstep
    rw [List.head?_eq_getElem?] at hfirst
    exact hcover.mem_left hrule hfirst ih

/-- A rule begins only in states whose trails allow it. -/
theorem Cover.left_of_begins (hcover : tables.Cover g) (hpath : Path g 0 ys p)
    (hrule : g.rules[r]? = some rule) (hbegins : Has g p r 0) :
    tables.after none ys ∈ tables.left rule.head := by
  induction hlength : ys.length using Nat.strong_induction_on generalizing ys p r rule with
  | _ length ih =>
    rcases List.eq_nil_or_concat' ys with rfl | ⟨init, x, rfl⟩
    · obtain rfl : 0 = p := hpath
      obtain ⟨-, rfl | ⟨rule', hrule', hstarts⟩⟩ := has_start.mp hbegins
      · rw [List.getElem?_eq_none (Nat.le_refl _)] at hrule
        cases hrule
      · obtain rfl : rule' = rule := Option.some.inj (hrule'.symm.trans hrule)
        exact hcover.left_starts hstarts (by simp [hcover.left_start, after])
    · obtain ⟨p', -, hgoto⟩ := path_concat.mp hpath
      obtain ⟨rule₁, hrule₁, r', k, c, hitem, hnext, hstarts⟩ := hgoto.has_zero.mp hbegins
      obtain rfl : rule₁ = rule := Option.some.inj (hrule₁.symm.trans hrule)
      obtain ⟨before, p'', hread, hpath', hbegins'⟩ := hpath.trace hitem
      rcases rule_or_start g r' with ⟨rule', hrule'⟩ | hstart
      · rw [bodyOf_eq hrule'] at hread hnext
        have hshorter : before.length < length := by
          have hk := (List.getElem?_eq_some_iff.mp hnext).1
          rw [← hlength, hread, List.length_append, List.length_take]
          omega
        have hbefore := ih _ hshorter hpath' hrule' hbegins' rfl
        rw [hread, after_append]
        exact hcover.left_starts hstarts
          (hcover.mem_left (List.mem_of_getElem? hrule') hnext hbefore)
      · rw [hstart] at hnext
        simp at hnext

theorem meets_of_mem (hleft : m ∈ tables.left c) (hleft' : tables.after m xs ∈ tables.left c') :
    tables.meets c xs c' = true := by
  rw [meets, Bool.and_eq_true, List.any_eq_true]
  refine ⟨?_, m, hleft, List.contains_iff_mem.mpr hleft'⟩
  rcases List.eq_nil_or_concat' xs with rfl | ⟨init, x, rfl⟩
  · rfl
  · rw [after_append] at hleft'
    rw [List.getLast?_concat, Option.all_some, List.any_eq_true]
    exact ⟨_, hleft', by simp [after]⟩

/-- What two rules have read in one state coincides. -/
theorem Cover.coincides (hcover : tables.Cover g) (hrule : g.rules[r]? = some rule)
    (hrule' : g.rules[r']? = some rule') (hpath : Path g 0 ys p) (hbegins : Has g p r 0)
    (hread : Path g p (rule.body.take n) q) (hitem : Has g q r' k) :
    tables.coincides rule n rule' k = true := by
  have hwhole : Path g 0 (ys ++ rule.body.take n) q := path_append.mpr ⟨p, hpath, hread⟩
  obtain ⟨before, p', hsplit, hpath', hbegins'⟩ := hwhole.trace hitem
  rw [bodyOf_eq hrule'] at hsplit
  have hleft := hcover.left_of_begins hpath hrule hbegins
  have hleft' := hcover.left_of_begins hpath' hrule' hbegins'
  rw [Tables.coincides, Bool.or_eq_true]
  simp only [Bool.and_eq_true, List.isSuffixOf_iff_suffix]
  rcases List.append_eq_append_iff.mp hsplit with ⟨read, rfl, hbody⟩ | ⟨read, rfl, hbody⟩
  · rw [after_append] at hleft'
    refine .inl ⟨⟨read, hbody.symm⟩, meets_of_mem hleft ?_⟩
    simpa [hbody] using hleft'
  · rw [after_append] at hleft
    refine .inr ⟨⟨read, hbody.symm⟩, meets_of_mem hleft' ?_⟩
    simpa [hbody] using hleft

/-- The precedence of a rule, if it waits for its last part. -/
def pending (own : Precedence) (xs : List Symbol) : Precedence :=
  if xs.length = 1 then own else .unranked

/-- All that rules compete for is left to precedence. Two rules do not end in one state. Where a
terminal is read, a rule that ends is not preferred, unless it ends with the operand before an
operator. A rule that ends before a terminal that could be read is contested. A rule that waits for
an operand as its last part has the precedence of the rule at hand, if it has any. -/
structure Settles (g : Grammar α) : Prop extends tables.Cover g where
  distinct : g.rules.Pairwise fun a b => a.head = b.head → a.body ≠ b.body
  unit : ∀ rule ∈ g.rules, rule.body = [.cat tables.operand] → g.rulePrecedence rule = .unranked
  ends : g.rules.all fun rule => g.rules.all fun rule' =>
    !tables.coincides rule rule.body.length rule' rule'.body.length ||
      rule'.head == rule.head && rule'.body == rule.body
  reads : g.rules.all fun rule => rule.body.zipIdx.all fun (x, n) => x.terminal?.all fun t =>
    g.rules.all fun rule' => !reduces (g.rulePrecedence rule') (g.precedence t) ||
      n == 1 && (tables.operator? rule.body).isSome &&
        rule'.body.getLast? == some (.cat tables.operand) ||
      !tables.coincides rule n rule' rule'.body.length
  closes : g.rules.all fun rule => g.rules.all fun rule' => rule'.body.zipIdx.all fun (x, k) =>
    x.terminal?.all fun t => (tables.barred rule.head).contains t ||
      tables.contested rule.body t || !tables.coincides rule rule.body.length rule' k
  waits : g.rules.all fun rule => rule.body.zipIdx.all fun (_, n) => n == 0 ||
    g.rules.all fun rule' => rule'.body.getLast? != some (.cat tables.operand) ||
      g.rulePrecedence rule' == .unranked ||
      g.rulePrecedence rule' == pending (g.rulePrecedence rule) (rule.body.drop n) ||
      !tables.coincides rule n rule' (rule'.body.length - 1)

end Tables

/-- Trees of symbols that are left of a rule, before a terminal, in which precedence decides what is
disputed. Given are the precedence of a rule that waits for an operand where the trees begin, and
that of the rule itself. An operation takes its first operand only if no rule that waits for it is
preferred, and a contested rule ends only if it is preferred to the terminal after it. -/
inductive Canonical (g : Grammar α) (d : Disputes) :
    Precedence → Precedence → List Symbol → List ParseTree → Option Terminal → Prop
  | nil {below own : Precedence} {ahead : Option Terminal} : Canonical g d below own [] [] ahead
  | leaf {below own : Precedence} {xs : List Symbol} {ts : List ParseTree}
      {ahead : Option Terminal} (t : Token)
      (rest : Canonical g d (Tables.pending own xs) own xs ts ahead) :
      Canonical g d below own (.tok t.kind :: xs) (.leaf t :: ts) ahead
  | node {below own : Precedence} {r : Nat} {rule : Rule α} {xs : List Symbol}
      {cs ts : List ParseTree} {ahead : Option Terminal} (hrule : g.rules[r]? = some rule)
      (hleft : ∀ t ∈ d.operator? rule.body, reduces below (g.precedence t) = false)
      (hright : ∀ t ∈ firstKind ts ahead, d.contested rule.body t = true →
        reduces (g.rulePrecedence rule) (g.precedence t) = true)
      (children : Canonical g d below (g.rulePrecedence rule) rule.body cs (firstKind ts ahead))
      (rest : Canonical g d (Tables.pending own xs) own xs ts ahead) :
      Canonical g d below own (.cat rule.head :: xs) (.node r cs :: ts) ahead

theorem Canonical.leaf_of_kind {d : Disputes} {below own : Precedence} {ts : List ParseTree}
    {ahead : Option Terminal} {k : Terminal} (t : Token) (hkind : t.kind = k)
    (rest : Canonical g d (Tables.pending own xs) own xs ts ahead) :
    Canonical g d below own (.tok k :: xs) (.leaf t :: ts) ahead := hkind ▸ .leaf t rest

theorem Canonical.node_of_head {below own : Precedence} {rule : Rule α}
    (hrule : g.rules[r]? = some rule) (hhead : rule.head = c)
    (hleft : ∀ t ∈ d.operator? rule.body, reduces below (g.precedence t) = false)
    (hright : ∀ t ∈ firstKind ts ahead, d.contested rule.body t = true →
      reduces (g.rulePrecedence rule) (g.precedence t) = true)
    (children : Canonical g d below (g.rulePrecedence rule) rule.body cs (firstKind ts ahead))
    (rest : Canonical g d (Tables.pending own xs) own xs ts ahead) :
    Canonical g d below own (.cat c :: xs) (.node r cs :: ts) ahead :=
  hhead ▸ .node hrule hleft hright children rest

theorem Canonical.parses {d : Disputes} {below own : Precedence} {ts : List ParseTree}
    {ahead : Option Terminal} (h : Canonical g d below own xs ts ahead) : Parses g xs ts := by
  induction h with
  | nil => exact .nil
  | leaf t _ ih => exact .leaf t ih
  | node hrule _ _ _ _ ihchildren ihrest => exact .node hrule ihchildren ihrest

open Tables

variable {tables : Tables} {below own : Precedence} {ahead : Option Terminal}

/-- Every rule that waits in a state for an operand as its last part has the given precedence or
none. -/
def Waits (tables : Tables) (g : Grammar α) (p : Nat) (below : Precedence) : Prop :=
  ∀ r k rule, g.rules[r]? = some rule → Has g p r k → rule.body[k]? = some (.cat tables.operand) →
    k + 1 = rule.body.length → g.rulePrecedence rule = below ∨ g.rulePrecedence rule = .unranked

/-- A rule that begins in a state has been read up to some point, in another state. The given
terminal or end of the input can come after it. -/
structure Reading (tables : Tables) (g : Grammar α) (below : Precedence) (ahead : Option Terminal)
    (p r n q : Nat) (rule : Rule α) : Prop where
  number : g.rules[r]? = some rule
  trail : ∃ ys, Path g 0 ys p
  begins : Has g p r 0
  path : Path g p (rule.body.take n) q
  goto : ∃ p', Goto g p (.cat rule.head) p'
  follow : CanFollow g p rule.head (lookCode ahead)
  free : ∀ t ∈ ahead, t ∉ tables.barred rule.head
  waits : Waits tables g p below
  left : ∀ t ∈ tables.operator? rule.body, reduces below (g.precedence t) = false

namespace Reading

variable (hs : tables.Settles g)

section

variable (h : Reading tables g below ahead p r n q rule)

include h

theorem mem : rule ∈ g.rules :=
  List.mem_of_getElem? h.number

theorem item (hn : n ≤ rule.body.length) : Has g q r n := by
  have hbody : (bodyOf g r).drop 0 = rule.body.take n ++ rule.body.drop n := by
    rw [bodyOf_eq h.number, List.drop_zero, List.take_append_drop]
  have hitem := h.path.has h.begins hbody
  rwa [List.length_take_of_le hn, Nat.zero_add] at hitem

theorem exists_goto (hx : rule.body[n]? = some x) : ∃ q', Goto g q x q' :=
  Grammar.exists_goto (h.item (List.getElem?_eq_some_iff.mp hx).1.le)
    (by rw [bodyOf_eq h.number, hx])

theorem exists_path : ∃ ys, Path g 0 ys q := by
  obtain ⟨ys, hpath⟩ := h.trail
  exact ⟨_, path_append.mpr ⟨p, hpath, h.path⟩⟩

theorem next {q' : Nat} (hx : rule.body[n]? = some x) (hgoto : Goto g q x q') :
    Reading tables g below ahead p r (n + 1) q' rule := by
  refine { h with path := ?_ }
  rw [List.take_add_one, hx]
  exact path_concat.mpr ⟨q, h.path, hgoto⟩

include hs

theorem coincides (hrule' : g.rules[r']? = some rule') (hitem : Has g q r' k) :
    tables.coincides rule n rule' k = true := by
  obtain ⟨ys, hpath⟩ := h.trail
  exact hs.toCover.coincides h.number hrule' hpath h.begins h.path hitem

/-- A terminal is read although rules may have been read to their ends. -/
theorem kept (hx : rule.body[n]? = some (.tok t)) (r' : Nat) (rule' : Rule α)
    (hrule' : g.rules[r']? = some rule') (hdone : Has g q r' rule'.body.length) :
    reduces (g.rulePrecedence rule') (g.precedence t) = false := by
  have hall := List.all_eq_true.mp hs.reads rule h.mem
  have hmem : (Symbol.tok t, n) ∈ rule.body.zipIdx := List.mem_zipIdx_iff_getElem?.mpr hx
  have hcheck := List.all_eq_true.mp (List.all_eq_true.mp hall _ hmem) rule'
    (List.mem_of_getElem? hrule')
  simp only [h.coincides hs hrule' hdone, Bool.not_true, Bool.or_false, Bool.or_eq_true,
    Bool.not_eq_true', Bool.and_eq_true, beq_iff_eq] at hcheck
  rcases hcheck with hkept | ⟨⟨rfl, hoperator⟩, hlast⟩
  · exact hkept
  · obtain ⟨t', ht'⟩ := Option.isSome_iff_exists.mp hoperator
    obtain ⟨c, hbody, rfl⟩ : ∃ rest, rule.body = .cat tables.operand :: .tok t' :: rest ∧ t' = t := by
      unfold Disputes.operator? at ht'
      split at ht'
      · rename_i c t'' rest hbody
        split at ht'
        · cases ht'
          rename_i hc
          rw [hbody] at hx
          exact ⟨rest, by rw [hbody, hc], by simpa using hx⟩
        · cases ht'
      · cases ht'
    have hgoto : Goto g p (.cat tables.operand) q := by
      have hpath := h.path
      rw [hbody] at hpath
      obtain ⟨q', hgoto, rfl⟩ := hpath
      exact hgoto
    obtain ⟨init, hinit⟩ := List.getLast?_eq_some_iff.mp hlast
    rw [hinit, List.length_append, List.length_singleton] at hdone
    obtain ⟨hwaiting, hoperand⟩ := hgoto.has_succ.mp hdone
    rw [bodyOf_eq hrule'] at hoperand
    rcases h.waits r' init.length rule' hrule' hwaiting hoperand (by simp [hinit]) with heq | heq
    · rw [heq]
      exact h.left _ ht'
    · rw [heq]
      exact reduces_unranked _

end

include hs

/-- What waits for an operand after a part of a rule. -/
theorem waits_next (h : Reading tables g below ahead p r (n + 1) q rule)
    (hn : n + 1 < rule.body.length) :
    Waits tables g q (pending (g.rulePrecedence rule) (rule.body.drop (n + 1))) := by
  intro r' k rule' hrule' hitem hoperand hlast
  have hall := List.all_eq_true.mp hs.waits rule h.mem
  have hmem : (rule.body[n + 1], n + 1) ∈ rule.body.zipIdx :=
    List.mem_zipIdx_iff_getElem?.mpr (List.getElem?_eq_getElem hn)
  have hcheck := List.all_eq_true.mp hall _ hmem
  have hend : rule'.body.getLast? = some (.cat tables.operand) := by
    rw [List.getLast?_eq_getElem?, ← hlast, Nat.add_sub_cancel, hoperand]
  have hk : rule'.body.length - 1 = k := by omega
  simp only [Bool.or_eq_true, beq_iff_eq, Nat.add_one_ne_zero, false_or] at hcheck
  have hthis := List.all_eq_true.mp hcheck rule' (List.mem_of_getElem? hrule')
  rw [hk, h.coincides hs hrule' hitem, hend] at hthis
  simpa [or_comm] using hthis

section

variable (h : Reading tables g below ahead p r rule.body.length q rule)

include h

/-- The rule is the only one that has been read to its end. -/
theorem only (r' : Nat) (hdone : Has g q r' (bodyOf g r').length) : r' = r := by
  rcases rule_or_start g r' with ⟨rule', hrule'⟩ | hstart
  · rw [bodyOf_eq hrule'] at hdone
    have hall := List.all_eq_true.mp hs.ends rule h.mem
    have hcheck := List.all_eq_true.mp hall rule' (List.mem_of_getElem? hrule')
    rw [h.coincides hs hrule' hdone, Bool.not_true, Bool.false_or, Bool.and_eq_true, beq_iff_eq,
      beq_iff_eq] at hcheck
    exact index_unique hs.distinct hrule' h.number (fun hne => hne hcheck.1 hcheck.2)
      fun hne => hne hcheck.1.symm hcheck.2.symm
  · obtain ⟨ys, hpath⟩ := h.trail
    have hwhole : Path g 0 (ys ++ rule.body) q :=
      path_append.mpr ⟨p, hpath, by simpa using h.path⟩
    obtain ⟨before, p', hread, -, hbegins⟩ := hwhole.trace hdone
    rw [hstart] at hread
    rcases List.eq_nil_or_concat' rule.body with hnil | ⟨init, x, hbody⟩
    · have hleft := hs.left_of_begins hpath h.number h.begins
      rw [(hs.start rule h.mem).2 hnil, hs.left_start, List.mem_singleton] at hleft
      rcases List.eq_nil_or_concat' ys with rfl | ⟨init, x, rfl⟩
      · simp [hnil] at hread
      · simp [after] at hleft
    · rw [hbody, ← List.append_assoc] at hread
      have hx := (List.append_inj' hread rfl).2
      have hmem : x ∈ rule.body := by simp [hbody]
      exact absurd hmem (by rw [List.singleton_inj.mp hx]; exact (hs.start rule h.mem).1)

/-- A rule that has been read to its end before a terminal that could be read is contested. -/
theorem contested (ht : t ∈ ahead) (hgoto : Goto g q (.tok t) q') :
    tables.contested rule.body t = true := by
  obtain ⟨r', k, hitem, hnext⟩ := hgoto.exists_item
  rcases rule_or_start g r' with ⟨rule', hrule'⟩ | hstart
  · rw [bodyOf_eq hrule'] at hnext
    have hall := List.all_eq_true.mp (List.all_eq_true.mp hs.closes rule h.mem) rule'
      (List.mem_of_getElem? hrule')
    have hmem : (Symbol.tok t, k) ∈ rule'.body.zipIdx := List.mem_zipIdx_iff_getElem?.mpr hnext
    have hcheck := List.all_eq_true.mp hall _ hmem
    simp only [Symbol.terminal?, Option.all_some, h.coincides hs hrule' hitem, Bool.not_true,
      Bool.or_false, Bool.or_eq_true, List.contains_iff_mem] at hcheck
    exact hcheck.resolve_left (h.free t ht)
  · rw [hstart] at hnext
    cases k with
    | zero => cases hnext
    | succ k => simp at hnext

end

end Reading

/-- Trees of symbols, the first of which is not the whole input, begin with a token that can be read
where the symbols are expected. -/
theorem Parses.first (h : Parses g xs ts) (hcover : tables.Cover g) (hpath : Path g 0 ys p)
    (hitem : Has g p r k) (hnext : (bodyOf g r)[k]? = some x) (hx : xs.head? = some x)
    (hstart : x ≠ .cat g.start) : ∃ t rest, tokensAll ts = t :: rest ∧
      t.kind ∈ tables.firstOf x ∧ ∃ q, Goto g p (.tok t.kind) q := by
  induction h generalizing r k x with
  | nil => cases hx
  | leaf t _ _ =>
    cases hx
    exact ⟨t, _, rfl, List.mem_singleton.mpr rfl, exists_goto hitem hnext⟩
  | @node r' rule xs cs ts hrule _ _ ihchildren _ =>
    cases hx
    have hmem := List.mem_of_getElem? hrule
    obtain ⟨hbody, hempty⟩ := hcover.start rule hmem
    cases hfirst : rule.body.head? with
    | none => exact absurd (congrArg _ (hempty (List.head?_eq_none_iff.mp hfirst))) hstart
    | some z =>
      have hz : (bodyOf g r')[0]? = some z := by
        rw [bodyOf_eq hrule, ← List.head?_eq_getElem?, hfirst]
      have hne : z ≠ .cat g.start := fun heq => hbody (heq ▸ List.mem_of_head? hfirst)
      obtain ⟨t, rest, htokens, hkind, hgoto⟩ :=
        ihchildren (hpath.begins hitem hnext hrule rfl) hz hfirst hne
      refine ⟨t, rest ++ tokensAll ts, ?_, hcover.first rule hmem z hfirst _ hkind, hgoto⟩
      rw [tokensAll, tokens, htokens, List.cons_append]

/-- A tree takes no more steps than are allowed for its tokens. -/
theorem Parses.size_le (h : Parses g xs ts) (hcover : tables.Cover g) (hxs : .cat g.start ∉ xs) :
    sizeAll ts + (xs.map tables.slackOf).sum ≤ 128 * (tokensAll ts).length := by
  induction h with
  | nil => exact Nat.zero_le _
  | leaf t _ ih =>
    have hrest := ih fun hmem => hxs (List.mem_cons_of_mem _ hmem)
    simp only [sizeAll, size, tokensAll, tokens, List.map_cons, List.sum_cons, List.length_append,
      List.length_singleton, slackOf]
    omega
  | @node r rule xs cs ts hrule _ _ ihchildren ihrest =>
    have hmem := List.mem_of_getElem? hrule
    have hinner := ihchildren (hcover.start rule hmem).1
    have hrest := ihrest fun hmem => hxs (List.mem_cons_of_mem _ hmem)
    have hslack := (hcover.slack rule hmem).resolve_left fun heq =>
      hxs (heq ▸ List.mem_cons_self)
    simp only [sizeAll, size, tokensAll, tokens, List.map_cons, List.sum_cons, List.length_append,
      slackOf]
    omega

section

variable (hs : tables.Settles g)

include hs

namespace Reading

section

variable (h : Reading tables g below ahead p r n q rule)
  (hrest : Parses g (rule.body.drop (n + 1)) ts)

include h hrest

/-- What comes after a category in a rule is not barred there and can follow it. -/
theorem after (hx : rule.body[n]? = some (.cat c)) :
    CanFollow g q c (lookCode (firstKind ts ahead)) ∧
      ∀ t ∈ firstKind ts ahead, t ∉ tables.barred c := by
  have hn := (List.getElem?_eq_some_iff.mp hx).1
  obtain ⟨q', hgoto⟩ := h.exists_goto hx
  have hnext := h.next hx hgoto
  cases hdrop : rule.body.drop (n + 1) with
  | nil =>
    rw [hdrop] at hrest
    cases hrest
    have hbody : rule.body = rule.body.take n ++ [.cat c] := by
      have hsplit := List.take_append_drop (n + 1) rule.body
      rw [hdrop, List.append_nil, List.take_add_one, hx] at hsplit
      exact hsplit.symm
    obtain ⟨p', hhead⟩ := h.goto
    refine ⟨h.follow.last h.number hhead hbody h.path hgoto, ?_⟩
    intro t ht hbarred
    have hlast : rule.body.getLast? = some (.cat c) := by rw [hbody, List.getLast?_concat]
    exact h.free t ht (hs.barred_last rule h.mem _ hlast t hbarred)
  | cons y rest =>
    have hy : rule.body[n + 1]? = some y := by
      rw [← List.head?_drop, hdrop]
      rfl
    have hne : y ≠ .cat g.start := fun heq =>
      (hs.start rule h.mem).1 (heq ▸ List.mem_of_getElem? hy)
    obtain ⟨zs, hpath⟩ := hnext.exists_path
    obtain ⟨t, later, htokens, hkind, q'', hread⟩ := hrest.first hs.toCover hpath (hnext.item hn)
      (by rw [bodyOf_eq h.number, hy]) (by rw [hdrop]; rfl) hne
    have hfirst : firstKind ts ahead = some t.kind := by
      rw [firstKind, htokens]
      rfl
    rw [hfirst]
    refine ⟨hgoto.canFollow hread, ?_⟩
    intro t' ht' hbarred
    cases ht'
    exact hs.barred_next rule h.mem n hn _ hx y hy _ hbarred hkind

/-- A rule of a category that is expected begins. -/
theorem enter (hx : rule.body[n]? = some (.cat rule'.head)) (hrule' : g.rules[r']? = some rule')
    (hwaits : Waits tables g q below')
    (hleft : ∀ t ∈ tables.operator? rule'.body, reduces below' (g.precedence t) = false) :
    Reading tables g below' (firstKind ts ahead) q r' 0 q rule' := by
  have hitem := h.item (List.getElem?_eq_some_iff.mp hx).1.le
  have hnext : (bodyOf g r)[n]? = some (.cat rule'.head) := by rw [bodyOf_eq h.number, hx]
  obtain ⟨ys, hpath⟩ := h.exists_path
  obtain ⟨hfollow, hfree⟩ := h.after hs hrest hx
  exact ⟨hrule', ⟨ys, hpath⟩, hpath.begins hitem hnext hrule' rfl, rfl, h.exists_goto hx,
    hfollow, hfree, hwaits, hleft⟩

end

end Reading

/-- The automaton decides for a node whose rule begins, if it does so for the children. -/
theorem Reading.chosen (h : Reading tables g below (firstKind ts ahead) q r 0 q rule)
    (hright : ∀ t ∈ firstKind ts ahead, tables.contested rule.body t = true →
      reduces (g.rulePrecedence rule) (g.precedence t) = true)
    (hchildren : Chosen g q rule.body cs (firstKind ts ahead))
    (hrest : ∀ q', Goto g q (.cat rule.head) q' → Chosen g q' xs ts ahead) :
    Chosen g q (.cat rule.head :: xs) (.node r cs :: ts) ahead := by
  have hbody : (bodyOf g r).drop 0 = rule.body := by rw [bodyOf_eq h.number, List.drop_zero]
  obtain ⟨q', hpath⟩ := h.begins.exists_path hbody
  have hend : Reading tables g below (firstKind ts ahead) q r rule.body.length q' rule :=
    { h with path := by rwa [List.take_length] }
  obtain ⟨p', hgoto⟩ := h.goto
  exact .node h.number h.begins hpath (hend.only hs)
    (fun t ht q'' hread => hright t ht (hend.contested hs ht hread)) h.follow hgoto hchildren
    (hrest p' hgoto)

/-- The automaton decides for canonical trees. -/
theorem Canonical.chosen (h : Canonical g tables.toDisputes below own xs ts ahead)
    {below₀ : Precedence}
    (hreading : Reading tables g below₀ ahead p r n q rule) (hxs : rule.body.drop n = xs)
    (hown : own = g.rulePrecedence rule) (hwaits : xs ≠ [] → Waits tables g q below) :
    Chosen g q xs ts ahead := by
  induction h generalizing below₀ p r n q rule with
  | nil => exact .nil
  | @leaf below own xs ts ahead t _ ih =>
    subst hown
    obtain ⟨hx, hdrop⟩ := cons_of_drop hxs
    obtain ⟨q', hgoto⟩ := hreading.exists_goto hx
    have hnext := hreading.next hx hgoto
    exact .leaf t hgoto (hreading.kept hs hx)
      (ih hnext hdrop rfl fun hne => hdrop ▸ hnext.waits_next hs (lt_of_drop hdrop hne))
  | @node below own r' rule' xs cs ts ahead hrule' hleft hright hchildren hrest ihchildren ihrest =>
    subst hown
    obtain ⟨hx, hdrop⟩ := cons_of_drop hxs
    have hbegins := hreading.enter hs (hdrop ▸ hrest.parses) hx hrule' (hwaits (by simp)) hleft
    refine hbegins.chosen hs hright
      (ihchildren hbegins (List.drop_zero) rfl fun _ => hbegins.waits) fun q' hgoto => ?_
    have hnext := hreading.next hx hgoto
    exact ihrest hnext hdrop rfl fun hne => hdrop ▸ hnext.waits_next hs (lt_of_drop hdrop hne)

theorem Canonical.chosen_start
    (h : Canonical g tables.toDisputes .unranked .unranked [.cat g.start] [T] none) :
    Chosen g 0 [.cat g.start] [T] none := by
  generalize hc : g.start = c at h
  cases h with
  | @node _ _ r rule _ cs _ _ hrule hleft hright hchildren hrest =>
    cases hrest
    have hbegins : Has g 0 r 0 := has_start.mpr ⟨rfl, .inr ⟨rule, hrule, hc ▸ .refl⟩⟩
    have hwhole : (bodyOf g g.rules.length)[0]? = some (.cat rule.head) := by
      rw [bodyOf, List.getElem?_eq_none (Nat.le_refl _), ← hc]
      rfl
    obtain ⟨q, hgoto⟩ := exists_goto (has_start.mpr ⟨rfl, .inl rfl⟩) hwhole
    have hwaits : Waits tables g 0 .unranked := by
      intro r' k rule' hrule' hitem hoperand hlast
      obtain ⟨rfl, -⟩ := has_start.mp hitem
      obtain ⟨y, hy⟩ := List.length_eq_one_iff.mp hlast.symm
      rw [hy] at hoperand
      refine .inl (hs.unit rule' (List.mem_of_getElem? hrule') ?_)
      rw [hy, Option.some.inj hoperand]
    have hfollow : CanFollow g 0 rule.head (lookCode none) :=
      hc ▸ Goto.canFollow_end (hc ▸ hgoto)
    have hreading : Reading tables g .unranked none 0 r 0 0 rule :=
      ⟨hrule, ⟨[], rfl⟩, hbegins, rfl, ⟨q, hgoto⟩, hfollow, by simp, hwaits, hleft⟩
    exact hreading.chosen hs hright (hchildren.chosen hs hreading List.drop_zero rfl fun _ => hwaits)
      fun _ _ => .nil

/-- The tokens of a canonical tree of the whole input are parsed, with the value of the tree. -/
theorem Canonical.parse {scan : Scan}
    (h : Canonical g tables.toDisputes .unranked .unranked [.cat g.start] [T] none)
    (hscan : scan.error = none) (htokens : scan.tokens = T.tokens) (line : Nat) :
    ∃ line', (Machine.ofGrammar g ofToken).parse line scan =
      ended (T.value g ofToken) scan.line line' := by
  have hchosen := h.chosen_start hs
  have hleads : Leads (.ofGrammar g ofToken) scan ⟨[], tokensAll [T] ++ [], line⟩ (sizeAll [T])
      ((valueAll g ofToken [T]).map fun vs => (frames g 0 [.cat g.start] vs).reverse ++ []) [] :=
    hchosen.leads hscan rfl rfl line
  obtain ⟨q, hgoto⟩ : ∃ q, Goto g 0 (.cat g.start) q := by
    generalize g.start = c at hchosen
    cases hchosen with
    | node _ _ _ _ _ _ hgoto => exact ⟨_, hgoto⟩
  have houtcome : ((valueAll g ofToken [T]).map fun vs =>
      (frames g 0 [.cat g.start] vs).reverse ++ []) =
      (T.value g ofToken).map fun v => [⟨q, .cat g.start, v⟩] := by
    rw [valueAll]
    cases T.value g ofToken with
    | error f => rfl
    | ok v =>
      show Except.ok ((frames g 0 [.cat g.start] [v]).reverse ++ []) = _
      rw [frames_cons hgoto]
      rfl
  rw [houtcome, List.append_nil, tokensAll, tokensAll, List.append_nil, ← htokens] at hleads
  refine hleads.parse hscan hgoto ?_
  have hparses := h.parses
  generalize g.start = c at hparses
  cases hparses with
  | node hrule hchildren _ =>
    have hle := hchildren.size_le hs.toCover (hs.start _ (List.mem_of_getElem? hrule)).1
    rw [htokens, Machine.stepsFor, tokens]
    simp only [sizeAll, size]
    omega

end

end BlockScript.Grammar
