import BlockScript.Proofs.Assignments
import BlockScript.Proofs.Lookup
import BlockScript.Proofs.SpacedWords

/-!
Printing expressions and reading them back. An expression over names is printed with parentheses
only where the order of its operators asks for them, and a script that assigns it to a variable is
parsed to the same expression again, for operators of all kinds at any depth.
-/
namespace BlockScript.Grammar

open Scan

namespace Operator

/-- How tightly an operator binds; the higher levels bind tighter. -/
def level : Operator → Nat
  | concat => 0
  | or => 1
  | and => 2
  | isIn => 4
  | equalTo | notEqualTo => 5
  | lessThan | greaterThan | lessThanEqual | greaterThanEqual => 6
  | plus | minus => 7
  | times | dividedBy | modulo => 8
  | exponent => 9

/-- The side to which operators of the same level group. -/
def side : Operator → Side
  | concat => .right
  | _ => .left

def spelling : Operator → String
  | concat => ".."
  | plus => "+"
  | minus => "-"
  | times => "*"
  | dividedBy => "/"
  | modulo => "%"
  | exponent => "**"
  | lessThan => "<"
  | greaterThan => ">"
  | lessThanEqual => "<="
  | greaterThanEqual => ">="
  | equalTo => "=="
  | notEqualTo => "!="
  | and => "and"
  | or => "or"
  | isIn => "in"

def expr (p : Position) (a b : Expr) : Operator → Expr
  | concat => .concat p [a, b]
  | plus => .arith p .add [a, b]
  | minus => .arith p .sub [a, b]
  | times => .arith p .mul [a, b]
  | dividedBy => .arith p .div [a, b]
  | modulo => .arith p .mod [a, b]
  | exponent => .arith p .pow [a, b]
  | lessThan => .compare p .lt [a, b]
  | greaterThan => .compare p .gt [a, b]
  | lessThanEqual => .compare p .le [a, b]
  | greaterThanEqual => .compare p .ge [a, b]
  | equalTo => .compare p .eq [a, b]
  | notEqualTo => .compare p .ne [a, b]
  | and => .logic p .and [a, b]
  | or => .logic p .or [a, b]
  | isIn => .logic p .isIn [a, b]

def word (op : Operator) : Word := ⟨op.terminal, op.spelling⟩

end Operator

namespace Sign

/-- A negation binds tighter than any operator, and a logical one looser than membership. -/
def level : Sign → Nat
  | not => 3
  | minus => 10

def spelling : Sign → String
  | minus => "-"
  | not => "not"

def expr (p : Position) (a : Expr) : Sign → Expr
  | minus => .arith p .neg [a]
  | not => .logic p .not [a]

def word (s : Sign) : Word := ⟨s.terminal, s.spelling⟩

end Sign

/-- A name that is not reserved in scripts. -/
structure Name where
  text : String
  isWord : IsWord text
  free : text ∉ Terminal.scriptKeywords.map (·.1)

inductive Tree
  | name (n : Name)
  | sign (s : Sign) (operand : Tree)
  | operation (left : Tree) (op : Operator) (right : Tree)

namespace Tree

/-- The level of the outermost operator; a name stands above all levels. -/
def level : Tree → Nat
  | name _ => 11
  | sign s _ => s.level
  | operation _ op _ => op.level

/-- Words in parentheses if they have to be. -/
def enclose (needed : Bool) (ws : List Word) : List Word :=
  if needed then ⟨.lparen, "("⟩ :: (ws ++ [⟨.rparen, ")"⟩]) else ws

/-- The words of an expression. An operand is put in parentheses if its operator is of a lower
level, or of the same level on the side to which the level does not group. -/
def words : Tree → List Word
  | name n => [⟨.word, n.text⟩]
  | sign s operand => s.word :: enclose (operand.level < s.level) operand.words
  | operation left op right =>
    enclose (left.level < op.level || left.level == op.level && op.side == .right) left.words ++
      op.word :: enclose (right.level < op.level || right.level == op.level && op.side == .left)
        right.words

/-- The text of an expression, its words divided by blanks. -/
def text (t : Tree) : String := spaced t.words

/-- A tree with positions has the shape of an expression. -/
inductive Reads : Tree → Expr → Prop
  | name (n : Name) (p : Position) : Reads (.name n) (.name p n.text)
  | sign (s : Sign) (p : Position) {a : Tree} {e : Expr} (operand : Reads a e) :
      Reads (.sign s a) (s.expr p e)
  | operation (op : Operator) (p : Position) {a b : Tree} {e f : Expr} (left : Reads a e)
      (right : Reads b f) : Reads (.operation a op b) (op.expr p e f)

end Tree

theorem operator_rank (op : Operator) :
    (Ranks.of scripts Scripts.minusRank).operator op = ⟨op.level, op.side⟩ := by
  cases op <;> decide

theorem sign_rank (s : Sign) : (Ranks.of scripts Scripts.minusRank).sign s = ⟨s.level, .right⟩ := by
  cases s <;> decide

theorem reduces_eq_false (h : below.level < l ∨ below.level = l ∧ below.side = .right) :
    Automaton.reduces below ⟨l, s⟩ = false := by
  rcases h with hlt | ⟨rfl, hside⟩
  · simp [Automaton.reduces, Nat.lt_asymm hlt, Nat.ne_of_gt hlt]
  · simp [Automaton.reduces, hside]

theorem reduces_eq_true (h : l' < l ∨ l' = l ∧ s = .left) :
    Automaton.reduces ⟨l, s⟩ ⟨l', s'⟩ = true := by
  rcases h with hlt | ⟨rfl, rfl⟩
  · simp [Automaton.reduces, hlt]
  · simp [Automaton.reduces]

theorem Operator.action_eq (op : Operator) (h : a.position = .ok (.start i)) :
    op.action [.expr a, .ofToken u, .expr b] = .ok (.expr (op.expr (.start i) a b)) := by
  cases op <;> simp [action, concatenation, arithmetic, comparison, logic, startOf, h,
    Fragment.ofToken, expr]

theorem Operator.position_expr (op : Operator) (a b : Expr) (i : Int) :
    (op.expr (.start i) a b).position = .ok (.start i) := by
  cases op <;> rfl

theorem Sign.action_eq (s : Sign) (a : Expr) (u : Token) :
    ∃ i, s.action [.ofToken u, .expr a] = .ok (.expr (s.expr (.start i) a)) ∧
      (s.expr (.start i) a).position = .ok (.start i) := by
  cases s with
  | minus => exact ⟨0, rfl, rfl⟩
  | not => exact ⟨u.position, rfl, rfl⟩

/-- Tokens are the words of a text, wherever they stand. -/
def Spell (ts : List Token) (ws : List Word) : Prop :=
  ts.map isOf = ws.map fun w => (w.kind, Literal.text w.text)

theorem spell_append (h : Spell ts (ws ++ ws')) :
    ∃ ts₁ ts₂, ts = ts₁ ++ ts₂ ∧ Spell ts₁ ws ∧ Spell ts₂ ws' := by
  rw [Spell, List.map_append] at h
  exact List.map_eq_append_iff.mp h

theorem spell_cons (h : Spell ts (w :: ws)) :
    ∃ t ts', ts = t :: ts' ∧ t.kind = w.kind ∧ t.value = .text w.text ∧ Spell ts' ws := by
  obtain ⟨t, ts', rfl, hisOf, hrest⟩ := List.map_eq_cons_iff.mp h
  obtain ⟨hkind, hvalue⟩ := Prod.mk.inj hisOf
  exact ⟨t, ts', rfl, hkind, hvalue, hrest⟩

theorem spell_nil (h : Spell ts []) : ts = [] := List.map_eq_nil_iff.mp h

namespace Tree

/-- The side to which the outermost operator groups. -/
def side : Tree → Side
  | name _ => .left
  | sign _ _ => .right
  | operation _ op _ => op.side

/-- An expression stays together after a rule of the given precedence. -/
def Held (t : Tree) (below : Precedence) : Prop :=
  below.level < t.level ∨ below.level = t.level ∧ below.side = .right

/-- An expression stays together before the given operator. -/
def Kept (t : Tree) (next : Option Operator) : Prop :=
  ∀ op ∈ next, op.level < t.level ∨ op.level = t.level ∧ t.side = .left

theorem held_unranked (t : Tree) : t.Held .unranked := by
  rcases Nat.eq_zero_or_pos t.level with hzero | hpos
  · exact .inr ⟨hzero.symm, rfl⟩
  · exact .inl hpos

/-- A phrase stands for an expression. -/
def Stands (t : Tree) (φ : Phrase) : Prop :=
  ∃ e i, φ.value = .ok (.expr e) ∧ t.Reads e ∧ e.position = .ok (.start i)

/-- Words are read as an expression: tokens that spell them are a phrase that stands for it, and
that is grouped as it stands under the given condition on what is around it. -/
def Prints (t : Tree) (ws : List Word) (around : Precedence → Option Operator → Prop) : Prop :=
  ∀ ts, Spell ts ws → ∃ φ : Phrase, φ.tokens = ts ∧ t.Stands φ ∧
    ∀ below next, around below next → φ.fits (.of scripts Scripts.minusRank) below next = true

/-- An expression is read from its own words, grouped as it stands where it stays together. -/
abbrev PrintsOwn (t : Tree) : Prop := t.Prints t.words fun below next => t.Held below ∧ t.Kept next

theorem prints_name (n : Name) : (name n).PrintsOwn := by
  intro ts hts
  obtain ⟨u, ts', rfl, hkind, hvalue, hrest⟩ := spell_cons hts
  obtain rfl := spell_nil hrest
  refine ⟨.leaf .name u hkind, rfl, ⟨.name (.start u.position) n.text, u.position, ?_, .name n _, rfl⟩,
    fun _ _ _ => rfl⟩
  show Setups.place [.token u.value u.position] = _
  rw [hvalue]
  rfl

/-- An operand in parentheses is grouped as it stands whatever is around it. -/
theorem PrintsOwn.enclose {t : Tree} (h : t.PrintsOwn) (needed : Bool) :
    t.Prints (enclose needed t.words) fun below next =>
      needed = false → t.Held below ∧ t.Kept next := by
  intro ts hts
  cases needed with
  | false =>
    obtain ⟨φ, htokens, hstands, hfits⟩ := h ts hts
    exact ⟨φ, htokens, hstands, fun below next haround => hfits below next (haround rfl)⟩
  | true =>
    obtain ⟨opening, ts₁, rfl, hopening, -, hts₁⟩ := spell_cons hts
    obtain ⟨inner, ts₂, rfl, hinner, hts₂⟩ := spell_append hts₁
    obtain ⟨closing, ts₃, rfl, hclosing, -, hts₃⟩ := spell_cons hts₂
    obtain rfl := spell_nil hts₃
    obtain ⟨φ, rfl, hstands, hfits⟩ := h inner hinner
    refine ⟨.paren opening φ closing hopening hclosing, rfl, hstands, ?_⟩
    intro below next _
    exact hfits .unranked none ⟨t.held_unranked, by simp [Kept]⟩

theorem prints_sign (s : Sign) {a : Tree} (h : a.PrintsOwn) : (sign s a).PrintsOwn := by
  intro ts hts
  obtain ⟨u, ts', rfl, hword, -, hrest⟩ := spell_cons hts
  have hkind : u.kind = s.terminal := hword
  obtain ⟨φ, rfl, ⟨e, i, hvalue, hreads, -⟩, hfits⟩ := h.enclose _ ts' hrest
  obtain ⟨j, haction, hposition⟩ := s.action_eq e u
  refine ⟨.unary s u hkind φ, rfl, ⟨s.expr (.start j) e, j, ?_, .sign s _ hreads, hposition⟩, ?_⟩
  · rw [Phrase.value, hvalue]
    exact haction
  · rintro below next ⟨-, hkept⟩
    have hlower : ∀ op ∈ next, op.level < s.level := by
      intro op hop
      rcases hkept op hop with hlt | ⟨-, hside⟩
      · exact hlt
      · cases hside
    rw [Phrase.fits, Bool.and_eq_true, Option.all_eq_true]
    constructor
    · intro op hop
      rw [sign_rank, operator_rank]
      simp [Automaton.reduces, hlower op hop]
    · refine hfits _ _ fun hneeded => ?_
      have hle : s.level ≤ a.level := by simpa using hneeded
      rw [sign_rank]
      refine ⟨?_, fun op hop => .inl (Nat.lt_of_lt_of_le (hlower op hop) hle)⟩
      rcases Nat.lt_or_eq_of_le hle with hlt | heq
      · exact .inl hlt
      · exact .inr ⟨heq, rfl⟩

/-- Operators of the same level group to the same side. -/
theorem side_eq {a : Tree} {op : Operator} (h : a.level = op.level) : a.side = op.side := by
  cases a with
  | name n => cases op <;> cases h
  | sign s a => cases s <;> cases op <;> cases h
  | operation a op' b => cases op' <;> cases op <;> first | rfl | cases h

/-- An operand without parentheses binds at least as tightly as its operator, and tighter on the
side to which the operator does not group. -/
theorem of_not_needed {l l' : Nat} {s s' : Side}
    (h : (decide (l < l') || l == l' && s == s') = false) : l' < l ∨ l' = l ∧ s ≠ s' := by
  simp only [Bool.or_eq_false_iff, decide_eq_false_iff_not, Bool.and_eq_false_iff, beq_eq_false_iff_ne]
    at h
  rcases Nat.lt_or_eq_of_le (Nat.not_lt.mp h.1) with hlt | heq
  · exact .inl hlt
  · exact .inr ⟨heq, h.2.resolve_left fun hne => hne heq.symm⟩

theorem prints_operation (op : Operator) {a b : Tree} (ha : a.PrintsOwn) (hb : b.PrintsOwn) :
    (operation a op b).PrintsOwn := by
  intro ts hts
  obtain ⟨ts₁, ts', rfl, hts₁, hts'⟩ := spell_append hts
  obtain ⟨u, ts₂, rfl, hword, -, hts₂⟩ := spell_cons hts'
  have hkind : u.kind = op.terminal := hword
  obtain ⟨φ, rfl, ⟨e, i, hvalue, hreads, hposition⟩, hfits⟩ := ha.enclose _ ts₁ hts₁
  obtain ⟨ψ, rfl, ⟨f, -, hvalue', hreads', -⟩, hfits'⟩ := hb.enclose _ ts₂ hts₂
  refine ⟨.binary φ op u hkind ψ, rfl, ⟨op.expr (.start i) e f, i, ?_,
    .operation op _ hreads hreads', op.position_expr e f i⟩, ?_⟩
  · rw [Phrase.value, hvalue, hvalue']
    exact op.action_eq hposition
  · rintro below next ⟨hheld, hkept⟩
    have hheld : below.level < op.level ∨ below.level = op.level ∧ below.side = .right := hheld
    have hkept : ∀ op' ∈ next, op'.level < op.level ∨ op'.level = op.level ∧ op.side = .left := hkept
    simp only [Phrase.fits, operator_rank, Bool.and_eq_true, Bool.not_eq_true', Option.all_eq_true]
    refine ⟨⟨⟨reduces_eq_false hheld, fun op' hop' => reduces_eq_true (hkept op' hop')⟩, ?_⟩, ?_⟩
    · refine hfits _ _ fun hneeded => ?_
      have hleft := of_not_needed hneeded
      refine ⟨?_, ?_⟩
      · rcases hheld with hlt | ⟨heq, hside⟩
        · exact .inl (by omega)
        · rcases hleft with hlt | ⟨heq', -⟩
          · exact .inl (by omega)
          · exact .inr ⟨by omega, hside⟩
      · intro op' hop'
        obtain rfl : op = op' := Option.some.inj hop'
        rcases hleft with hlt | ⟨heq, hside⟩
        · exact .inl hlt
        · exact .inr ⟨heq, (side_eq heq.symm).trans (by cases h : op.side <;> simp_all)⟩
    · refine hfits' _ _ fun hneeded => ?_
      have hright := of_not_needed hneeded
      refine ⟨hright.imp id fun h => ⟨h.1, by cases hside : op.side <;> simp_all⟩, ?_⟩
      intro op' hop'
      rcases hkept op' hop' with hlt | ⟨heq, hside⟩
      · exact .inl (by omega)
      · rcases hright with hlt | ⟨-, hne⟩
        · exact .inl (by omega)
        · exact absurd hside hne

/-- The words of an expression are a phrase that stands for it. -/
theorem prints (t : Tree) : t.PrintsOwn := by
  induction t with
  | name n => exact prints_name n
  | sign s a ih => exact prints_sign s ih
  | operation a op b iha ihb => exact prints_operation op iha ihb

end Tree

theorem operator_scans (op : Operator) : op.word.Scans .script := by
  have hand : IsWord "and" := ⟨'a', ['n', 'd'], rfl, rfl, List.all_eq_true.mp rfl⟩
  have hor : IsWord "or" := ⟨'o', ['r'], rfl, rfl, List.all_eq_true.mp rfl⟩
  have hin : IsWord "in" := ⟨'i', ['n'], rfl, rfl, List.all_eq_true.mp rfl⟩
  cases op with
  | and => exact hand.scans _
  | or => exact hor.scans _
  | isIn => exact hin.scans _
  | _ =>
    refine ⟨_, _, rfl, ?_⟩
    rintro position rest ⟨r, rfl | rfl⟩ <;> rfl

/-- A mark is a word by itself. -/
theorem mark_scans (h : w ∈ [Word.mk .lparen "(", ⟨.rparen, ")"⟩, ⟨.equals, "="⟩, ⟨.minus, "-"⟩])
    : w.Scans .script := by
  simp only [List.mem_cons, List.not_mem_nil, or_false] at h
  rcases h with rfl | rfl | rfl | rfl
  all_goals
    refine ⟨_, _, rfl, ?_⟩
    rintro position rest ⟨r, rfl | rfl⟩ <;> rfl

theorem sign_scans (s : Sign) : s.word.Scans .script := by
  have hnot : IsWord "not" := ⟨'n', ['o', 't'], rfl, rfl, List.all_eq_true.mp rfl⟩
  cases s with
  | minus => exact mark_scans (by decide)
  | not => exact hnot.scans _

theorem Name.scans (n : Name) : (Word.mk .word n.text).Scans .script :=
  ofWord_of_free (d := .script) n.free ▸ n.isWord.scans .script

theorem Tree.words_scan (t : Tree) : ∀ w ∈ t.words, w.Scans .script := by
  have henclose : ∀ (needed : Bool) {ws : List Word}, (∀ w ∈ ws, w.Scans .script) →
      ∀ w ∈ enclose needed ws, w.Scans .script := by
    intro needed ws hws w hw
    cases needed with
    | false => exact hws w hw
    | true =>
      rcases List.mem_cons.mp hw with rfl | hw
      · exact mark_scans (by decide)
      · rcases List.mem_append.mp hw with hw | hw
        · exact hws w hw
        · rw [List.mem_singleton.mp hw]
          exact mark_scans (by decide)
  induction t with
  | name n => exact List.forall_mem_singleton.mpr n.scans
  | sign s a ih => exact List.forall_mem_cons.mpr ⟨sign_scans s, henclose _ ih⟩
  | operation a op b iha ihb =>
    refine List.forall_mem_append.mpr ⟨henclose _ iha, ?_⟩
    exact List.forall_mem_cons.mpr ⟨operator_scans op, henclose _ ihb⟩

theorem Tree.words_ne_nil (t : Tree) : t.words ≠ [] := by
  cases t <;> simp [words]

def assignment (target : Name) (t : Tree) : String := target.text ++ " = " ++ t.text ++ ";"

theorem toList_assignment (target : Name) (t : Tree) : (assignment target t).toList =
    (spaced (⟨.word, target.text⟩ :: ⟨.equals, "="⟩ :: t.words)).toList ++ [';'] := by
  obtain ⟨w, ws, hws⟩ := List.exists_cons_of_ne_nil t.words_ne_nil
  simp [assignment, Tree.text, spaced, hws, String.toList_intercalate]

theorem Scripts.assigned_eq (hvalue : target.value = .text n) :
    assigned target equals semicolon (.ok (.expr e)) =
      .ok (.script ⟨[], [.assign (.start target.position) (.name (.start target.position) n) e]⟩) := by
  have hplace : Scripts.place [.ofToken target] =
      .ok (.expr (.name (.start target.position) n)) := by
    rw [Fragment.ofToken, hvalue]
    rfl
  rw [assigned, hplace]
  rfl

theorem content_register (s : Session) (file source : String) :
    (s.register file source).content = .ok source := by
  simp [Session.content, Session.register, Assoc.get?_put_self]

/-- A script whose parse ends with a script is parsed to it. -/
theorem parseScript_of_accepted {s : Session} {source : String} {p : Script} {line : Nat}
    (hcontent : s.content = .ok source)
    (h : scriptMachine.parse (s.line .script) (scan .script (s.line .script) source) =
      (.accepted (.script p), line)) : s.parseScript.1 = .ok p := by
  simp only [Session.parseScript, Session.parseFragment, hcontent, Session.machine, h,
    Session.conclude]

/-- A script that assigns an expression to a variable, printed with parentheses only where they
are needed, is parsed to that assignment. -/
theorem parseScript_assignment (s : Session) (file : String) (target : Name) (t : Tree) :
    ∃ e, (s.register file (assignment target t)).parseScript.1 =
      .ok ⟨[], [.assign (.start 0) (.name (.start 0) target.text) e]⟩ ∧ t.Reads e := by
  have hwords : ∀ w ∈ Word.mk .word target.text :: ⟨.equals, "="⟩ :: t.words, w.Scans .script :=
    List.forall_mem_cons.mpr ⟨target.scans,
      List.forall_mem_cons.mpr ⟨mark_scans (by decide), t.words_scan⟩⟩
  obtain ⟨ts, semicolon, hscan, hspell, hsemicolon, hposition⟩ :=
    scanFrom_spaced hwords (by simp) (s.line .script) 0
  rw [← toList_assignment] at hscan
  obtain ⟨u, ts₁, rfl, htarget, hvalue, hts₁⟩ := spell_cons hspell
  obtain ⟨equals, ts₂, rfl, hequals, -, hts₂⟩ := spell_cons hts₁
  obtain ⟨φ, rfl, ⟨e, i, hphrase, hreads, -⟩, hfits⟩ := t.prints ts₂ hts₂
  have hgrouped := hfits .unranked none ⟨t.held_unranked, by simp [Tree.Kept]⟩
  obtain ⟨line', hparse⟩ := Scripts.parse_assigned (s.line .script) (congrArg Scan.error hscan)
    htarget hequals hsemicolon hgrouped (congrArg Scan.tokens hscan)
  have hstart : u.position = 0 := hposition u rfl
  rw [hphrase, Scripts.assigned_eq hvalue, hstart] at hparse
  exact ⟨e, parseScript_of_accepted (content_register s file _) hparse, hreads⟩

/-- Parentheses stand only around the looser operand. -/
example (a b c : Name) : (Tree.operation (.sign .minus (.name a)) .times
    (.operation (.name b) .minus (.operation (.name c) .exponent (.name a)))).words.map (·.text) =
    ["-", a.text, "*", "(", b.text, "-", c.text, "**", a.text, ")"] := rfl

end BlockScript.Grammar
