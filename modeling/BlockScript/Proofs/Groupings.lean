import BlockScript.Proofs.ParsedScripts
import BlockScript.Proofs.Printing

/-!
Groupings of the same tokens. Whatever the precedence of operators is, the tokens of a phrase can be
grouped as it asks for. Two tables group alike if they agree on all rivals, an operator and the one
before it that compete for the operand between them. And different groupings never have the same
tree.
-/
namespace BlockScript

namespace Expr

mutual

/-- The expression with its positions changed. -/
@[simp] def place (f : Position → Position) : Expr → Expr
  | value v => value v
  | truth b => truth b
  | list items => list (placeAll f items)
  | name pos n => name (f pos) n
  | attr pos object n => attr (f pos) (place f object) n
  | index pos target i => index (f pos) (place f target) (place f i)
  | call pos function arguments => call (f pos) (place f function) (placeAll f arguments)
  | concat pos operands => concat (f pos) (placeAll f operands)
  | arith pos op operands => arith (f pos) op (placeAll f operands)
  | compare pos op operands => compare (f pos) op (placeAll f operands)
  | logic pos op operands => logic (f pos) op (placeAll f operands)
  | unknown pos family operands => unknown (f pos) family (placeAll f operands)
  | malformed pos fault => malformed (f pos) fault

@[simp] def placeAll (f : Position → Position) : List Expr → List Expr
  | [] => []
  | e :: rest => place f e :: placeAll f rest

end

end Expr

namespace Grammar

open Automaton

/-- What may wait for an operand on its right. -/
inductive Waiting
  | sign (s : Sign)
  | operator (op : Operator)
  deriving DecidableEq, Repr

namespace Ranks

def rank (ranks : Ranks) : Waiting → Precedence
  | .sign s => ranks.sign s
  | .operator op => ranks.operator op

/-- The precedence of what waits, if anything does. -/
def below (ranks : Ranks) (w : Option Waiting) : Precedence := (w.map ranks.rank).getD .unranked

/-- What waits gets the operand before the given operator. -/
def prefers (ranks : Ranks) (pair : Waiting × Operator) : Bool :=
  reduces (ranks.rank pair.1) (ranks.operator pair.2)

end Ranks

section

variable {v : Fragment}

variable {op : Operator} {a b : Expr} {sign : Sign} {t : Token} {p : Position}

theorem Operator.action_ok (h : op.action [.expr a, .ofToken u, .expr b] = .ok v) :
    ∃ p, v = .expr (op.expr p a b) := by
  have hcompare : ∀ compare, comparison compare [.expr a, .ofToken u, .expr b] = .ok v →
      ∃ p, v = .expr (.compare p compare [a, b]) := by
    intro compare h
    obtain ⟨p, -, hp⟩ := ok_of_bind h
    cases hp
    exact ⟨p, rfl⟩
  cases op with
  | lessThan | greaterThan | lessThanEqual | greaterThanEqual | equalTo | notEqualTo =>
    exact hcompare _ h
  | _ =>
    cases h
    exact ⟨_, rfl⟩

theorem Sign.action_ok (h : sign.action [.ofToken u, .expr a] = .ok v) :
    ∃ p, v = .expr (sign.expr p a) := by
  cases sign <;> cases h <;> exact ⟨_, rfl⟩

theorem Leaf.action_ok {l : Leaf} (h : l.action [.ofToken t] = .ok v) :
    ∃ e, v = .expr e ∧ e.nodes.length = 1 := by
  cases l with
  | decimal | integer | string =>
    cases h
    refine ⟨_, rfl, ?_⟩
    cases t.value <;> rfl
  | trueWord | falseWord =>
    cases h
    exact ⟨_, rfl, rfl⟩
  | name =>
    simp only [Leaf.action, Setups.place, Fragment.ofToken] at h
    split at h <;> cases h
    exact ⟨_, rfl, rfl⟩

theorem Operator.length_nodes (op : Operator) (p : Position) (a b : Expr) :
    (op.expr p a b).nodes.length = a.nodes.length + (b.nodes.length + 1) := by
  cases op <;> simp [Operator.expr, Nat.add_assoc]

theorem Operator.expr_injective (h : op.expr p a b = op'.expr p' a' b') :
    op = op' ∧ a = a' ∧ b = b' := by
  cases op <;> cases op' <;> simp_all [Operator.expr]

theorem Sign.expr_injective (h : sign.expr p a = sign'.expr p' a') : sign = sign' ∧ a = a' := by
  cases sign <;> cases sign' <;> simp_all [Sign.expr]

theorem Sign.expr_ne : sign.expr p a ≠ op.expr p' b c := by
  cases sign <;> cases op <;> simp [Sign.expr, Operator.expr]

/-- A token that is no parenthesis. -/
def isPlain (t : Token) : Bool := t.kind != .lparen && t.kind != .rparen

theorem Operator.isPlain (h : t.kind = op.terminal) : Grammar.isPlain t = true := by
  rw [Grammar.isPlain, h]
  cases op <;> rfl

theorem Sign.isPlain (h : t.kind = sign.terminal) : Grammar.isPlain t = true := by
  rw [Grammar.isPlain, h]
  cases sign <;> rfl

theorem Leaf.isPlain {l : Leaf} (h : t.kind = l.terminal) : Grammar.isPlain t = true := by
  rw [Grammar.isPlain, h]
  cases l <;> rfl

end

namespace Phrase

variable {ranks ranks' : Ranks} {φ ψ : Phrase} {b : Precedence} {next : Option Operator}

section

/-- The pairs that compete for an operand: what waits for it, and the operator after it. -/
def rivals (waiting : Option Waiting) (next : Option Operator) : Phrase → List (Waiting × Operator)
  | leaf _ _ _ => []
  | paren _ inner _ _ _ => inner.rivals none none
  | unary sign _ _ operand =>
    (next.toList.map fun op => (.sign sign, op)) ++ operand.rivals (some (.sign sign)) next
  | binary left op _ _ right =>
    (waiting.toList.map fun w => (w, op)) ++ (next.toList.map fun op' => (.operator op, op')) ++
      left.rivals waiting (some op) ++ right.rivals (some (.operator op)) next

theorem next_iff (w : Waiting) (h : (next.all fun op => ranks.prefers (w, op)) = true) :
    (next.all fun op => ranks'.prefers (w, op)) = true ↔
      ∀ pair ∈ next.toList.map fun op => (w, op), ranks'.prefers pair = ranks.prefers pair := by
  cases next with
  | none => simp
  | some op =>
    have hown : ranks.prefers (w, op) = true := h
    simp [hown]

theorem waiting_iff (h : reduces (ranks.below w) (ranks.operator op) = false) :
    reduces (ranks'.below w) (ranks'.operator op) = false ↔
      ∀ pair ∈ w.toList.map fun own => (own, op), ranks'.prefers pair = ranks.prefers pair := by
  cases w with
  | none => simp [Ranks.below, reduces_unranked]
  | some own =>
    have hown : ranks.prefers (own, op) = false := h
    simp [Ranks.below, Ranks.prefers, ← hown]

/-- What is grouped by one table is grouped by another if they agree on all rivals. -/
theorem fits_iff_rivals (h : φ.fits ranks (ranks.below w) next = true) :
    φ.fits ranks' (ranks'.below w) next = true ↔
      ∀ pair ∈ φ.rivals w next, ranks'.prefers pair = ranks.prefers pair := by
  induction φ generalizing w next with
  | leaf l t hkind => simp [fits, rivals]
  | paren opening inner closing hopening hclosing ih => exact ih (w := none) h
  | unary sign t hkind operand ih =>
    obtain ⟨hprefer, hoperand⟩ := Bool.and_eq_true_iff.mp h
    rw [rivals, List.forall_mem_append, ← next_iff (.sign sign) hprefer,
      ← ih (w := some (.sign sign)) hoperand]
    exact Bool.and_eq_true_iff
  | binary left op t hkind right ihl ihr =>
    simp only [fits, Bool.and_eq_true, Bool.not_eq_true'] at h
    obtain ⟨⟨⟨hkept, hprefer⟩, hleft⟩, hright⟩ := h
    rw [rivals, List.forall_mem_append, List.forall_mem_append, List.forall_mem_append,
      ← waiting_iff hkept, ← next_iff (.operator op) hprefer, ← ihl hleft,
      ← ihr (w := some (.operator op)) hright]
    simp only [fits, Bool.and_eq_true, Bool.not_eq_true']
    rfl

end

section

/-- An operator and its operand are put at the end of a phrase, or the phrase is complete before
the operator. -/
theorem exists_attached {op : Operator} (hkind : t.kind = op.terminal) {operand : Phrase}
    (hoperand : ∀ b, operand.fits ranks b none = true) (h : φ.fits ranks b none = true) :
    φ.fits ranks b (some op) = true ∨
      ∃ ψ : Phrase, ψ.fits ranks b none = true ∧ ψ.tokens = φ.tokens ++ t :: operand.tokens := by
  induction φ generalizing b with
  | leaf l u hu => exact .inl rfl
  | paren opening inner closing hopening hclosing _ => exact .inl h
  | unary sign u hu inner ih =>
    have hinner : inner.fits ranks (ranks.sign sign) none = true := by simpa [fits] using h
    rcases ih hinner with hbefore | ⟨ψ, hfits, htokens⟩
    · by_cases hprefer : reduces (ranks.sign sign) (ranks.operator op) = true
      · exact .inl (by simp [fits, hprefer, hbefore])
      · refine .inr ⟨unary sign u hu (binary inner op t hkind operand), ?_, by simp [tokens]⟩
        simp [fits, hprefer, hbefore, hoperand]
    · exact .inr ⟨unary sign u hu ψ, by simpa [fits] using hfits, by simp [tokens, htokens]⟩
  | binary left op' u hu right _ ih =>
    simp only [fits, Option.all_none, Bool.and_true, Bool.and_eq_true] at h
    rcases ih h.2 with hbefore | ⟨ψ, hfits, htokens⟩
    · by_cases hprefer : reduces (ranks.operator op') (ranks.operator op) = true
      · exact .inl (by simp [fits, hprefer, hbefore, h])
      · refine .inr ⟨binary left op' u hu (binary right op t hkind operand), ?_, by simp [tokens]⟩
        simp [fits, hprefer, hbefore, hoperand, h]
    · exact .inr ⟨binary left op' u hu ψ, by simp [fits, hfits, h], by simp [tokens, htokens]⟩

/-- Some tokens become a phrase with every operand that is put after them. -/
def Ready (ranks : Ranks) (before : List Token) : Prop :=
  ∀ operand : Phrase, (∀ b, operand.fits ranks b none = true) →
    ∃ ψ : Phrase, ψ.fits ranks .unranked none = true ∧ ψ.tokens = before ++ operand.tokens

theorem Ready.operator {op : Operator} (hkind : t.kind = op.terminal)
    (h : φ.fits ranks .unranked none = true) : Ready ranks (φ.tokens ++ [t]) := by
  intro operand hoperand
  rcases exists_attached hkind hoperand h with hbefore | ⟨ψ, hfits, htokens⟩
  · refine ⟨binary φ op t hkind operand, ?_, by simp [tokens]⟩
    simp [fits, hbefore, hoperand, reduces_unranked]
  · exact ⟨ψ, hfits, by simp [htokens]⟩

theorem Ready.sign (h : Ready ranks before) {sign : Sign}
    (hkind : t.kind = sign.terminal) : Ready ranks (before ++ [t]) := by
  intro operand hoperand
  obtain ⟨ψ, hfits, htokens⟩ := h (unary sign t hkind operand) fun b => by simp [fits, hoperand]
  exact ⟨ψ, hfits, by simp [htokens, tokens]⟩

theorem ready_nil (ranks : Ranks) : Ready ranks [] :=
  fun operand hoperand => ⟨operand, hoperand _, rfl⟩

theorem exists_fits_after (φ : Phrase) {before : List Token} (h : Ready ranks before) :
    ∃ ψ : Phrase, ψ.fits ranks .unranked none = true ∧ ψ.tokens = before ++ φ.tokens := by
  induction φ generalizing before with
  | leaf l t hkind => exact h _ fun _ => rfl
  | paren opening inner closing hopening hclosing ih =>
    obtain ⟨ψ, hfits, htokens⟩ := ih (ready_nil ranks)
    obtain ⟨χ, hχ, htokens'⟩ := h (paren opening ψ closing hopening hclosing) fun _ => hfits
    exact ⟨χ, hχ, by rw [htokens', tokens, htokens]; rfl⟩
  | unary sign t hkind operand ih =>
    obtain ⟨ψ, hfits, htokens⟩ := ih (h.sign hkind)
    exact ⟨ψ, hfits, by simp [htokens, tokens]⟩
  | binary left op t hkind right ihl ihr =>
    obtain ⟨ψ, hfits, htokens⟩ := ihl h
    obtain ⟨χ, hχ, htokens'⟩ := ihr (Ready.operator hkind hfits)
    exact ⟨χ, hχ, by simp [htokens', htokens, tokens]⟩

/-- Precedence always groups the tokens of a phrase in some way. -/
theorem exists_fits (ranks : Ranks) (φ : Phrase) :
    ∃ ψ : Phrase, ψ.fits ranks .unranked none = true ∧ ψ.tokens = φ.tokens :=
  φ.exists_fits_after (ready_nil ranks)

end

section

variable {e e' : Expr} {v : Fragment}

/-- The value of a phrase is an expression. -/
theorem value_expr (h : φ.value = .ok v) : ∃ e, v = .expr e := by
  induction φ generalizing v with
  | leaf l t hkind =>
    obtain ⟨e, he, -⟩ := Leaf.action_ok h
    exact ⟨e, he⟩
  | paren opening inner closing hopening hclosing ih => exact ih h
  | unary sign t hkind operand ih =>
    obtain ⟨w, hw, h⟩ := ok_of_bind h
    obtain ⟨a, rfl⟩ := ih hw
    obtain ⟨p, hp⟩ := Sign.action_ok h
    exact ⟨_, hp⟩
  | binary left op t hkind right ihl ihr =>
    obtain ⟨w, hw, h⟩ := ok_of_bind h
    obtain ⟨w', hw', h⟩ := ok_of_bind h
    obtain ⟨a, rfl⟩ := ihl hw
    obtain ⟨b, rfl⟩ := ihr hw'
    obtain ⟨p, hp⟩ := Operator.action_ok h
    exact ⟨_, hp⟩

theorem unary_ok (h : (unary sign t hkind operand).value = .ok (.expr e)) :
    ∃ a p, operand.value = .ok (.expr a) ∧ e = sign.expr p a := by
  obtain ⟨w, hw, h⟩ := ok_of_bind h
  obtain ⟨a, rfl⟩ := value_expr hw
  obtain ⟨p, hp⟩ := Sign.action_ok h
  cases hp
  exact ⟨a, p, hw, rfl⟩

theorem binary_ok (h : (binary left op t hkind right).value = .ok (.expr e)) :
    ∃ a b p, left.value = .ok (.expr a) ∧ right.value = .ok (.expr b) ∧ e = op.expr p a b := by
  obtain ⟨w, hw, h⟩ := ok_of_bind h
  obtain ⟨w', hw', h⟩ := ok_of_bind h
  obtain ⟨a, rfl⟩ := value_expr hw
  obtain ⟨b, rfl⟩ := value_expr hw'
  obtain ⟨p, hp⟩ := Operator.action_ok h
  cases hp
  exact ⟨a, b, p, hw, hw', rfl⟩

/-- A tree has a node for each token of its phrase that is no parenthesis. -/
theorem length_nodes (h : φ.value = .ok (.expr e)) :
    e.nodes.length = φ.tokens.countP isPlain := by
  induction φ generalizing e with
  | leaf l t hkind =>
    obtain ⟨e', he, hlength⟩ := Leaf.action_ok h
    cases he
    simp [tokens, Leaf.isPlain hkind, hlength]
  | paren opening inner closing hopening hclosing ih =>
    simp [tokens, isPlain, hopening, hclosing, ih h]
  | unary sign t hkind operand ih =>
    obtain ⟨a, p, ha, rfl⟩ := unary_ok h
    rw [tokens, List.countP_cons_of_pos (Sign.isPlain hkind), ← ih ha]
    cases sign <;> simp [Sign.expr]
  | binary left op t hkind right ihl ihr =>
    obtain ⟨a, b, p, ha, hb, rfl⟩ := binary_ok h
    rw [Operator.length_nodes, tokens, List.countP_append,
      List.countP_cons_of_pos (Operator.isPlain hkind), ← ihl ha, ← ihr hb]

end

section

/-- How many parentheses some tokens leave open. -/
def depth : List Token → Int
  | [] => 0
  | t :: rest => (if t.kind = .lparen then 1 else if t.kind = .rparen then -1 else 0) + depth rest

theorem depth_append (first second : List Token) :
    depth (first ++ second) = depth first + depth second := by
  induction first with
  | nil => simp [depth]
  | cons t rest ih => simp [depth, ih, Int.add_assoc]

theorem depth_cons_plain (h : isPlain t = true) (rest : List Token) :
    depth (t :: rest) = depth rest := by
  simp only [isPlain, Bool.and_eq_true, bne_iff_ne] at h
  simp [depth, h]

theorem tokens_ne_nil (φ : Phrase) : φ.tokens ≠ [] := by
  cases φ <;> simp [tokens]

theorem depth_tokens (φ : Phrase) : depth φ.tokens = 0 := by
  induction φ with
  | leaf l t hkind => exact depth_cons_plain (Leaf.isPlain hkind) []
  | paren opening inner closing hopening hclosing ih =>
    simp [tokens, depth, depth_append, hopening, hclosing, ih]
  | unary sign t hkind operand ih =>
    rw [tokens, depth_cons_plain (Sign.isPlain hkind), ih]
  | binary left op t hkind right ihl ihr =>
    rw [tokens, depth_append, depth_cons_plain (Operator.isPlain hkind), ihl, ihr]
    rfl

/-- Tokens are divided in one way by an operator, if it has as many tokens before it that are no
parentheses. -/
theorem split_unique (ht : isPlain t = true) (ht' : isPlain t' = true)
    (hcount : first.countP isPlain = first'.countP isPlain)
    (h : first ++ t :: second = first' ++ t' :: second') :
    first = first' ∧ t = t' ∧ second = second' := by
  have hsame : ∀ {ts ts' more rest rest' : List Token} {u u' : Token}, isPlain u = true →
      ts.countP isPlain = ts'.countP isPlain → ts' = ts ++ more → u :: rest = more ++ u' :: rest' →
      more = [] := by
    intro ts ts' more rest rest' u u' hu hcount hts hmore
    cases more with
    | nil => rfl
    | cons v more =>
      obtain ⟨rfl, -⟩ := List.cons_eq_cons.mp hmore
      rw [hts, List.countP_append, List.countP_cons_of_pos hu] at hcount
      omega
  have hnil : ∃ more, more = [] ∧ first' = first ++ more ∧ t :: second = more ++ t' :: second' := by
    rcases List.append_eq_append_iff.mp h with ⟨more, hmore, hrest⟩ | ⟨more, hmore, hrest⟩
    · exact ⟨more, hsame ht hcount hmore hrest, hmore, hrest⟩
    · obtain rfl := hsame ht' hcount.symm hmore hrest
      exact ⟨[], rfl, by simpa using hmore.symm, by simpa using hrest.symm⟩
  obtain ⟨_, rfl, hfirst, hrest⟩ := hnil
  obtain ⟨rfl, rfl⟩ := List.cons_eq_cons.mp hrest
  exact ⟨by simpa using hfirst.symm, rfl, rfl⟩

/-- What stands in parentheses as a whole is no operation on the same operands. -/
theorem enclosed_ne_binary (before after : List Token) {op : Operator} {left right : Phrase}
    (hopen : 0 < depth before) (hbefore : before.countP isPlain = 0) (ht : isPlain t = true)
    (h : φ.value = .ok (.expr (op.expr p a c))) (hleft : left.value = .ok (.expr a)) :
    before ++ (φ.tokens ++ after) ≠ left.tokens ++ t :: right.tokens := by
  induction φ generalizing before after with
  | leaf l u hu =>
    obtain ⟨e, he, hlength⟩ := Leaf.action_ok h
    cases he
    have hfirst := List.length_pos_of_mem a.mem_nodes_self
    rw [Operator.length_nodes] at hlength
    omega
  | paren opening inner closing hopening hclosing ih =>
    intro htokens
    have hopen' : 0 < depth (before ++ [opening]) := by
      rw [depth_append]
      simp [depth, hopening]
      omega
    refine ih (before ++ [opening]) (closing :: after) hopen' ?_ h ?_
    · simp [hbefore, isPlain, hopening]
    · simpa [tokens] using htokens
  | unary sign u hu operand =>
    obtain ⟨a', p', -, he⟩ := unary_ok h
    exact absurd he.symm Sign.expr_ne
  | binary left' op' u hu right' =>
    intro htokens
    obtain ⟨a', b', p', ha', -, he⟩ := binary_ok h
    obtain ⟨-, rfl, -⟩ := Operator.expr_injective he
    have hcount : (before ++ left'.tokens).countP isPlain = left.tokens.countP isPlain := by
      rw [List.countP_append, hbefore, Nat.zero_add, ← length_nodes ha', length_nodes hleft]
    have hsplit : before ++ left'.tokens ++ u :: (right'.tokens ++ after) =
        left.tokens ++ t :: right.tokens := by simpa [tokens] using htokens
    obtain ⟨hsame, -⟩ := split_unique (Operator.isPlain hu) ht hcount hsplit
    have hdepth := congrArg depth hsame
    rw [depth_append, depth_tokens, depth_tokens] at hdepth
    omega

theorem paren_ne_binary {inner : Phrase} (hopening : opening.kind = .lparen)
    (h : (binary left op t hkind right).value = .ok (.expr e)) (he : inner.value = .ok (.expr e)) :
    opening :: (inner.tokens ++ [closing]) ≠ left.tokens ++ t :: right.tokens := by
  obtain ⟨a, b, p, ha, -, rfl⟩ := binary_ok h
  exact enclosed_ne_binary [opening] [closing] (by simp [depth, hopening])
    (by simp [isPlain, hopening]) (Operator.isPlain hkind) he ha

end

theorem ne_of_isPlain (ht : isPlain t = true)
    (hopening : opening.kind = .lparen) : t :: rest ≠ opening :: rest' := by
  rintro ⟨⟩
  simp [isPlain, hopening] at ht

theorem singleton_ne_binary (left : Phrase) : [t] ≠ left.tokens ++ u :: rest := by
  intro h
  have hlength := congrArg List.length h
  have hleft := List.length_pos_iff.mpr left.tokens_ne_nil
  simp only [List.length_append, List.length_cons, List.length_nil] at hlength
  omega

/-- Two groupings of the same tokens are the same if they have the same tree. -/
theorem eq_of_same_tree (htokens : φ.tokens = ψ.tokens) (h : φ.value = .ok (.expr e))
    (h' : ψ.value = .ok (.expr e)) : φ = ψ := by
  induction φ generalizing ψ e with
  | leaf l t hkind =>
    cases ψ with
    | leaf l' t' hkind' =>
      obtain rfl : t = t' := List.head_eq_of_cons_eq htokens
      obtain rfl := Leaf.terminal_injective (hkind.symm.trans hkind')
      rfl
    | paren opening inner closing hopening hclosing =>
      exact absurd htokens (ne_of_isPlain (Leaf.isPlain hkind) hopening)
    | unary sign t' hkind' operand =>
      exact absurd (List.tail_eq_of_cons_eq htokens).symm operand.tokens_ne_nil
    | binary left op t' hkind' right => exact absurd htokens left.singleton_ne_binary
  | paren opening inner closing hopening hclosing ih =>
    cases ψ with
    | leaf l t hkind => exact absurd htokens.symm (ne_of_isPlain (Leaf.isPlain hkind) hopening)
    | paren opening' inner' closing' hopening' hclosing' =>
      obtain ⟨rfl, hrest⟩ := List.cons_eq_cons.mp htokens
      obtain ⟨hinner, hlast⟩ := List.append_inj' hrest rfl
      obtain rfl : closing = closing' := List.head_eq_of_cons_eq hlast
      obtain rfl := ih hinner h h'
      rfl
    | unary sign t hkind operand =>
      exact absurd htokens.symm (ne_of_isPlain (Sign.isPlain hkind) hopening)
    | binary left op t hkind right => exact absurd htokens (paren_ne_binary hopening h' h)
  | unary sign t hkind operand ih =>
    obtain ⟨a, p, ha, rfl⟩ := unary_ok h
    cases ψ with
    | leaf l t' hkind' =>
      exact absurd (List.tail_eq_of_cons_eq htokens) operand.tokens_ne_nil
    | paren opening inner closing hopening hclosing =>
      exact absurd htokens (ne_of_isPlain (Sign.isPlain hkind) hopening)
    | unary sign' t' hkind' operand' =>
      obtain ⟨a', p', ha', he⟩ := unary_ok h'
      obtain ⟨rfl, hrest⟩ := List.cons_eq_cons.mp htokens
      obtain ⟨rfl, rfl⟩ := Sign.expr_injective he
      obtain rfl := ih hrest ha ha'
      rfl
    | binary left op t' hkind' right =>
      obtain ⟨b, c, p', -, -, he⟩ := binary_ok h'
      exact absurd he Sign.expr_ne
  | binary left op t hkind right ihl ihr =>
    cases ψ with
    | leaf l t' hkind' => exact absurd htokens.symm left.singleton_ne_binary
    | paren opening inner closing hopening hclosing =>
      exact absurd htokens.symm (paren_ne_binary hopening h h')
    | unary sign t' hkind' operand =>
      obtain ⟨a, b, p, -, -, rfl⟩ := binary_ok h
      obtain ⟨c, p', -, he⟩ := unary_ok h'
      exact absurd he.symm Sign.expr_ne
    | binary left' op' t' hkind' right' =>
      obtain ⟨a, b, p, ha, hb, rfl⟩ := binary_ok h
      obtain ⟨a', b', p', ha', hb', he⟩ := binary_ok h'
      obtain ⟨rfl, rfl, rfl⟩ := Operator.expr_injective he
      obtain ⟨hleft, rfl, hright⟩ := split_unique (Operator.isPlain hkind) (Operator.isPlain hkind')
        ((length_nodes ha).symm.trans (length_nodes ha')) htokens
      obtain rfl := ihl hleft ha ha'
      obtain rfl := ihr hright hb hb'
      rfl

end Phrase

end Grammar

end BlockScript
