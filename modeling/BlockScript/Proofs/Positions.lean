import BlockScript.Proofs.Assignments
import BlockScript.Proofs.ScriptTrees

/-!
Source positions. What parsing gives for an accepted script can be traced to its tokens: every
expression, statement and declaration is the value of a tree in the parse tree, and it is placed at
a token of that tree unless it is one of those that are placed at the start of the text.
-/
namespace BlockScript.Grammar

open ParseTree

namespace Fragment

/-- A value that says where it starts. -/
def StartsAt (n : Int) : Fragment → Prop
  | token _ p => p = n
  | expr e => e.position = .ok (.start n)
  | stmt s => s.place? = some (.start n)
  | declaration d => d.pos = .start n
  | _ => False

/-- What is placed at the start of the text wherever it stands: a negation, what begins with one,
and a function that begins with its type. -/
def isDisplaced : Fragment → Bool
  | expr e => e.isNegative
  | stmt s => s.isUntold
  | _ => false

end Fragment

theorem Placed.at_token (h : Placed ts f) (hn : f.StartsAt n) :
    if f.isDisplaced then n = 0 else ∃ t ∈ ts, (t.position : Int) = n := by
  cases f with
  | token l p => exact h n (congrArg _ hn)
  | expr e | stmt s => exact h _ hn n rfl
  | declaration d => exact h n hn
  | _ => cases hn

/-- What is displaced is at one of its tokens only if it is at the start of the text. -/
theorem Placed.inside_iff (h : Placed ts f) (hn : f.StartsAt n)
    (hts : ts.Pairwise fun t t' => t.position < t'.position) :
    (∃ t ∈ ts, (t.position : Int) = n) ↔
      (f.isDisplaced = true → ts.head?.map Token.position = some 0) := by
  have hplace := h.at_token hn
  cases hdisplaced : f.isDisplaced with
  | false => simpa [hdisplaced] using hplace
  | true =>
    obtain rfl : n = 0 := by simpa [hdisplaced] using hplace
    cases ts with
    | nil => simp
    | cons t ts =>
      have hfirst := (List.pairwise_cons.mp hts).1
      refine ⟨?_, fun h => ⟨t, List.mem_cons_self, by simpa using h⟩⟩
      rintro ⟨t', ht', hzero⟩ -
      rcases List.mem_cons.mp ht' with rfl | ht'
      · simpa using hzero
      · have := hfirst t' ht'
        omega

/-- A script is the value of a parse tree. All its pieces are values of trees in it, and so are those
in the values of its declarations. Each is placed at one of the tokens of its tree, unless it is
displaced and does not begin the text. -/
structure Traced (T : ParseTree) (p : Script) : Prop where
  parses : Parses scripts [.cat .program] [T]
  value : T.value scripts .ofToken = .ok (.script p)
  has : ∀ g, (Fragment.script p).Has g → ∃ U ∈ T.subtrees, U.value scripts .ofToken = .ok g
  records : ∀ U ∈ T.subtrees, ∀ d, U.value scripts .ofToken = .ok (.declaration d) →
    ∃ e : Expr, d.value = some e.toRecord ∧ ∀ e' ∈ e.nodes, ∀ p, e'.position = .ok p →
      ∃ V ∈ U.subtrees, V.value scripts .ofToken = .ok (.expr e')
  inside : ∀ U ∈ T.subtrees, ∀ f n, U.value scripts .ofToken = .ok f → f.StartsAt n →
    ((∃ t ∈ U.tokens, (t.position : Int) = n) ↔
      (f.isDisplaced = true → U.tokens.head?.map Token.position = some 0))

/-- Every accepted script can be traced to its tokens. -/
theorem parse_traced {source : String} {p : Script} {line line' : Nat}
    (h : scriptMachine.parse line (scan .script line source) = (.accepted (.script p), line')) :
    ∃ T : ParseTree, T.tokens = (scan .script line source).tokens ∧ Traced T p := by
  obtain ⟨hscan, -, hderives⟩ := Machine.parse_accepted h
  obtain ⟨hspelled, hincreasing⟩ := scan_spelled hscan
  obtain ⟨T, hparses, htokens, hvalue, hkeeps⟩ := hderives.exists_tree hspelled
  refine ⟨T, htokens, hparses, hvalue, fun g hg => ?_, fun U hU d hd => ?_,
    fun U hU f n hf hn => ?_⟩
  · simpa [Occurs] using (hkeeps T (by cases T <;> simp) _ hvalue).2.has g hg
  · simpa [Occurs] using (hkeeps U hU _ hd).2.records d rfl
  · obtain ⟨hsublist, hkeeps⟩ := hkeeps U hU f hf
    exact hkeeps.placed.inside_iff hn (hincreasing.sublist (htokens ▸ hsublist))

theorem parse_traced_negation : ∃ p line,
    scriptMachine.parse 1 (scan .script 1 "x = -y;") = (.accepted (.script p), line) ∧
      ∃ T : ParseTree, T.tokens = (scan .script 1 "x = -y;").tokens ∧ Traced T p := by
  let negation : Phrase :=
    .unary .minus ⟨.minus, .text "-", 1, 4⟩ rfl (.leaf .name ⟨.word, .text "y", 1, 5⟩ rfl)
  obtain ⟨line, h⟩ := @Scripts.parse_assigned (scan .script 1 "x = -y;") ⟨.word, .text "x", 1, 0⟩
    ⟨.equals, .text "=", 1, 2⟩ ⟨.semicolon, .text ";", 1, 6⟩ negation 1 rfl rfl rfl rfl rfl rfl
  exact ⟨_, _, h, parse_traced h⟩

end BlockScript.Grammar
