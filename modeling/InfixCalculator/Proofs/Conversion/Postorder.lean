import InfixCalculator.Proofs.Conversion.Step
import InfixCalculator.Proofs.Grammar.Derivation
import InfixCalculator.Proofs.Tree.Building

/-!
# The conversion lists the tree of an expression

Reading a phrase of the grammar leaves the stack below untouched.  Some operators of the phrase may
still wait on top of it: the output together with them, from the top down, is the listing of the tree
of the phrase, and each of them binds at least as tightly as the phrase does (`Settles`).  This is
what an operator of the surrounding phrase relies on when it makes them give way
(`Settles.binary`).

The main statement is `ofInfix_eq_postorder`.
-/

namespace InfixCalculator.Rpn

open Grammar

/-- No operator of a phrase of this level makes the top of the stack give way. -/
def Rests (level : Level) (stack : List Token) : Prop :=
  ∀ incoming : Operator, level.precedence ≤ incoming.precedence →
    ∀ token ∈ stack.head?, ∀ op, token.kind = .operator op → incoming.pops op = false

/-- Operators that wait for their right operand, each binding at least as tightly as the level. -/
def Waits (level : Level) (waiting : List Token) : Prop :=
  ∀ token ∈ waiting, ∃ op, token.kind = .operator op ∧ level.precedence ≤ op.precedence

/-- Reading the tokens adds the listing of the tree to the output, but for operators that wait on top
of the stack. -/
def Settles (limits : Limits) (source : Option String) (level : Level) (tokens : List Token)
    (tree : Tree) : Prop :=
  ∀ (stack : List Token) (output : Array Token) (depth : Nat), Rests level stack →
    (Token.nestingFrom depth tokens : Int) ≤ limits.nestingDepth →
      ∃ waiting listed,
        Conversion.run limits source ⟨stack, output, depth⟩ tokens =
          .ok ⟨waiting ++ stack, output ++ listed.toArray, depth⟩ ∧
        listed ++ waiting = tree.postorder ∧ Waits level waiting

variable {limits : Limits} {source : Option String} {level : Level}

lemma Rests.mono {tight : Level} (hle : level.precedence ≤ tight.precedence) {stack : List Token}
    (h : Rests level stack) : Rests tight stack :=
  fun incoming hi => h incoming (Nat.le_trans hle hi)

lemma Waits.mono {tight : Level} (hle : level.precedence ≤ tight.precedence)
    {waiting : List Token} (h : Waits tight waiting) : Waits level waiting := by
  intro token ht
  obtain ⟨op, hk, hop⟩ := h token ht
  exact ⟨op, hk, Nat.le_trans hle hop⟩

lemma Waits.ne_openParen {waiting : List Token} (h : Waits level waiting) :
    ∀ token ∈ waiting, token.kind ≠ .openParen := by
  intro token ht hk
  obtain ⟨op, hop, -⟩ := h token ht
  rw [hk] at hop
  exact absurd hop (by simp)

/-- Nothing that is no operator gives way. -/
lemma rests_of_not_operator {stack : List Token}
    (h : ∀ token ∈ stack.head?, token.kind = .openParen) : Rests level stack := by
  intro incoming _ token ht op hk
  rw [h token ht] at hk
  exact absurd hk (by simp)

/-! ## Phrases, one rule after the other -/

lemma settles_literal (text : String) (position : Int) :
    Settles limits source .atom [⟨.literal, text, position⟩] (.leaf text position) := by
  intro stack output depth _ _
  refine ⟨[], [⟨.literal, text, position⟩], ?_, rfl, by simp [Waits]⟩
  rw [Conversion.run_cons, Conversion.step_literal rfl]
  simp

/-- A phrase of a tight level is one of a loose level. -/
lemma Settles.mono {tight : Level} (hle : level.precedence ≤ tight.precedence)
    {tokens : List Token} {tree : Tree} (h : Settles limits source tight tokens tree) :
    Settles limits source level tokens tree := by
  intro stack output depth hs hn
  obtain ⟨waiting, listed, hrun, hlist, hw⟩ := h stack output depth (hs.mono hle) hn
  exact ⟨waiting, listed, hrun, hlist, hw.mono hle⟩

/-- A group leaves nothing on the stack: what waits above its opening parenthesis is moved when the
group is closed. -/
lemma Settles.group {opening closing : Token} (ho : opening.kind = .openParen)
    (hc : closing.kind = .closeParen) {tokens : List Token} {tree : Tree}
    (h : Settles limits source .expression tokens tree) :
    Settles limits source .atom (opening :: (tokens ++ [closing])) tree := by
  intro stack output depth _ hn
  have hshift : opening.kind.shift depth = depth + 1 := by rw [ho]; rfl
  rw [Token.nestingFrom_cons, hshift, Token.nestingFrom_append] at hn
  have hdepth : depth + 1 ≤ Token.nestingFrom (depth + 1) tokens := Token.le_nestingFrom _ _
  obtain ⟨waiting, listed, hrun, hlist, hw⟩ := h (opening :: stack) output (depth + 1)
    (rests_of_not_operator (by simpa using ho)) (by omega)
  refine ⟨[], listed ++ waiting, ?_, by simpa using hlist, by simp [Waits]⟩
  rw [Conversion.run_cons, Conversion.step_open_of_le ho (by simp only; omega)]
  simp only
  rw [Conversion.run_append, hrun]
  simp only
  rw [Conversion.run_cons, Conversion.step_close hc]
  simp only
  rw [Conversion.closeGroup?_append ho hw.ne_openParen]
  simp [Array.append_assoc]

/-- A phrase, an operator and a phrase.  All that waits of the left phrase gives way to the operator,
the stack below does not, and no operator of the right phrase makes the operator itself give way. -/
lemma Settles.binary {left right : Level} {op : Operator} {l r : List Token} {t u : Tree}
    (text : String) (position : Int)
    (hleft : level.precedence ≤ left.precedence) (hright : level.precedence ≤ right.precedence)
    (hop : level.precedence ≤ op.precedence)
    (hyield : ∀ top : Operator, left.precedence ≤ top.precedence → op.pops top = true)
    (hrest : ∀ incoming : Operator, right.precedence ≤ incoming.precedence →
      incoming.pops op = false)
    (hdepth : ∀ depth, Token.depthAfter depth l = depth)
    (hl : Settles limits source left l t) (hr : Settles limits source right r u) :
    Settles limits source level (l ++ ⟨.operator op, text, position⟩ :: r)
      (.node op text position t u) := by
  intro stack output depth hs hn
  rw [Token.nestingFrom_append, hdepth, Token.nestingFrom_cons] at hn
  have hshift : Token.Kind.shift (.operator op) depth = depth := rfl
  rw [hshift] at hn
  obtain ⟨waiting, listed, hrun, hlist, hw⟩ := hl stack output depth (hs.mono hleft) (by omega)
  -- the operator finds the left phrase complete and waits on top of the stack below it
  have hgive : Conversion.yieldTo op (waiting ++ stack) (output ++ listed.toArray) =
      (stack, output ++ t.postorder.toArray) := by
    rw [Conversion.yieldTo_append _ (hs op hop), ← hlist]
    · simp [Array.append_assoc]
    · intro token ht
      obtain ⟨top, hk, htop⟩ := hw token ht
      exact ⟨top, hk, hyield top htop⟩
  obtain ⟨waiting', listed', hrun', hlist', hw'⟩ :=
    hr (⟨.operator op, text, position⟩ :: stack) (output ++ t.postorder.toArray) depth
      (by
        intro incoming hi token ht op' hk
        obtain rfl : (⟨.operator op, text, position⟩ : Token) = token := by simpa using ht
        cases hk
        exact hrest incoming hi)
      (by omega)
  -- in the end the operator waits below what waits of the right phrase
  refine ⟨waiting' ++ [⟨.operator op, text, position⟩], t.postorder ++ listed', ?_, ?_, ?_⟩
  · rw [Conversion.run_append, hrun]
    simp only
    rw [Conversion.run_cons, Conversion.step_operator rfl, hgive]
    simp only
    rw [hrun']
    simp [Array.append_assoc]
  · rw [Tree.postorder, ← hlist']
    simp only [List.append_assoc]
  · intro token ht
    rcases List.mem_append.1 ht with ht | ht
    · exact hw'.mono hright token ht
    · rw [List.mem_singleton.1 ht]
      exact ⟨op, rfl, hop⟩

/-- A chain of left-associative operators of one precedence is folded to the left. -/
lemma Settles.chain {right : Level} (hlt : level.precedence < right.precedence) {links : List Link}
    (hop : ∀ link ∈ links, link.op.associativity = .left ∧ link.op.precedence = level.precedence)
    (hdepth : ∀ link ∈ links, ∀ depth, Token.depthAfter depth link.tokens = depth)
    (h : ∀ link ∈ links, Settles limits source right link.tokens link.tree)
    {first : List Token} {tree : Tree} (hfd : ∀ depth, Token.depthAfter depth first = depth)
    (hf : Settles limits source level first tree) :
    Settles limits source level (first ++ links.flatMap Link.listing)
      (links.foldl Link.onto tree) := by
  induction links generalizing first tree with
  | nil => simpa using hf
  | cons link links ih =>
    obtain ⟨hassoc, hprec⟩ := hop link List.mem_cons_self
    have hlink : Settles limits source level (first ++ link.listing) (Link.onto tree link) := by
      refine Settles.binary link.text link.position (Nat.le_refl _) (Nat.le_of_lt hlt)
        (Nat.le_of_eq hprec.symm) ?_ ?_ hfd hf (h link List.mem_cons_self)
      · exact fun top htop => Operator.pops_of_le hassoc (hprec ▸ htop)
      · exact fun incoming hi => Operator.pops_of_lt (hprec ▸ Nat.lt_of_lt_of_le hlt hi)
    have hlinkd : ∀ depth, Token.depthAfter depth (first ++ link.listing) = depth := by
      intro depth
      rw [Token.depthAfter_append, hfd]
      exact hdepth link List.mem_cons_self depth
    rw [List.flatMap_cons, ← List.append_assoc, List.foldl_cons]
    exact ih (fun x hx => hop x (List.mem_cons_of_mem _ hx))
      (fun x hx => hdepth x (List.mem_cons_of_mem _ hx))
      (fun x hx => h x (List.mem_cons_of_mem _ hx)) hlinkd hlink

/-! ## Expressions -/

/-- Every phrase of the grammar settles. -/
lemma settles_of_derives {tokens : List Token} {tree : Tree} (h : Derives level tokens tree) :
    Settles limits source level tokens tree := by
  induction h with
  | literal text position => exact settles_literal text position
  | group ho hc _ ih => exact ih.group ho hc
  | factor _ ih => exact ih.mono (by decide)
  | power text position hb _ ihb ihe =>
    exact Settles.binary text position (by decide) (by decide) (by decide)
      (fun top => by cases top <;> decide) (fun incoming => by cases incoming <;> decide)
      hb.depthAfter ihb ihe
  | term links hf hop h ihf ih =>
    refine Settles.chain (by decide) ?_ (fun link hl => (h link hl).depthAfter) ih hf.depthAfter
      (ihf.mono (by decide))
    intro link hl
    rcases hop link hl with ho | ho <;> rw [ho] <;> decide
  | expression links hf hop h ihf ih =>
    refine Settles.chain (by decide) ?_ (fun link hl => (h link hl).depthAfter) ih hf.depthAfter
      (ihf.mono (by decide))
    intro link hl
    rcases hop link hl with ho | ho <;> rw [ho] <;> decide

/-- The postfix order of an expression is the listing of its tree. -/
lemma ofInfix_of_derives {tokens : List Token} {tree : Tree}
    (h : Derives .expression tokens tree)
    (hn : (Token.nesting tokens : Int) ≤ limits.nestingDepth) :
    ofInfix limits source tokens = .ok tree.postorder := by
  obtain ⟨waiting, listed, hrun, hlist, hw⟩ := settles_of_derives h [] #[] 0
    (rests_of_not_operator (by simp)) hn
  have hdrain : Conversion.drain source waiting (#[] ++ listed.toArray) =
      .ok (#[] ++ listed.toArray ++ waiting.toArray) :=
    Conversion.drain_of_no_open hw.ne_openParen _
  rw [ofInfix, Conversion.initial, hrun]
  simp only [List.append_nil]
  rw [hdrain, ← hlist]
  simp

/-- The conversion of an expression of the grammar whose parentheses are not nested too deeply
succeeds; it lists the tree of the expression, children first, and that tree is built from it. -/
theorem ofInfix_eq_postorder {tokens : List Token} {tree : Tree}
    (h : Derives .expression tokens tree) (limits : Limits) (source treeSource : Option String)
    (hn : (Token.nesting tokens : Int) ≤ limits.nestingDepth) :
    ofInfix limits source tokens = .ok tree.postorder ∧
      (ofInfix limits source tokens).bind (Tree.ofPostorder treeSource) = .ok tree := by
  have hconv : ofInfix limits source tokens = .ok tree.postorder := ofInfix_of_derives h hn
  refine ⟨hconv, ?_⟩
  rw [hconv]
  exact Tree.ofPostorder_postorder tree

/-- The tokens of `(8-3-1)*2^3^2`. -/
def sampleTokens : List Token :=
  [⟨.openParen, "(", 0⟩, ⟨.literal, "8", 1⟩, ⟨.operator .sub, "-", 2⟩, ⟨.literal, "3", 3⟩,
    ⟨.operator .sub, "-", 4⟩, ⟨.literal, "1", 5⟩, ⟨.closeParen, ")", 6⟩, ⟨.operator .mul, "*", 7⟩,
    ⟨.literal, "2", 8⟩, ⟨.operator .pow, "^", 9⟩, ⟨.literal, "3", 10⟩, ⟨.operator .pow, "^", 11⟩,
    ⟨.literal, "2", 12⟩]

/-- The tree of `(8-3-1)*2^3^2`. -/
def sampleTree : Tree :=
  .node .mul "*" 7
    (.node .sub "-" 4 (.node .sub "-" 2 (.leaf "8" 1) (.leaf "3" 3)) (.leaf "1" 5))
    (.node .pow "^" 9 (.leaf "2" 8) (.node .pow "^" 11 (.leaf "3" 10) (.leaf "2" 12)))

lemma derives_sampleTokens : Derives .expression sampleTokens sampleTree := by
  have hdifferences : Derives .expression _ _ :=
    .expression [⟨.sub, "-", 2, _, _⟩, ⟨.sub, "-", 4, _, _⟩]
      (.term [] (.factor (.literal "8" 1)) (by simp) (by simp)) (by simp)
      (by
        intro link hl
        simp only [List.mem_cons, List.not_mem_nil, or_false] at hl
        rcases hl with rfl | rfl
        · exact .term [] (.factor (.literal "3" 3)) (by simp) (by simp)
        · exact .term [] (.factor (.literal "1" 5)) (by simp) (by simp))
  have hgroup : Derives .atom (⟨.openParen, "(", 0⟩ :: (_ ++ [⟨.closeParen, ")", 6⟩])) _ :=
    .group rfl rfl hdifferences
  have hpowers : Derives .factor _ _ :=
    .power "^" 9 (.literal "2" 8) (.power "^" 11 (.literal "3" 10) (.factor (.literal "2" 12)))
  have hproduct : Derives .term _ _ :=
    .term [⟨.mul, "*", 7, _, _⟩] (.factor hgroup) (by simp) (by simpa using hpowers)
  exact .expression [] hproduct (by simp) (by simp)

/-- At `(8-3-1)*2^3^2`, with the nesting at its limit. -/
theorem ofInfix_eq_postorder_sample :
    Derives .expression sampleTokens sampleTree ∧ Token.nesting sampleTokens = 1 ∧
      ofInfix { nestingDepth := 1 } none sampleTokens = .ok sampleTree.postorder ∧
      (ofInfix { nestingDepth := 1 } none sampleTokens).bind (Tree.ofPostorder none) =
        .ok sampleTree :=
  ⟨derives_sampleTokens, by decide,
    ofInfix_eq_postorder derives_sampleTokens { nestingDepth := 1 } none none (by decide)⟩

end InfixCalculator.Rpn
