import InfixCalculator.CommandLine.Run
import InfixCalculator.Proofs.Computation.Shown

/-!
# A run is the series of its blocks

A run has a block for each expression, in the order of the arguments, and a block depends on nothing
but the settings and the expression.  What is in it is said by `Shows`: the line of the computation
and, below a value, the details that the settings ask for.

Details are taken from a second conversion of the expression.  It cannot fail after the first has
succeeded, and the tree built of it has the value of the line (`stages_of_value`).  So under limits in
range every expression has a block (`exists_block`), and under settings that can be loaded every run on
expressions reports (`run_eq_reported`).
-/

namespace InfixCalculator.CommandLine

open Numeral (writableBound)

variable {settings : Settings} {expression : String}

/-- What is shown for an expression under the given settings. -/
inductive Shows (settings : Settings) (expression : String) : String → Prop
  /-- A failure has its line and no more. -/
  | failure {c : Computation} {e : ExpressionError} {line : String}
      (hc : compute settings.limits expression = .ok c) (he : c.outcome = .error e)
      (hline : c.line = .ok line) :
      Shows settings expression (asLine line)
  /-- A value has its line, and then the postfix text and the tree, if they are to be shown. -/
  | value {c : Computation} {value : Number} {line text : String} {tokens : List Token} {tree : Tree}
      (hc : compute settings.limits expression = .ok c) (hvalue : c.outcome = .ok value)
      (hline : c.line = .ok line)
      (htext : rpnText settings.limits expression = .ok text)
      (htokens : rpn settings.limits expression = .ok tokens)
      (htree : Tree.ofPostorder (some expression) tokens = .ok tree)
      (hsame : tree.value settings.limits (some expression) = .ok value) :
      Shows settings expression
        (asLine line ++
          ((if settings.showRpn then asLine ("  postfix: " ++ text) else "") ++
            if settings.showTree then asLine ("  tree: " ++ tree.inline) ++ asLine (tree.outline 2)
            else ""))

/-! ## Details -/

/-- An expression with a value has a postfix text and a tree, and the tree has the value. -/
lemma stages_of_value {limits : Limits} {value : Number}
    (h : calculate limits expression = .ok value) :
    ∃ tokens tree, rpn limits expression = .ok tokens ∧
      rpnText limits expression = .ok (Rpn.text tokens) ∧
      Tree.ofPostorder (some expression) tokens = .ok tree ∧
      tree.value limits (some expression) = .ok value := by
  have hblank := not_blank_of_calculate h
  obtain ⟨tokens, postfixed, htokens, hpostfixed, hvalue⟩ := stages_of_calculate h
  obtain ⟨tree, htree⟩ : ∃ tree, Tree.ofPostorder (some expression) postfixed = .ok tree :=
    Rpn.exists_tree_of_evaluate hvalue
  have hrpn : rpn limits expression = .ok postfixed := by
    rw [rpn, htokens]
    exact hpostfixed
  refine ⟨postfixed, tree, hrpn, ?_, htree, ?_⟩
  · rw [rpnText, hblank, if_neg Bool.false_ne_true, hrpn]
    rfl
  · rw [Tree.ofPostorder_eq_ok_iff.1 htree, Rpn.evaluate_postorder] at hvalue
    exact hvalue

/-- Details are shown in a fixed order. -/
lemma details_eq_ok {tokens : List Token} {tree : Tree}
    (htokens : rpn settings.limits expression = .ok tokens)
    (htree : Tree.ofPostorder (some expression) tokens = .ok tree) :
    details settings expression =
      .ok ((if settings.showRpn then asLine ("  postfix: " ++ Rpn.text tokens) else "") ++
        if settings.showTree then asLine ("  tree: " ++ tree.inline) ++ asLine (tree.outline 2)
        else "") := by
  have hdetail : treeDetail settings expression tokens =
      .ok (if settings.showTree then asLine ("  tree: " ++ tree.inline) ++ asLine (tree.outline 2)
        else "") := by
    rw [treeDetail, htree]
    split <;> rfl
  unfold details
  split
  · rw [htokens]
    simp only [hdetail, rpnDetail]
  · next hnone =>
      simp only [showsDetails, Bool.or_eq_true, not_or] at hnone
      rw [if_neg hnone.1, if_neg hnone.2]
      rfl

/-! ## Blocks -/

/-- The block of a failure. -/
lemma block_of_failure {c : Computation} {line : String}
    (hc : compute settings.limits expression = .ok c) (hline : c.line = .ok line)
    (hfailed : c.succeeded = false) :
    block settings expression =
      .ok ⟨asLine line, computationEvents settings.limits expression, false⟩ := by
  simp only [block, hc, hline, hfailed]
  rfl

/-- The block of a value. -/
lemma block_of_value {c : Computation} {line text : String}
    (hc : compute settings.limits expression = .ok c) (hline : c.line = .ok line)
    (hsucceeded : c.succeeded = true) (htext : details settings expression = .ok text) :
    ∃ events, block settings expression = .ok ⟨asLine line ++ text, events, true⟩ := by
  refine ⟨computationEvents settings.limits expression ++
    if showsDetails settings then [.passed .tokenized, .passed .converted] else [], ?_⟩
  simp only [block, hc, hline, hsucceeded, if_true, htext]

/-- Under limits in range an expression has a block.  Whether it counts as a success is decided by the
computation. -/
lemma exists_block (hlimits : settings.limits.InRange)
    (hlength : expression.length < writableBound) :
    ∃ b, block settings expression = .ok b ∧ Shows settings expression b.output ∧
      ∃ c, compute settings.limits expression = .ok c ∧ b.succeeded = c.succeeded := by
  obtain ⟨c, hc⟩ := exists_compute_of_inRange hlimits hlength
  obtain ⟨line, hline⟩ := exists_line_of_compute hlimits hc
  cases houtcome : c.outcome with
  | error e =>
    have hfailed : c.succeeded = false := by rw [Computation.succeeded, houtcome]; rfl
    exact ⟨_, block_of_failure hc hline hfailed, .failure hc houtcome hline, c, hc, hfailed.symm⟩
  | ok value =>
    have hsucceeded : c.succeeded = true := by rw [Computation.succeeded, houtcome]; rfl
    obtain ⟨tokens, tree, htokens, htext, htree, hsame⟩ :=
      stages_of_value (calculate_of_compute hc houtcome)
    obtain ⟨events, hblock⟩ := block_of_value hc hline hsucceeded (details_eq_ok htokens htree)
    exact ⟨_, hblock, .value hc houtcome hline htext htokens htree hsame, c, hc, hsucceeded.symm⟩

/-- Blocks are computed one by one. -/
lemma exists_blocks {expressions : List String} {P : String → Block → Prop}
    (h : ∀ e ∈ expressions, ∃ b, block settings e = .ok b ∧ P e b) :
    ∃ bs, blocks settings expressions = .ok bs ∧
      List.Forall₂ (fun e b => block settings e = .ok b ∧ P e b) expressions bs := by
  induction expressions with
  | nil => exact ⟨[], rfl, .nil⟩
  | cons expression rest ih =>
    obtain ⟨⟨b, hb, hP⟩, hrest⟩ := List.forall_mem_cons.1 h
    obtain ⟨bs, hbs, hall⟩ := ih hrest
    refine ⟨b :: bs, ?_, .cons ⟨hb, hP⟩ hall⟩
    simp only [blocks, hb, hbs]

/-- One failure makes the run one. -/
lemma status_ofBlocks_eq_one_iff {bs : List Block} :
    (Report.ofBlocks bs).status = 1 ↔ ∃ b ∈ bs, b.succeeded = false := by
  simp only [Report.ofBlocks]
  split
  · next hall =>
    simp only [zero_ne_one, false_iff, not_exists, not_and]
    intro b hb
    rw [List.all_eq_true.1 hall b hb]
    exact Bool.true_eq_false.mp
  · next hsome => simpa using hsome

lemma status_ofBlocks_eq_zero_or_one (bs : List Block) :
    (Report.ofBlocks bs).status = 0 ∨ (Report.ofBlocks bs).status = 1 := by
  simp only [Report.ofBlocks]
  split
  · exact Or.inl rfl
  · exact Or.inr rfl

/-- A run has a block of a failure exactly if the computation of one of its expressions has failed. -/
lemma exists_failed_iff {limits : Limits} {expressions : List String} {bs : List Block}
    (h : List.Forall₂ (fun e b => ∃ c, compute limits e = .ok c ∧ b.succeeded = c.succeeded)
      expressions bs) :
    (∃ b ∈ bs, b.succeeded = false) ↔
      ∃ e ∈ expressions, ∃ c, compute limits e = .ok c ∧ c.succeeded = false := by
  induction h with
  | nil => simp
  | @cons e b rest bs he _ ih =>
    obtain ⟨c, hc, hsame⟩ := he
    have hhead : b.succeeded = false ↔ ∃ c, compute limits e = .ok c ∧ c.succeeded = false := by
      constructor
      · intro hfailed
        exact ⟨c, hc, hsame ▸ hfailed⟩
      · rintro ⟨c', hc', hfailed⟩
        obtain rfl : c = c' := Except.ok.inj (hc.symm.trans hc')
        exact hsame.trans hfailed
    rw [List.exists_mem_cons_iff, List.exists_mem_cons_iff, hhead, ih]

/-! ## Runs -/

/-- Arguments override what is logged and what is shown, but no limit. -/
@[simp] lemma limits_override (settings : Settings) (request : Arguments) :
    (override settings request).limits = settings.limits := rfl

lemma inRange_override {around : Settings.Surroundings} {request : Arguments} {loaded : Settings}
    (hload : Settings.load around request.config = .ok loaded) :
    (override loaded request).limits.InRange := by
  rw [limits_override]
  exact Settings.inRange_of_load hload

/-- Under limits in range there is a report on any expressions. -/
lemma report_eq_ok {expressions : List String} (hlimits : settings.limits.InRange)
    (hlength : ∀ e ∈ expressions, e.length < writableBound) :
    ∃ bs, report settings expressions = .ok (Report.ofBlocks bs) ∧
      List.Forall₂ (fun e b => block settings e = .ok b ∧ Shows settings e b.output ∧
        ∃ c, compute settings.limits e = .ok c ∧ b.succeeded = c.succeeded) expressions bs := by
  obtain ⟨bs, hbs, hall⟩ := exists_blocks fun e he => exists_block hlimits (hlength e he)
  refine ⟨bs, ?_, hall⟩
  rw [report, hbs]
  rfl

/-- How a run ends that computes the given expressions. -/
def outcomeOf (settings : Settings) (expressions : List String) : Outcome :=
  match report settings expressions with
  | .ok report => .reported settings report
  | .error failure => .interrupted failure

/-- The status tells of failures. -/
lemma status_outcomeOf_eq_one_iff {expressions : List String}
    (hlimits : settings.limits.InRange) (hlength : ∀ e ∈ expressions, e.length < writableBound) :
    (outcomeOf settings expressions).status = 1 ↔
      ∃ e ∈ expressions, ∃ c, compute settings.limits e = .ok c ∧ c.succeeded = false := by
  obtain ⟨bs, hreport, hall⟩ := report_eq_ok hlimits hlength
  rw [outcomeOf, hreport]
  show (Report.ofBlocks bs).status = 1 ↔ _
  rw [status_ofBlocks_eq_one_iff]
  exact exists_failed_iff (hall.imp fun e b h => h.2.2)

variable {around : Settings.Surroundings} {arguments : List String} {request : Arguments}
  {loaded : Settings}

/-- Expressions among the arguments leave the input alone. -/
lemma run_of_expressions (hrequest : Request.ofArguments arguments = .ok (.compute request))
    (hexpressions : request.expressions ≠ [])
    (hload : Settings.load around request.config = .ok loaded) (input : String) :
    run around arguments input = outcomeOf (override loaded request) request.expressions := by
  have hsome : request.expressions.isEmpty = false := List.isEmpty_eq_false_iff.2 hexpressions
  simp only [run, hrequest, hload, computeAll, hsome, Bool.false_eq_true, if_false]
  rfl

/-- A run on expressions that are among the arguments, under settings that can be loaded, always reports.
Its output is one block after another, each of which is that of an expression; its status is 1 if a
computation has failed, and 0 otherwise. -/
theorem run_eq_reported
    (hrequest : Request.ofArguments arguments = .ok (.compute request))
    (hexpressions : request.expressions ≠ [])
    (hload : Settings.load around request.config = .ok loaded)
    (hlength : ∀ e ∈ request.expressions, e.length < writableBound) (input : String) :
    ∃ bs,
      run around arguments input = .reported (override loaded request) (Report.ofBlocks bs) ∧
      List.Forall₂ (fun e b => block (override loaded request) e = .ok b ∧
        Shows (override loaded request) e b.output) request.expressions bs ∧
      (run around arguments input).output = String.join (bs.map Block.output) ∧
      ((run around arguments input).status = 0 ∨ (run around arguments input).status = 1) ∧
      ((run around arguments input).status = 1 ↔
        ∃ e ∈ request.expressions, ∃ c,
          compute loaded.limits e = .ok c ∧ c.succeeded = false) := by
  have hlimits : (override loaded request).limits.InRange := inRange_override hload
  obtain ⟨bs, hreport, hall⟩ := report_eq_ok hlimits hlength
  have houtcome := run_of_expressions hrequest hexpressions hload input
  have hrun : run around arguments input =
      .reported (override loaded request) (Report.ofBlocks bs) := by
    rw [houtcome, outcomeOf, hreport]
  refine ⟨bs, hrun, hall.imp fun e b h => ⟨h.1, h.2.1⟩, ?_, ?_, ?_⟩
  · rw [hrun]
    rfl
  · rw [hrun]
    exact status_ofBlocks_eq_zero_or_one bs
  · rw [houtcome]
    exact status_outcomeOf_eq_one_iff hlimits hlength

/-- Surroundings without files, where the exponent has a limit of its own. -/
def sampleSurroundings : Settings.Surroundings where
  env name := if name = "CALCULETTE_MAX_EXPONENT" then some " 3 " else none
  file _ := .error .missing

/-- Two expressions, between an option in full and a shortened one. -/
def sampleArguments : List String :=
  ["--tree", "2^3-1", "2^3)", "--post"]

/-- What the two expressions and the two options ask for. -/
def sampleRequest : Arguments :=
  { expressions := ["2^3-1", "2^3)"], showRpn := true, showTree := true }

/-- The second expression has no value, but it has a block. -/
theorem run_eq_reported_sample :
    (Request.ofArguments sampleArguments = .ok (.compute sampleRequest) ∧
      sampleRequest.expressions ≠ [] ∧
      Settings.load sampleSurroundings sampleRequest.config =
        .ok { limits := { exponent := 3 } } ∧
      ∀ e ∈ sampleRequest.expressions, e.length < writableBound) ∧
    ∃ bs : List Block,
      (run sampleSurroundings sampleArguments "").output = String.join (bs.map Block.output) ∧
      List.Forall₂ (Shows (override { limits := { exponent := 3 } } sampleRequest))
        ["2^3-1", "2^3)"] (bs.map Block.output) ∧
      (run sampleSurroundings sampleArguments "").status = 1 := by
  have hrequest : Request.ofArguments sampleArguments = .ok (.compute sampleRequest) := rfl
  have hload : Settings.load sampleSurroundings sampleRequest.config =
      .ok { limits := { exponent := 3 } } := rfl
  have hlength : ∀ e ∈ sampleRequest.expressions, e.length < writableBound := by decide +kernel
  have hfailed : compute { exponent := 3 } "2^3)" =
      .ok ⟨"2^3)", .error ⟨.unmatchedClose, some 3, some "2^3)"⟩⟩ := rfl
  refine ⟨⟨hrequest, by decide, hload, hlength⟩, ?_⟩
  obtain ⟨bs, -, hall, houtput, -, hstatus⟩ :=
    run_eq_reported hrequest (by decide) hload hlength ""
  refine ⟨bs, houtput, ?_, hstatus.2 ⟨"2^3)", by decide, _, hfailed, rfl⟩⟩
  rw [List.forall₂_map_right_iff]
  exact hall.imp fun e b h => h.2

end InfixCalculator.CommandLine
