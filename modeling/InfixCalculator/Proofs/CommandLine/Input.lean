import InfixCalculator.Proofs.CommandLine.Blocks

/-!
# Expressions on lines of the input

Without expressions among its arguments, a run takes them from the lines of its input and treats them
as if they had been arguments (`run_textOf`).  Lines of white space are left out.  It does not matter by
what the lines end in the stream that the input is read from (`readInput_join`).

White space is the wider class of blanks here, not that of the separators between tokens.  So every
blank line is left out, but so is a line of spaces that no expression may contain, such as a no-break
space, although it would be an error as an argument (`not_forall_run_textOf`).
-/

namespace InfixCalculator.CommandLine

open Numeral (writableBound)

variable {lines : List String}

/-! ## Lines -/

/-- The text of some lines, each ended by a line feed. -/
def textOf (lines : List String) : String :=
  String.join (lines.map asLine)

/-- The lines that hold an expression. -/
def inkedLines (lines : List String) : List String :=
  lines.filter fun line => !Text.isAllSpace line

lemma toList_textOf_cons (line : String) (rest : List String) :
    (textOf (line :: rest)).toList = line.toList ++ '\n' :: (textOf rest).toList := by
  simp [textOf, asLine, String.toList_join]

lemma linesOf_append {line : List Char} (h : '\n' ∉ line) (rest : List Char) :
    linesOf (line ++ '\n' :: rest) = line :: linesOf rest := by
  induction line with
  | nil => rfl
  | cons c line ih =>
    obtain ⟨hc, hline⟩ := List.ne_and_not_mem_of_not_mem_cons h
    have hne : (c == '\n') = false := beq_eq_false_iff_ne.2 (Ne.symm hc)
    rw [List.cons_append, linesOf, hne, if_neg Bool.false_ne_true, ih hline]

/-- A text has the lines that it was made of. -/
lemma linesOf_textOf (h : ∀ line ∈ lines, '\n' ∉ line.toList) :
    linesOf (textOf lines).toList = lines.map String.toList := by
  induction lines with
  | nil => rfl
  | cons line rest ih =>
    obtain ⟨hline, hrest⟩ := List.forall_mem_cons.1 h
    rw [toList_textOf_cons, linesOf_append hline, ih hrest, List.map_cons]

lemma inputExpressions_textOf (h : ∀ line ∈ lines, '\n' ∉ line.toList) :
    inputExpressions (textOf lines) = inkedLines lines := by
  rw [inputExpressions, linesOf_textOf h, List.filter_map, List.map_map]
  have hid : String.ofList ∘ String.toList = id := funext fun line => String.ofList_toList
  rw [hid, List.map_id]
  rfl

/-- A blank line holds nothing but white space. -/
lemma isAllSpace_of_isBlank {line : String} (h : Token.isBlank line = true) :
    Text.isAllSpace line = true := by
  rw [Token.isBlank, List.all_eq_true] at h
  rw [Text.isAllSpace, List.all_eq_true]
  exact fun c hc => Text.isSpace_of_isSeparator (h c hc)

/-- No more than the blank lines are left out exactly if there is no other line of white space. -/
lemma inkedLines_eq_filter_iff :
    inkedLines lines = lines.filter (!Token.isBlank ·) ↔
      ∀ line ∈ lines, Text.isAllSpace line = true → Token.isBlank line = true := by
  constructor
  · intro h line hline hspace
    by_contra hblank
    have hmem : line ∈ inkedLines lines := by
      rw [h]
      exact List.mem_filter.2 ⟨hline, by simpa using hblank⟩
    have hink := (List.mem_filter.1 hmem).2
    rw [hspace] at hink
    exact absurd hink (by simp)
  · intro h
    refine List.filter_congr fun line hline => ?_
    have hiff : Text.isAllSpace line = true ↔ Token.isBlank line = true :=
      ⟨h line hline, isAllSpace_of_isBlank⟩
    rw [Bool.eq_iff_iff.2 hiff]

/-! ## Line ends -/

/-- What may end the lines of a stream. -/
def lineEnds : List String := ["\n", "\r\n", "\r"]

/-- What has no carriage return is read as it is. -/
lemma normalizeLines_append {s : List Char} (h : '\r' ∉ s) (rest : List Char) :
    Text.normalizeLines (s ++ rest) = s ++ Text.normalizeLines rest := by
  induction s with
  | nil => rfl
  | cons c s ih =>
    obtain ⟨hc, hs⟩ := List.ne_and_not_mem_of_not_mem_cons h
    rw [List.cons_append, Text.normalizeLines_cons_of_ne hc.symm, ih hs, List.cons_append]

/-- Every line end is read as a line feed, a carriage return only if no line feed comes next. -/
lemma normalizeLines_lineEnd {ending : String} (hending : ending ∈ lineEnds) {rest : List Char}
    (hrest : ending = "\r" → rest.head? ≠ some '\n') :
    Text.normalizeLines (ending.toList ++ rest) = '\n' :: Text.normalizeLines rest := by
  simp only [lineEnds, List.mem_cons, List.not_mem_nil, or_false] at hending
  rcases hending with rfl | rfl | rfl
  · exact Text.normalizeLines_cons_of_ne (by decide) rest
  · rfl
  · exact Text.normalizeLines_cons_return (hrest rfl)

/-- Where all lines end with carriage returns there is no line feed. -/
lemma notMem_join_return (h : ∀ line ∈ lines, '\n' ∉ line.toList) :
    '\n' ∉ (String.join (lines.map (· ++ "\r"))).toList := by
  rw [String.toList_join, List.mem_flatMap]
  rintro ⟨text, htext, hfeed⟩
  obtain ⟨line, hline, rfl⟩ := List.mem_map.1 htext
  rw [String.toList_append, List.mem_append] at hfeed
  rcases hfeed with hfeed | hfeed
  · exact h line hline hfeed
  · exact absurd hfeed (by decide)

/-- A stream of lines that all have the same end is read as the text of these lines. -/
theorem readInput_join {ending : String} (hending : ending ∈ lineEnds)
    (hlines : ∀ line ∈ lines, '\n' ∉ line.toList ∧ '\r' ∉ line.toList) :
    readInput (String.join (lines.map (· ++ ending))) = textOf lines := by
  have hread : Text.normalizeLines (String.join (lines.map (· ++ ending))).toList =
      (textOf lines).toList := by
    induction lines with
    | nil => rfl
    | cons line rest ih =>
      obtain ⟨⟨-, hreturn⟩, hrest⟩ := List.forall_mem_cons.1 hlines
      have hnext : ending = "\r" →
          (String.join (rest.map (· ++ ending))).toList.head? ≠ some '\n' := by
        rintro rfl hhead
        exact notMem_join_return (fun line hline => (hrest line hline).1) (List.mem_of_head? hhead)
      have hstream : (String.join ((line :: rest).map (· ++ ending))).toList =
          line.toList ++ (ending.toList ++ (String.join (rest.map (· ++ ending))).toList) := by
        simp [String.toList_join]
      rw [hstream, normalizeLines_append hreturn, normalizeLines_lineEnd hending hnext, ih hrest,
        toList_textOf_cons]
  rw [readInput, hread, String.ofList_toList]

/-! ## Runs -/

variable {around : Settings.Surroundings} {arguments : List String} {request : Arguments}
  {loaded : Settings}

/-- Without expressions among the arguments, the input is read. -/
lemma run_of_input (hrequest : Request.ofArguments arguments = .ok (.compute request))
    (hnone : request.expressions = [])
    (hload : Settings.load around request.config = .ok loaded) (input : String) :
    run around arguments input = outcomeOf (override loaded request) (inputExpressions input) := by
  simp only [run, hrequest, hload, computeAll, hnone, List.isEmpty_nil, if_true]
  rfl

/-- A run on lines is one on the lines that hold an expression, as if these were its arguments.  They are
all lines that are not blank, unless a line of other white space is among them. -/
theorem run_textOf (hrequest : Request.ofArguments arguments = .ok (.compute request))
    (hnone : request.expressions = [])
    (hload : Settings.load around request.config = .ok loaded)
    (hlines : ∀ line ∈ lines, '\n' ∉ line.toList) :
    run around arguments (textOf lines) =
        outcomeOf (override loaded request) (inkedLines lines) ∧
      (∀ arguments' input, inkedLines lines ≠ [] →
        Request.ofArguments arguments' =
            .ok (.compute { request with expressions := inkedLines lines }) →
          run around arguments' input = run around arguments (textOf lines)) ∧
      (inkedLines lines = lines.filter (!Token.isBlank ·) ↔
        ∀ line ∈ lines, Text.isAllSpace line = true → Token.isBlank line = true) ∧
      ((∀ line ∈ inkedLines lines, line.length < writableBound) →
        ((run around arguments (textOf lines)).status = 1 ↔
          ∃ line ∈ inkedLines lines, ∃ c,
            compute loaded.limits line = .ok c ∧ c.succeeded = false)) := by
  have hrun : run around arguments (textOf lines) =
      outcomeOf (override loaded request) (inkedLines lines) := by
    rw [run_of_input hrequest hnone hload, inputExpressions_textOf hlines]
  refine ⟨hrun, fun arguments' input hsome hrequest' => ?_, inkedLines_eq_filter_iff,
    fun hlength => ?_⟩
  · rw [hrun, run_of_expressions hrequest' hsome hload]
    rfl
  · rw [hrun]
    exact status_outcomeOf_eq_one_iff (inRange_override hload) hlength

/-- Surroundings without files and variables. -/
def bareSurroundings : Settings.Surroundings where
  env _ := none
  file _ := .error .missing

/-- The second line is white space, though it is not blank. -/
theorem run_textOf_sample :
    (Request.ofArguments ["--tree"] = .ok (.compute { showTree := true }) ∧
      Settings.load bareSurroundings none = .ok {} ∧
      ∀ line ∈ ["1+2", "\u000b", "2)"], '\n' ∉ line.toList) ∧
    run bareSurroundings ["--tree"] (textOf ["1+2", "\u000b", "2)"]) =
        outcomeOf { showTree := true } ["1+2", "2)"] ∧
      (run bareSurroundings ["--tree"] (textOf ["1+2", "\u000b", "2)"])).status = 1 := by
  have hrequest : Request.ofArguments ["--tree"] = .ok (.compute { showTree := true }) := rfl
  have hload : Settings.load bareSurroundings none = .ok {} := rfl
  have hlines : ∀ line ∈ ["1+2", "\u000b", "2)"], '\n' ∉ line.toList := by decide
  have hfailed : compute {} "2)" =
      .ok ⟨"2)", .error ⟨.unmatchedClose, some 1, some "2)"⟩⟩ := rfl
  have hinked : inkedLines ["1+2", "\u000b", "2)"] = ["1+2", "2)"] := by decide
  obtain ⟨hrun, -, -, hstatus⟩ := run_textOf hrequest rfl hload hlines
  rw [hinked] at hrun hstatus
  exact ⟨⟨hrequest, hload, hlines⟩, hrun,
    (hstatus (by decide +kernel)).2 ⟨"2)", by decide, _, hfailed, rfl⟩⟩

/-- A line that is not blank may be left out, and then its error does not show in the status. -/
theorem not_forall_run_textOf :
    ¬∀ lines : List String, (∀ line ∈ lines, '\n' ∉ line.toList ∧ '\r' ∉ line.toList) →
      (run bareSurroundings [] (textOf lines)).output =
          (outcomeOf {} (lines.filter (!Token.isBlank ·))).output ∧
        (run bareSurroundings [] (textOf lines)).status =
          (outcomeOf {} (lines.filter (!Token.isBlank ·))).status := by
  intro h
  obtain ⟨-, hstatus⟩ := h ["\u00a0"] (by decide)
  have hleft : (run bareSurroundings [] (textOf ["\u00a0"])).status = 0 := rfl
  have hright : (outcomeOf {} (["\u00a0"].filter (!Token.isBlank ·))).status = 1 := rfl
  rw [hleft, hright] at hstatus
  exact absurd hstatus (by decide)

end InfixCalculator.CommandLine
