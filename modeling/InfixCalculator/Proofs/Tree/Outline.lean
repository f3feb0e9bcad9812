import InfixCalculator.Proofs.Computation.InlineText
import InfixCalculator.Proofs.Tree.Counting

/-!
# Outlines

The outline of a tree has a line for each leaf and each node, in preorder: the label of what stands
there, behind two spaces for every level (`splitOn_outline`).  Where levels are below zero there are no
spaces, so the shape of the tree cannot be seen from them.  But the label tells a leaf from a node, and
hence how many operands are to follow.  So the lines of a tree are told from the lines after them
(`unplaced_eq_of_lines_append`), and an outline belongs to one tree only, but for the positions
(`outline_faithful`).
-/

namespace InfixCalculator.Tree

/-- The tree and the trees within it with their depths, each before its operands. -/
def preorder (depth : ℕ) : Tree → List (ℕ × Tree)
  | leaf text position => [(depth, leaf text position)]
  | node op text position left right =>
    (depth, node op text position left right) ::
      (left.preorder (depth + 1) ++ right.preorder (depth + 1))

/-- What the outline tells about the root of a tree. -/
def label : Tree → String
  | leaf text _ => "Number: " ++ text
  | node _ text _ _ _ => "BinaryOp: " ++ text

/-- The line of a tree that is found at a depth. -/
def line (level : ℤ) (entry : ℕ × Tree) : List Char :=
  List.replicate (2 * (max 0 (level + entry.1)).toNat) ' ' ++ entry.2.label.toList

/-- The literals of the tree hold no line feed. -/
def Unbroken : Tree → Prop
  | leaf text _ => '\n' ∉ text.toList
  | node _ _ _ left right => left.Unbroken ∧ right.Unbroken

variable {t t' : Tree} {level : ℤ} {depth : ℕ}

/-! ## Lines -/

lemma length_preorder (t : Tree) (depth : ℕ) : (t.preorder depth).length = t.size := by
  induction t generalizing depth with
  | leaf text position => rfl
  | node op text position left right ihl ihr =>
    rw [preorder, size, List.length_cons, List.length_append, ihl, ihr]
    omega

/-- No label begins with a space. -/
lemma takeWhile_line (level : ℤ) (entry : ℕ × Tree) :
    (line level entry).takeWhile (· == ' ') =
      List.replicate (2 * (max 0 (level + entry.1)).toNat) ' ' := by
  have hlabel : entry.2.label.toList.takeWhile (· == ' ') = [] := by
    cases entry.2 with
    | leaf text position => rw [label, String.toList_append]; rfl
    | node op text position left right => rw [label, String.toList_append]; rfl
  have hspaces : ∀ c ∈ List.replicate (2 * (max 0 (level + entry.1)).toNat) ' ',
      (c == ' ') = true := by
    intro c hc
    rw [List.eq_of_mem_replicate hc, beq_self_eq_true]
  rw [line, List.takeWhile_append_of_pos hspaces, hlabel, List.append_nil]

lemma line_eq (level : ℤ) (depth : ℕ) (t : Tree) :
    line level (depth, t) = (indentation (level + depth) ++ t.label).toList := by
  have hmax : (max 0 (level + depth)).toNat = (level + depth).toNat := by omega
  rw [line, hmax, String.toList_append, indentation, String.toList_ofList]

lemma notMem_label (hs : t.Symbolic) (hu : t.Unbroken) : '\n' ∉ t.label.toList := by
  have hnumber : '\n' ∉ "Number: ".toList := by decide
  have hoperation : '\n' ∉ "BinaryOp: ".toList := by decide
  cases t with
  | leaf text position =>
    rw [label, String.toList_append]
    exact fun h => (List.mem_append.1 h).elim hnumber hu
  | node op text position left right =>
    obtain ⟨rfl, -, -⟩ := hs
    have hsymbol : '\n' ∉ (String.singleton op.symbol).toList := by cases op <;> decide
    rw [label, String.toList_append]
    exact fun h => (List.mem_append.1 h).elim hoperation hsymbol

lemma splitOn_line (hs : t.Symbolic) (hu : t.Unbroken) :
    (line level (depth, t)).splitOn '\n' = [line level (depth, t)] := by
  refine List.splitOn_eq_singleton fun h => (List.mem_append.1 h).elim ?_ (notMem_label hs hu)
  exact fun hspace => absurd (List.eq_of_mem_replicate hspace) (by decide)

/-- An outline has a line for each tree within the tree. -/
lemma splitOn_outline (hs : t.Symbolic) (hu : t.Unbroken) (level : ℤ) (depth : ℕ) :
    (t.outline (level + depth)).toList.splitOn '\n' = (t.preorder depth).map (line level) := by
  induction t generalizing depth with
  | leaf text position =>
    have hline : ((leaf text position).outline (level + depth)).toList =
        line level (depth, leaf text position) := by
      rw [line_eq, outline, label, String.append_assoc]
    rw [hline, splitOn_line hs hu, preorder, List.map_singleton]
  | node op text position left right ihl ihr =>
    have hlines : ((node op text position left right).outline (level + depth)).toList =
        line level (depth, node op text position left right) ++ '\n' ::
          ((left.outline (level + (depth + 1 : ℕ))).toList ++ '\n' ::
            (right.outline (level + (depth + 1 : ℕ))).toList) := by
      have hbreak : "\n".toList = ['\n'] := rfl
      rw [line_eq, outline, label, Int.natCast_add, Int.natCast_one, ← Int.add_assoc]
      simp only [String.toList_append, hbreak, List.append_assoc, List.cons_append,
        List.nil_append]
    obtain ⟨-, hsl, hsr⟩ := id hs
    obtain ⟨hul, hur⟩ := id hu
    rw [hlines, List.splitOn_append_cons_self, List.splitOn_append_cons_self, splitOn_line hs hu,
      ihl hsl hul, ihr hsr hur, preorder, List.map_cons, List.map_append, List.singleton_append]

/-! ## Reading an outline -/

lemma label_eq_of_line_eq (h : line level (depth, t) = line level (depth, t')) :
    t.label = t'.label :=
  String.toList_inj.1 (List.append_cancel_left h)

/-- The label of a leaf is not that of a node. -/
lemma number_ne_operation (text text' : String) : "Number: " ++ text ≠ "BinaryOp: " ++ text' := by
  intro h
  have hlist := congrArg String.toList h
  simp at hlist

/-- The lines of a tree tell where they end, and which tree they belong to. -/
lemma unplaced_eq_of_lines_append (hs : t.Symbolic) (hs' : t'.Symbolic) {rest rest' : List (List Char)}
    (h : (t.preorder depth).map (line level) ++ rest = (t'.preorder depth).map (line level) ++ rest') :
    t.unplaced = t'.unplaced ∧ rest = rest' := by
  induction t generalizing t' depth rest rest' with
  | leaf text position =>
    cases t' with
    | leaf text' position' =>
      simp only [preorder, List.map_cons, List.map_nil, List.cons_append, List.nil_append,
        List.cons.injEq] at h
      obtain ⟨hline, hrest⟩ := h
      have htext : text = text' :=
        (String.append_right_inj _).1 (label_eq_of_line_eq hline)
      exact ⟨by rw [htext, unplaced, unplaced], hrest⟩
    | node op' text' position' left' right' =>
      simp only [preorder, List.map_cons, List.cons_append, List.cons.injEq] at h
      exact absurd (label_eq_of_line_eq h.1) (number_ne_operation _ _)
  | node op text position left right ihl ihr =>
    cases t' with
    | leaf text' position' =>
      simp only [preorder, List.map_cons, List.cons_append, List.cons.injEq] at h
      exact absurd (label_eq_of_line_eq h.1).symm (number_ne_operation _ _)
    | node op' text' position' left' right' =>
      obtain ⟨rfl, hsl, hsr⟩ := hs
      obtain ⟨rfl, hsl', hsr'⟩ := hs'
      simp only [preorder, List.map_cons, List.map_append, List.cons_append, List.append_assoc,
        List.cons.injEq] at h
      obtain ⟨hline, hrest⟩ := h
      have hsymbol : op.symbol = op'.symbol := by
        have htext := (String.append_right_inj _).1 (label_eq_of_line_eq hline)
        simpa using congrArg String.toList htext
      have hop : op = op' := by
        have hread := congrArg Operator.ofSymbol? hsymbol
        simpa using hread
      -- the lines after those of the left operand are those of the right one and the rest
      obtain ⟨hleft, hrest⟩ := ihl hsl hsl' hrest
      obtain ⟨hright, hrest⟩ := ihr hsr hsr' hrest
      exact ⟨by rw [unplaced, unplaced, hop, hleft, hright], hrest⟩

/-- If operators are written as their symbols and literals hold no line feed, the outline of a tree has as
many lines as the tree has leaves and nodes.  They are the lines of these in preorder, and each begins
with exactly two spaces for every level at or above zero.  Trees that have the same outline at the same
level are the same but for their positions. -/
theorem outline_faithful (hs : t.Symbolic) (hu : t.Unbroken) (level : ℤ) :
    (t.outline level).toList.splitOn '\n' = (t.preorder 0).map (line level) ∧
      ((t.outline level).toList.splitOn '\n').length = t.size ∧
      (∀ entry ∈ t.preorder 0, (line level entry).takeWhile (· == ' ') =
        List.replicate (2 * (max 0 (level + entry.1)).toNat) ' ') ∧
      ∀ t' : Tree, t'.Symbolic → t'.Unbroken → t.outline level = t'.outline level →
        t.unplaced = t'.unplaced := by
  have hlines {u : Tree} (hs : u.Symbolic) (hu : u.Unbroken) :
      (u.outline level).toList.splitOn '\n' = (u.preorder 0).map (line level) := by
    simpa using splitOn_outline hs hu level 0
  refine ⟨hlines hs hu, ?_, fun entry _ => takeWhile_line level entry, fun t' hs' hu' h => ?_⟩
  · rw [hlines hs hu, List.length_map, length_preorder]
  · have hsame : (t.preorder 0).map (line level) ++ [] = (t'.preorder 0).map (line level) ++ [] := by
      rw [← hlines hs hu, ← hlines hs' hu', h]
    exact (unplaced_eq_of_lines_append hs hs' hsame).1

/-- Below zero there are no spaces.  The outline of `(2-3)-4` is that of the same tree at other positions,
and not that of `2-(3-4)`. -/
theorem outline_faithful_sample :
    let t := node .sub "-" 3 (node .sub "-" 1 (leaf "2" 0) (leaf "3" 2)) (leaf "4" 4)
    let moved := node .sub "-" 7 (node .sub "-" 3 (leaf "2" 1) (leaf "3" 5)) (leaf "4" 9)
    let other := node .sub "-" 1 (leaf "2" 0) (node .sub "-" 3 (leaf "3" 2) (leaf "4" 4))
    (t.Symbolic ∧ t.Unbroken) ∧ ((t.outline (-5)).toList.splitOn '\n').length = 5 ∧
      (t.outline (-5) = moved.outline (-5) ∧ t.unplaced = moved.unplaced) ∧
      t.outline (-5) ≠ other.outline (-5) := by
  intro t moved other
  have hs : t.Symbolic := by simp only [t, Symbolic]; decide
  have hu : t.Unbroken := by simp only [t, Unbroken]; decide
  have hsame : t.outline (-5) = moved.outline (-5) := by decide
  obtain ⟨-, hlength, -, hunique⟩ := outline_faithful hs hu (-5)
  refine ⟨⟨hs, hu⟩, hlength, ⟨hsame, hunique moved ?_ ?_ hsame⟩, fun hother => ?_⟩
  · simp only [moved, Symbolic]
    decide
  · simp only [moved, Unbroken]
    decide
  · have hequal := hunique other (by simp only [other, Symbolic]; decide)
      (by simp only [other, Unbroken]; decide) hother
    exact absurd hequal (by decide)

end InfixCalculator.Tree
