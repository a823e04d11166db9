import Transclude.Proofs.Replacement

/-!
# Bodies stay inside their fence

A fence at the margin of a document, indented by at most three spaces and in no container, ends
at the first line that closes it. Whatever body a patch puts into such a block, no line of it
does: the fence is longer than every run of its character in the body. The line after the body
still closes the fence, and without the indentation of the fence the body lines are the lines of
the new body. So a reader that goes by these rules finds the new body, and the end of the block
behind it.

* `Markdown.IsClosingLine`: the lines that close a fence at the margin;
* `CodeBlock.MarginFence`: a block at the margin and the lines of its document;
* `CodeBlock.MarginFence.encloses`: what a patch makes of these lines.
-/

namespace Transclude

open Markdown (IsFenceChar Blanks)
open Replacement (valueLines fitSize)

variable {t v line : Text} {d : Char} {n k : Nat}

/-! ## Lines at the margin -/

namespace Markdown

/-- A line that closes a fence of `n` characters `d` at the margin: at most three spaces, a run
    that is at least as long, and blanks. -/
def IsClosingLine (d : Char) (n : Nat) (line : Text) : Prop :=
  ∃ j m rest, j ≤ 3 ∧ n ≤ m ∧ Blanks rest ∧
    line = Text.spaces j ++ (List.replicate m d ++ rest)

/-- A line without the spaces at its start, as many of `k` as there are. -/
def dropSpaces : (k : Nat) → Text → Text
  | k + 1, ' ' :: t => dropSpaces k t
  | _, t => t

theorem dropSpaces_spaces_append (k : Nat) (t : Text) : dropSpaces k (Text.spaces k ++ t) = t := by
  induction k with
  | zero => cases t <;> rfl
  | succ k ih => exact ih

theorem dropSpaces_nil (k : Nat) : dropSpaces k [] = [] := by
  cases k <;> rfl

/-- The run of a closing line is what its content starts with. -/
theorem IsClosingLine.le_length (h : IsClosingLine d n line) (hd : IsFenceChar d) :
    n ≤ ((solid line).takeWhile (· = d)).length := by
  obtain ⟨j, m, rest, -, hm, hrest, rfl⟩ := h
  cases m with
  | zero => omega
  | succ m =>
    have hhead : rest.head? ≠ some d := hd.head?_ne_of_blanks hrest
    have hsolid : solid (Text.spaces j ++ (List.replicate (m + 1) d ++ rest)) =
        List.replicate (m + 1) d ++ rest := by
      rw [solid, dropWhile_append (blanks_spaces j), List.replicate_succ, List.cons_append]
      exact solid_of_head hd.isSpaceOrTab
    rw [hsolid, Fence.takeWhile_append hhead, List.length_replicate]
    exact hm

/-- A line with too short a run does not close a fence, whatever its container. -/
theorem Fence.closes_eq_false_of_lt {margin : Fence.Margin} {l : Line} (hd : IsFenceChar d)
    (hn : 0 < n) (h : (l.content.takeWhile (· = d)).length < n) :
    Fence.closes margin (List.replicate n d) l = false := by
  rw [Bool.eq_false_iff, ne_eq, Fence.closes_iff hd hn]
  rintro ⟨-, k, t, hk, hcontent, ht⟩
  have hhead : t.head? ≠ some d := hd.head?_ne_of_blanks ht
  rw [hcontent, Fence.takeWhile_append hhead, List.length_replicate] at h
  omega

theorem contentColumn_spaces_append (j : Nat) {r : Text} (hr : StartsFence r) :
    contentColumn 0 0 (Text.spaces j ++ r) = j := by
  obtain ⟨d, r, hd, rfl⟩ := hr
  rw [contentColumn_append (blanks_spaces j), contentColumn_spaces,
    contentColumn_of_not_blank hd.isSpaceOrTab, Int.zero_add]

/-- No line that a line break ends leaves the document. -/
theorem endsContainer_ofPiece (m : Nat) (line : Text) :
    Fence.endsContainer 0 (.ofPiece m line true) = false := by
  rw [Fence.endsContainer]
  split
  · rfl
  · exact decide_eq_false (Int.not_lt.2 (le_contentColumn 0 0 line))

/-- A closing line is more than blanks, and closes the fence. -/
theorem IsClosingLine.closes (h : IsClosingLine d n line) (hd : IsFenceChar d) (hn : 0 < n)
    (m : Nat) (isEnded : Bool) : line.all Text.isSpaceOrTab = false ∧
      Fence.endsContainer 0 (.ofPiece m line isEnded) = false ∧
        Fence.closes 0 (List.replicate n d) (.ofPiece m line isEnded) := by
  obtain ⟨j, k, rest, hj, hk, hrest, rfl⟩ := h
  have hmem : d ∈ List.replicate k d ++ rest :=
    List.mem_append_left _ (List.mem_replicate.2 ⟨by omega, rfl⟩)
  have hstarts : StartsFence (List.replicate k d ++ rest) :=
    Exchange.startsFence_replicate hd (by omega)
  have hcontent : (Line.ofPiece m (Text.spaces j ++ (List.replicate k d ++ rest))
      isEnded).content = List.replicate k d ++ rest :=
    (dropWhile_append (blanks_spaces j)).trans hstarts.solid
  refine ⟨Edit.all_isSpaceOrTab_of_mem hd (List.mem_append_right _ hmem), ?_, ?_⟩
  · rw [Fence.endsContainer, if_neg]
    · exact decide_eq_false (Int.not_lt.2 (le_contentColumn 0 0 _))
    · rw [Line.isEmpty, hcontent]
      exact ne_true_of_eq_false (List.isEmpty_eq_false_iff.2 (List.ne_nil_of_mem hmem))
  · have hindent : (Line.ofPiece m (Text.spaces j ++ (List.replicate k d ++ rest))
        isEnded).indent = j := contentColumn_spaces_append j hstarts
    rw [Fence.closes_iff hd hn, Fence.isIndented, hindent]
    exact ⟨decide_eq_false (by omega), k, rest, hk, hcontent, hrest⟩

theorem exists_of_mem_numberLines {l : Line} {ps : List Text} (h : l ∈ numberLines true n ps) :
    ∃ m, ∃ p ∈ ps, l = .ofPiece m p true := by
  induction ps generalizing n with
  | nil => exact absurd h List.not_mem_nil
  | cons p ps ih =>
    rw [numberLines, List.mem_cons] at h
    rcases h with rfl | h
    · exact ⟨n, p, List.mem_cons_self, rfl⟩
    · obtain ⟨m, q, hq, hl⟩ := ih h
      exact ⟨m, q, List.mem_cons_of_mem p hq, hl⟩

theorem map_dropColumns_numberLines (endLast : Bool) (n : Nat) (width : Int) (ps : List Text) :
    (numberLines endLast n ps).map (·.dropColumns width) =
      ps.map (dropColumnsFrom 0 width 0) := by
  induction ps generalizing n with
  | nil => rfl
  | cons p ps ih =>
    rw [numberLines, List.map_cons, List.map_cons, ih]
    rfl

end Markdown

/-! ## Blocks at the margin -/

namespace CodeBlock

/-- A closed code block at the margin, and the lines of its document: the opening line is an
    indentation of at most three spaces, a run of fence characters and an info text, the closing
    line an indentation of at most three spaces, a run that is at least as long, and blanks. -/
structure MarginFence (ls : List Text) (b : CodeBlock) where
  fence : Char
  isFenceChar : IsFenceChar fence
  /-- How many spaces the opening line starts with. -/
  indent : Nat
  indent_le : indent ≤ 3
  /-- How long the run of fence characters is. -/
  size : Nat
  size_le : 3 ≤ size
  info : Text
  info_head : info.head? ≠ some fence
  /-- The lines before the block, its body lines, and those after it. -/
  before : List Text
  old : List Text
  after : List Text
  /-- The closing line. -/
  closing : Text
  isClosing : Markdown.IsClosingLine fence size closing
  lines : ls = before ++ (Text.spaces indent ++ (List.replicate size fence ++ info)) ::
    (old ++ closing :: after)
  startLine : b.startLine = before.length
  endLine : b.endLine = before.length + old.length + 2
  isClosed : b.isClosed
  lead : b.lead = Text.spaces indent
  markup : b.markup = List.replicate size fence

namespace MarginFence

variable {b : CodeBlock} (h : b.MarginFence (Text.lines t))

/-- The length of the fence when the body is `v`. -/
def newSize (v : Text) : Nat :=
  fitSize h.fence h.size v

/-- The opening line when the body is `v`. -/
def opening (v : Text) : Text :=
  Text.spaces h.indent ++ (List.replicate (h.newSize v) h.fence ++ h.info)

/-- The body lines when the body is `v`. -/
def body (v : Text) : List Text :=
  (valueLines v).map fun line => if line.isEmpty then [] else Text.spaces h.indent ++ line

theorem trimEnd_spaces (k : Nat) : Text.trimEnd Text.isBlank (Text.spaces k) = [] := by
  have hblank : ∀ c ∈ Text.spaces k, Text.isBlank c := fun c hc => by
    rw [List.eq_of_mem_replicate hc]
    decide
  have := Text.trimEnd_append (x := []) hblank nofun
  rwa [List.nil_append] at this

theorem bodyLines_eq_body (v : Text) : Replacement.bodyLines b.lead v = h.body v := by
  rw [Replacement.bodyLines, body, valueLines, h.lead, trimEnd_spaces]
  split <;> rfl

theorem not_mem_spaces (j : Nat) : h.fence ∉ Text.spaces j :=
  h.isFenceChar.not_mem_of_blanks (Markdown.blanks_spaces j)

theorem not_mem_replicate (m : Nat) : '\n' ∉ List.replicate m h.fence := fun hmem => by
  have := List.eq_of_mem_replicate hmem
  rcases h.isFenceChar with hd | hd <;> exact absurd (this.trans hd) (by decide)

theorem no_break (hline : line ∈ h.before ++ (Text.spaces h.indent ++
    (List.replicate h.size h.fence ++ h.info)) :: (h.old ++ h.closing :: h.after)) :
    '\n' ∉ line := by
  rw [← h.lines, Text.lines] at hline
  exact Text.not_mem_of_mem_splitAt hline

/-- The document with the body `v`: the fence is at least as long, and a closing line follows
    the body. -/
theorem exists_replace (v : Text) : ∃ closing,
    Markdown.IsClosingLine h.fence (h.newSize v) closing ∧ '\n' ∉ closing ∧
      Replacement.replace t [b.patch v] =
        .ok (Text.unlines (h.before ++ h.opening v :: (h.body v ++ closing :: h.after))) := by
  have hsize := h.size_le
  obtain ⟨j, m, rest, hj, hm, hrest, hclosing⟩ := h.isClosing
  have hstart : (b.patch v).start = h.before.length := congrArg Nat.cast h.startLine
  have hstop : (b.patch v).stop = h.before.length + h.old.length + 2 := by
    show (b.endLine : Int) = _
    rw [h.endLine]
    rfl
  have happly := Patch.apply_closed (by omega) (show 0 < m by omega) (h.not_mem_spaces h.indent)
    (h.not_mem_spaces j) hstart hstop h.isClosed h.markup h.info rest h.after
  have hbody : Replacement.bodyLines (b.patch v).lead (b.patch v).value = h.body v :=
    h.bodyLines_eq_body v
  rw [← hclosing, ← h.lines, hbody] at happly
  refine ⟨_, ?_, ?_, Replacement.replace_singleton happly⟩
  · show Markdown.IsClosingLine h.fence (fitSize h.fence h.size v)
      (if fitSize h.fence h.size v = h.size then _ else _)
    split
    · rename_i hsame
      rw [hsame]
      exact h.isClosing
    · exact ⟨j, _, [], hj, Nat.le_refl _, Markdown.blanks_nil, by rw [List.append_nil]; rfl⟩
  · have hline : '\n' ∉ h.closing := h.no_break (by simp)
    show '\n' ∉ if fitSize h.fence h.size v = h.size then _ else _
    split
    · exact hline
    · rw [hclosing, List.mem_append, not_or] at hline
      rw [List.mem_append, not_or]
      exact ⟨hline.1, h.not_mem_replicate _⟩

/-- What takes the indentation of the fence off a line, and leaves the empty line as it is, makes
    the lines of the body out of the body lines. -/
theorem map_body {f : Text → Text} (hempty : f [] = [])
    (hindented : ∀ line, f (Text.spaces h.indent ++ line) = line) (v : Text) :
    (h.body v).map f = valueLines v := by
  rw [body, List.map_map]
  refine (List.map_congr_left fun line _ => ?_).trans (List.map_id _)
  rw [Function.comp_apply]
  split
  · rename_i hline
    rw [List.isEmpty_iff.1 hline]
    exact hempty
  · exact hindented line

/-- The body lines, without the indentation of the fence, are the lines of the body. -/
theorem map_dropSpaces_body (v : Text) :
    (h.body v).map (Markdown.dropSpaces h.indent) = valueLines v :=
  h.map_body (Markdown.dropSpaces_nil _) (Markdown.dropSpaces_spaces_append _) v

/-- No run at the start of a body line reaches the length of the fence. -/
theorem lt_newSize (hline : line ∈ h.body v) :
    ((Markdown.solid line).takeWhile (· = h.fence)).length < h.newSize v := by
  obtain ⟨w, hw, rfl⟩ := List.mem_map.1 hline
  have hrun : ((Markdown.solid w).takeWhile (· = h.fence)).length < h.newSize v :=
    Replacement.lt_fitSize hw
  split
  · exact Nat.lt_of_le_of_lt (Nat.zero_le _) hrun
  · rwa [Markdown.solid, Markdown.dropWhile_append (Markdown.blanks_spaces _)]

/-- The new document line by line: no line of it but its breaks holds a line feed. -/
theorem no_break_of_mem {closing : Text} (hclosing : '\n' ∉ closing)
    (hline : line ∈ h.before ++ h.opening v :: (h.body v ++ closing :: h.after)) :
    '\n' ∉ line := by
  rw [List.mem_append, List.mem_cons, List.mem_append, List.mem_cons] at hline
  have hspaces (j : Nat) : '\n' ∉ Text.spaces j := fun hmem =>
    absurd (List.eq_of_mem_replicate hmem) (by decide)
  rcases hline with hline | rfl | hline | rfl | hline
  · exact h.no_break (by simp [hline])
  · have hopening : '\n' ∉ Text.spaces h.indent ++ (List.replicate h.size h.fence ++ h.info) :=
      h.no_break (by simp)
    rw [List.mem_append, List.mem_append, not_or, not_or] at hopening
    rw [opening, List.mem_append, List.mem_append, not_or, not_or]
    exact ⟨hopening.1, h.not_mem_replicate _, hopening.2.2⟩
  · obtain ⟨w, hw, rfl⟩ := List.mem_map.1 hline
    split
    · exact List.not_mem_nil
    · rw [List.mem_append, not_or]
      exact ⟨hspaces _, Replacement.no_break_of_mem_valueLines hw⟩
  · exact hclosing
  · exact h.no_break (by simp [hline])

/-! ## Reading the block again -/

theorem newSize_pos (v : Text) : 0 < h.newSize v :=
  Replacement.fitSize_pos (Nat.lt_of_lt_of_le (by decide) h.size_le)

/-- The fence goes on with every body line: at the margin no line leaves the container, and no
    run in the body is long enough. -/
theorem goesOn_body {v : Text} {l : Markdown.Line} {n : Nat}
    (hl : l ∈ Markdown.numberLines true n (h.body v)) :
    Markdown.Fence.endsContainer 0 l = false ∧
      Markdown.Fence.closes 0 (List.replicate (h.newSize v) h.fence) l = false := by
  obtain ⟨m, line, hline, rfl⟩ := Markdown.exists_of_mem_numberLines hl
  exact ⟨Markdown.endsContainer_ofPiece m line,
    Markdown.Fence.closes_eq_false_of_lt h.isFenceChar (h.newSize_pos v) (h.lt_newSize hline)⟩

/-- The reader takes off as many columns as the fence is indented, which are the spaces in front
    of each line that is not empty. -/
theorem map_dropColumns_body (v : Text) (n : Nat) :
    (Markdown.numberLines true n (h.body v)).map (·.dropColumns h.indent) = valueLines v := by
  rw [Markdown.map_dropColumns_numberLines]
  refine h.map_body (Markdown.dropColumnsFrom_of_le Markdown.blanks_nil
    (Int.natCast_nonneg h.indent)) (fun line => ?_) v
  refine Markdown.dropColumnsFrom_append (Markdown.blanks_spaces h.indent) ?_
  rw [Markdown.contentColumn_spaces, Int.zero_add]

/-- By the rules for fences the new opening line opens a fence that has the new body and ends
    with the new closing line. -/
theorem ofLines_eq (v : Text) {closing : Text}
    (hclosing : Markdown.IsClosingLine h.fence (h.newSize v) closing) :
    (Markdown.Fence.ofLines 0 (.ofPiece h.before.length (h.opening v) true)
      (List.replicate (h.newSize v) h.fence) h.info (Markdown.linesOfPieces (h.before.length + 1)
        (h.body v ++ closing :: h.after))).1 = {
          start := h.before.length
          stop := h.before.length + (h.body v).length + 2
          markup := List.replicate (h.newSize v) h.fence
          info := h.info
          body := valueLines v
          isClosed := true } := by
  obtain ⟨hblank, hends, hcloses⟩ := hclosing.closes h.isFenceChar (h.newSize_pos v)
    (h.before.length + 1 + (h.body v).length) (!h.after.isEmpty)
  have hindent : (Markdown.Line.ofPiece h.before.length (h.opening v) true).indent = h.indent :=
    Markdown.contentColumn_spaces_append h.indent
      (Markdown.Exchange.startsFence_replicate h.isFenceChar (h.newSize_pos v))
  have hlines : Markdown.linesOfPieces (h.before.length + 1) (h.body v ++ closing :: h.after) =
      Markdown.numberLines true (h.before.length + 1) (h.body v) ++
        .ofPiece (h.before.length + 1 + (h.body v).length) closing (!h.after.isEmpty) ::
          Markdown.linesOfPieces (h.before.length + 1 + (h.body v).length + 1) h.after := by
    rw [Markdown.linesOfPieces_append (List.cons_ne_nil _ _),
      Markdown.linesOfPieces_cons hblank]
    rfl
  have hstop : h.before.length + 1 + ((h.body v).length + 1) =
      h.before.length + (h.body v).length + 2 := by
    omega
  rw [hlines, Markdown.Fence.ofLines, Markdown.Fence.bodyLines_append fun _ hl => h.goesOn_body hl,
    Markdown.Fence.bodyLines_of_closes hends hcloses, List.append_nil]
  simp only [hindent, h.map_dropColumns_body, Markdown.length_numberLines, if_true]
  exact congrArg (fun stop => Markdown.Fence.mk _ stop _ _ _ _) hstop

/-- Whatever body a block at the margin gets, the document keeps its lines but for the length of
    the fence, the body and the run of the closing line. No body line closes the fence, the line
    after the body does, and without the indentation of the fence the body lines are the lines
    of the body. So the block that the rules for fences find here has this body. -/
theorem encloses (v : Text) : ∃ t' n body closing,
    Replacement.replace t [b.patch v] = .ok t' ∧ h.size ≤ n ∧
      Text.splitAt '\n' t' = h.before ++
        (Text.spaces h.indent ++ (List.replicate n h.fence ++ h.info)) ::
          (body ++ closing :: h.after) ∧
      (∀ line ∈ body, ¬Markdown.IsClosingLine h.fence n line) ∧
      Markdown.IsClosingLine h.fence n closing ∧
      body.map (Markdown.dropSpaces h.indent) = valueLines v ∧
      (Markdown.Fence.ofLines 0 (.ofPiece h.before.length
          (Text.spaces h.indent ++ (List.replicate n h.fence ++ h.info)) true)
        (List.replicate n h.fence) h.info
        (Markdown.linesOfPieces (h.before.length + 1) (body ++ closing :: h.after))).1 = {
          start := h.before.length
          stop := h.before.length + body.length + 2
          markup := List.replicate n h.fence
          info := h.info
          body := valueLines v
          isClosed := true } := by
  obtain ⟨closing, hclosing, hbreak, hreplace⟩ := h.exists_replace v
  refine ⟨_, h.newSize v, h.body v, closing, hreplace, Replacement.le_fitSize _ _ _, ?_,
    fun line hline hcloses => ?_, hclosing, h.map_dropSpaces_body v, h.ofLines_eq v hclosing⟩
  · exact Text.splitAt_join (List.append_ne_nil_of_right_ne_nil _ (List.cons_ne_nil _ _))
      fun line hline => h.no_break_of_mem hbreak hline
  · have := hcloses.le_length h.isFenceChar
    have := h.lt_newSize hline
    omega

/-- A body that closes the old fence and a shorter one, for an indented block. -/
theorem encloses_runs :
    let t : Text := "a\n  ~~~py x\nold\n ~~~~ \nb".toList
    let v : Text := "~~~\n\n  ~~~~\n  c".toList
    let b : CodeBlock :=
      { lang := some "py".toList, metadata := some ['x'], value := "old".toList, startLine := 1,
        endLine := 4, lead := "  ".toList, markup := "~~~".toList }
    ∃ (h : b.MarginFence (Text.lines t)) (t' : Text) (n : Nat) (body : List Text) (closing : Text),
      Replacement.replace t [b.patch v] = .ok t' ∧ h.size ≤ n ∧
        (∀ line ∈ body, ¬Markdown.IsClosingLine h.fence n line) ∧
          body.map (Markdown.dropSpaces h.indent) = valueLines v ∧
            Text.splitAt '\n' t' = h.before ++
              (Text.spaces h.indent ++ (List.replicate n h.fence ++ h.info)) ::
                (body ++ closing :: h.after) := by
  intro t v b
  let h : b.MarginFence (Text.lines t) :=
    { fence := '~', isFenceChar := .inr rfl, indent := 2, indent_le := by decide, size := 3
      size_le := by decide, info := "py x".toList, info_head := by decide
      before := [['a']], old := ["old".toList], after := [['b']]
      closing := " ~~~~ ".toList
      isClosing := ⟨1, 4, [' '], by decide, by decide, Markdown.blanks_spaces 1, by decide⟩
      lines := by decide, startLine := rfl, endLine := rfl, isClosed := rfl, lead := by decide
      markup := by decide }
  obtain ⟨t', n, body, closing, hreplace, hsize, hlines, hbody, -, hvalue, -⟩ := h.encloses v
  exact ⟨h, t', n, body, closing, hreplace, hsize, hbody, hvalue, hlines⟩

end MarginFence

end CodeBlock

end Transclude
