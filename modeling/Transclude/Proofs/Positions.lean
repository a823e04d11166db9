import Transclude.Proofs.Markdown.Returns
import Transclude.Proofs.Patches

/-!
# The positions of code blocks

A code block says in which lines of its document it stands. The document is taken apart twice,
by the block structure and by whoever rewrites it, and the position is right if both count the
same lines down to the end of the block. This is so if no carriage return stands inside one of
these lines. Otherwise the block can end beyond the last line, and then finding the blocks fails.

* `CodeBlock.Placed`: the lines at the position of a block are its own;
* `CodeBlock.exists_find_iff`: when the blocks of a document can be found;
* `CodeBlock.placed_of_find`: when the position of a block is right.
-/

namespace Transclude

open Markdown (Closing Fence IsFenceChar Left fences seen)

variable {t line : Text} {ls : List Text} {f : Fence} {b : CodeBlock} {bs : List CodeBlock}

namespace CodeBlock

/-! ## Finding code blocks -/

theorem exists_ofFence_iff (hlt : f.start < f.stop) (hmarkup : f.markup ≠ []) :
    (∃ b, ofFence ls f = .ok b) ↔ f.stop ≤ ls.length := by
  refine ⟨fun ⟨b, hb⟩ => ?_, fun hle => ?_⟩
  · have hstands := stands_of_ofFence hb hlt hmarkup
    obtain ⟨opening, isClosed, rfl⟩ := exists_of_ofFence hb
    exact hstands.stop_le
  · have hopening : ls[f.start]? = some ls[f.start] := List.getElem?_eq_getElem (by omega)
    have hclosed : ∃ isClosed, closedAt ls f = .ok isClosed := by
      obtain ⟨c, markup, hc⟩ := List.exists_cons_of_ne_nil hmarkup
      by_cases htwo : f.start + 1 < f.stop
      · have hlast : ls[f.stop - 1]? = some ls[f.stop - 1] := List.getElem?_eq_getElem (by omega)
        rw [closedAt_eq htwo hlast, hc]
        exact ⟨_, rfl⟩
      · exact ⟨false, closedAt_eq_false (by omega)⟩
    obtain ⟨isClosed, hclosed⟩ := hclosed
    exact ⟨_, ofFence_eq_ok_iff.2 ⟨_, isClosed, hopening, hclosed, rfl⟩⟩

theorem exists_forall₂_ofFence {fs : List Fence} :
    (∃ bs, List.Forall₂ (fun f b => ofFence ls f = .ok b) fs bs) ↔
      ∀ f ∈ fs, ∃ b, ofFence ls f = .ok b := by
  induction fs with
  | nil => exact ⟨fun _ _ hf => absurd hf List.not_mem_nil, fun _ => ⟨[], .nil⟩⟩
  | cons f fs ih =>
    rw [List.forall_mem_cons, ← ih]
    constructor
    · rintro ⟨bs, hbs⟩
      obtain ⟨b, rest, hb, hrest, -⟩ := List.forall₂_cons_left_iff.1 hbs
      exact ⟨⟨b, hb⟩, rest, hrest⟩
    · rintro ⟨⟨b, hb⟩, bs, hbs⟩
      exact ⟨b :: bs, .cons hb hbs⟩

/-- The code blocks of a document are found unless one would end beyond the last line. -/
theorem exists_find_iff :
    (∃ bs, find t = .ok bs) ↔ ∀ f ∈ fences t, f.stop ≤ (Text.lines t).length := by
  simp only [find, mapM_eq_ok_iff, exists_forall₂_ofFence]
  exact forall₂_congr fun f hf =>
    exists_ofFence_iff (Markdown.start_lt_stop_of_mem hf).1 (Markdown.start_lt_stop_of_mem hf).2

/-- If no carriage return stands inside a line, the code blocks are found. -/
theorem exists_find_of_whole (h : ∀ line ∈ Text.lines t, line.Whole) : ∃ bs, find t = .ok bs := by
  refine exists_find_iff.2 fun f hf => ?_
  have hbounds := (Markdown.findsHeld_sequence Markdown.nestingLimit {} _ f hf).bounds
    (Markdown.numbered_documentLines t)
  have := Markdown.length_documentLines_le_of_whole h
  omega

theorem exists_find_of_no_return (h : '\r' ∉ t) : ∃ bs, find t = .ok bs :=
  exists_find_of_whole fun _ hline => Text.whole_of_not_mem (Text.no_return_of_mem_lines h hline)

/-! ## The lines at a position -/

/-- The lines of a document at the position of the block are the ones that the block was read
    from. -/
structure Placed (ls : List Text) (b : CodeBlock) : Prop where
  /-- The opening line, with the language and the metadata. -/
  opening : ∃ line ∈ ls[b.startLine]?, ∃ x info, seen line = x ++ (b.markup ++ info) ∧
    (∀ c ∈ x, ¬IsFenceChar c) ∧ splitInfo info = (b.lang, b.metadata)
  /-- The body lines, and the closing line if there is one. -/
  rest : ∃ body : List Text, b.value = Text.unlines body ∧
    (∀ j line, body[j]? = some line →
      ∃ line' ∈ ls[b.startLine + 1 + j]?, Left line (seen line')) ∧
    (b.endLine = b.startLine + 1 + body.length ∨
      b.isClosed ∧ b.endLine = b.startLine + 2 + body.length ∧
        ∃ line ∈ ls[b.endLine - 1]?, ∃ x y, (∀ c ∈ x, Text.isSpaceOrTab c ∨ c = '>') ∧
          seen line = x ++ y ∧ Closing b.markup y)

/-- A line that the block structure has as it is may only end with a carriage return. -/
theorem eq_or_of_seen (hwhole : line.Whole) (h : Markdown.replacement ∉ seen line) :
    line = seen line ∨ line = seen line ++ ['\r'] := by
  have hmap : seen line = line.withoutReturn := by
    refine (List.map_congr_left fun c hc => ?_).trans (List.map_id' _)
    exact if_neg fun hnul : c = '\x00' => h (List.mem_map.2 ⟨c, hc, if_pos hnul⟩)
  rw [hmap]
  exact hwhole.eq_or.2

/-- What looks to the block structure as if it closed a fence does so in the document, too. -/
theorem ClosingLine.exists_of_seen {d : Char} {n : Nat} (c : ClosingLine d n)
    (hd : IsFenceChar d) (hwhole : line.Whole) (hline : seen line = c.text) :
    ∃ c' : ClosingLine d n, c'.text = line := by
  have hreplacement : Markdown.replacement ∉ seen line := by
    rw [hline]
    exact c.not_mem_text hd (by decide)
  rcases eq_or_of_seen hwhole hreplacement with heq | heq
  · exact ⟨c, (heq.trans hline).symm⟩
  · refine ⟨⟨c.outer, c.outer_mark, c.run, c.le_run, c.rest ++ ['\r'], ?_⟩, ?_⟩
    · exact List.forall_mem_append.2 ⟨c.isBlank_rest, List.forall_mem_singleton.2 (by decide)⟩
    · rw [heq, hline, ClosingLine.text, ClosingLine.text, List.append_assoc, List.append_assoc]

/-- The closing line of a fence shows that it closes the fence. -/
theorem exists_closing_of_mem (hf : f ∈ fences t) (hclosed : f.isClosed)
    (hwhole : ∀ line ∈ (Text.lines t).take f.stop, line.Whole) :
    ∃ line, (Text.lines t)[f.stop - 1]? = some line ∧ closes f.markup line = .ok true ∧
      ∃ x y, (∀ c ∈ x, Text.isSpaceOrTab c ∨ c = '>') ∧ seen line = x ++ y ∧
        Closing f.markup y := by
  have hholds := Markdown.findsHeld_sequence Markdown.nestingLimit {} _ f hf
  have hlt := (Markdown.start_lt_stop_of_mem hf).1
  obtain ⟨⟨d, n, hd, hn, hmarkup, -⟩, -⟩ := hholds.opening
  obtain ⟨l, hl, hnumber, x, y, hx, htext, hclosing⟩ :=
    hholds.closing (Markdown.numbered_documentLines t) hclosed
  obtain ⟨line, hline, hseen⟩ :=
    Markdown.getElem?_of_mem_documentLines_of_whole hwhole hl (by omega)
  have hlast : (Text.lines t)[f.stop - 1]? = some line := by
    rw [← hnumber]
    exact hline
  have hmem : line ∈ (Text.lines t).take f.stop :=
    List.mem_of_getElem? ((List.getElem?_take_of_lt (by omega)).trans hlast)
  have hline' : seen line = x ++ y := hseen.symm.trans htext
  refine ⟨line, hlast, ?_, x, y, hx, hline', hclosing⟩
  obtain ⟨k, s, hnk, rfl, hs⟩ := Markdown.exists_append_of_closing (by omega) (hmarkup ▸ hclosing)
  obtain ⟨c, rfl⟩ := (ClosingLine.mk x hx k hnk s fun c hc =>
    Text.isBlank_of_isSpaceOrTab (hs c hc)).exists_of_seen hd (hwhole line hmem) hline'
  rw [hmarkup]
  exact c.closes hd (by omega)

/-- The position of a block is right if no carriage return stands inside a line down to its
    end. -/
theorem placed_of_ofFence (hf : f ∈ fences t) (h : ofFence (Text.lines t) f = .ok b)
    (hwhole : ∀ line ∈ (Text.lines t).take f.stop, line.Whole) : b.Placed (Text.lines t) := by
  have hholds := Markdown.findsHeld_sequence Markdown.nestingLimit {} _ f hf
  have hnumbered := Markdown.numbered_documentLines t
  have hlt := (Markdown.start_lt_stop_of_mem hf).1
  have hstop := hholds.stop_eq
  obtain ⟨opening, isClosed, -, hclosed, rfl⟩ := ofFence_eq_ok_iff.1 h
  obtain ⟨⟨d, n, hd, hn, hmarkup, -⟩, l, hl, hstart, x, hx, htext⟩ := hholds.opening
  refine ⟨?_, f.body, rfl, fun j line hline => ?_, ?_⟩
  · obtain ⟨line, hline, hseen⟩ :=
      Markdown.getElem?_of_mem_documentLines_of_whole hwhole hl (hstart ▸ hlt)
    rw [hstart] at hline
    exact ⟨line, hline, x, f.info, hseen.symm.trans htext, hx, rfl⟩
  · obtain ⟨l, hl, hnumber, hleft⟩ := hholds.body hnumbered hline
    have hj := (List.getElem?_eq_some_iff.1 hline).1
    obtain ⟨line', hline', hseen⟩ :=
      Markdown.getElem?_of_mem_documentLines_of_whole hwhole hl (by omega)
    rw [hnumber] at hline'
    exact ⟨line', hline', hseen ▸ hleft⟩
  · cases hend : f.isClosed with
    | false =>
      rw [hend, if_neg Bool.false_ne_true] at hstop
      exact .inl hstop
    | true =>
      rw [hend, if_pos rfl] at hstop
      obtain ⟨line, hlast, hcloses, x, y, hx, hline, hclosing⟩ :=
        exists_closing_of_mem hf hend hwhole
      have htwo : f.stop = f.start + 2 + f.body.length := by omega
      refine .inr ⟨?_, htwo, line, hlast, x, y, hx, hline, hclosing⟩
      rw [closedAt_eq (by omega) hlast, hcloses] at hclosed
      exact (Except.ok.inj hclosed).symm

theorem placed_of_find (h : find t = .ok bs) (hb : b ∈ bs)
    (hwhole : ∀ line ∈ (Text.lines t).take b.endLine, line.Whole) : b.Placed (Text.lines t) := by
  obtain ⟨f, hf, hfence⟩ := exists_of_forall₂ (mapM_eq_ok_iff.1 h) hb
  obtain ⟨opening, isClosed, rfl⟩ := exists_of_ofFence hfence
  exact placed_of_ofFence hf hfence hwhole

end CodeBlock

end Transclude
