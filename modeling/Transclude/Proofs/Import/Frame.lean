import Transclude.Proofs.Frame
import Transclude.Proofs.Import.Strategies
import Transclude.Proofs.Positions

/-!
# What a pass leaves alone

A pass exchanges the bodies of the blocks that have a directive. A line at the position of none
of these blocks is a line of the new document, in its place. That the lines at the position of a
block are its own is the other half, and holds as long as no carriage return stands inside a line
down to the end of the block.

* `Import.exists_patches`: the patches that a pass makes;
* `Import.changes_own_lines`: which lines a pass changes.
-/

namespace Transclude

open Markdown (fences pieces seen)
open Replacement (image rewritten)

namespace Import

variable {settings : Settings} {root : Text} {base : Path} {read : Reader} {text : Text}
  {blocks : List CodeBlock} {treated : List (Option Filled)} {result : Imported}

/-! ## The patches of a pass -/

theorem Treats.exists_directive {block : CodeBlock} {filled : Filled}
    (h : Treats settings root base read block (some filled)) :
    ∃ d, Directive.ofMetadata settings.grammar (block.metadata.getD []) = .ok (some d) := by
  cases h with
  | fill hdirective => exact ⟨_, hdirective⟩

/-- A pass gives blocks that have a directive new bodies. -/
theorem exists_patches (hfind : CodeBlock.find text = .ok blocks) {path : Option Path}
    (hok : (document settings root read path text).result = .ok result) :
    ∃ ps : List Patch, result.text = Text.unlines (rewritten ps 0 (Text.lines text)) ∧
      ∀ p ∈ ps, ∃ block ∈ blocks, ∃ value, p = block.patch value ∧
        ∃ d, Directive.ofMetadata settings.grammar (block.metadata.getD []) = .ok (some d) := by
  obtain ⟨blocks', treated, hresult⟩ := document_eq_ok_iff.1 hok
  obtain rfl := Except.ok.inj (hfind.symm.trans hresult.blocks_eq)
  obtain ⟨ls, hrewrites, htext⟩ := hresult.rewrites
  refine ⟨_, by rw [htext, hrewrites.eq_rewritten], fun p hp => ?_⟩
  rw [patches_targets hresult.treats] at hp
  obtain ⟨filled, hfilled, rfl⟩ := List.mem_map.1 hp
  obtain ⟨o, ho, rfl⟩ := List.mem_filterMap.1 hfilled
  obtain ⟨block, hblock, htreats⟩ := exists_of_forall₂ hresult.treats ho
  exact ⟨block, hblock, filled.value, congrArg (fun b => b.patch filled.value) htreats.block_eq,
    htreats.exists_directive⟩

/-! ## The lines of a pass -/

/-- The block structure and the pass count the same lines down to the first that has a carriage
    return inside, and the blocks are found unless one seems to end beyond the last line. The
    position of a block that ends before such a line is right, and a pass changes no lines but
    those at the positions of blocks with a directive. -/
theorem changes_own_lines (text : Text) :
    (∀ n ≤ (Text.lines text).length,
      (pieces text).take n = ((Text.lines text).take n).map seen ↔
        ∀ line ∈ (Text.lines text).take n, line.Whole) ∧
    ((∃ blocks, CodeBlock.find text = .ok blocks) ↔
      ∀ f ∈ fences text, f.stop ≤ (Text.lines text).length) ∧
    ((∀ line ∈ Text.lines text, line.Whole) → ∃ blocks, CodeBlock.find text = .ok blocks) ∧
    ∀ blocks, CodeBlock.find text = .ok blocks →
      (∀ block ∈ blocks, (∀ line ∈ (Text.lines text).take block.endLine, line.Whole) →
        block.Placed (Text.lines text)) ∧
      ∀ settings root read path result,
        (document settings root read path text).result = .ok result →
          ∃ ps : List Patch, result.text = Text.unlines (rewritten ps 0 (Text.lines text)) ∧
            (∀ p ∈ ps, ∃ block ∈ blocks, ∃ value, p = block.patch value ∧ ∃ d,
              Directive.ofMetadata settings.grammar (block.metadata.getD []) = .ok (some d)) ∧
            ∀ i line, (∀ p ∈ ps, ¬p.Covers i) → image ps i line = [line] := by
  refine ⟨fun n => Markdown.take_pieces_iff, CodeBlock.exists_find_iff,
    CodeBlock.exists_find_of_whole, fun blocks hfind => ⟨fun block hblock =>
      CodeBlock.placed_of_find hfind hblock, fun settings root read path result hok => ?_⟩⟩
  obtain ⟨ps, htext, hps⟩ := exists_patches hfind hok
  exact ⟨ps, htext, hps, fun i line h => Replacement.image_of_not_covers h line⟩

/-- Carriage returns at the end of a line and after the last block do no harm. -/
theorem changes_own_lines_of_late_return :
    let text : Text := "a\r\r\n> ~~~x file=f\n> old\n> ~~~\nc\rd".toList
    let block : CodeBlock :=
      { lang := some ['x'], metadata := some "file=f".toList, value := "old".toList,
        startLine := 1, endLine := 4, lead := "> ".toList, markup := "~~~".toList }
    let pass := document {} "/srv".toList (fun _ => .ok "NEW".toList)
      (some (Path.ofText "/srv/d.md".toList)) text
    let result : Imported := ⟨"a\r\n> ~~~x file=f\n> NEW\n> ~~~\nc\rd".toList, 1, []⟩
    CodeBlock.find text = .ok [block] ∧ block.Placed (Text.lines text) ∧
      pass.result = .ok result ∧ ∃ ps : List Patch,
        result.text = Text.unlines (rewritten ps 0 (Text.lines text)) ∧
          ∀ p ∈ ps, ∃ value, p = block.patch value := by
  intro text block pass result
  have hfind : CodeBlock.find text = .ok [block] := by decide +kernel
  have hpass : pass.result = .ok result := by decide +kernel
  obtain ⟨-, -, -, hblocks⟩ := changes_own_lines text
  obtain ⟨hplaced, hpatches⟩ := hblocks _ hfind
  obtain ⟨ps, htext, hps, -⟩ := hpatches _ _ _ _ _ hpass
  refine ⟨hfind, hplaced block (List.mem_singleton_self block) (by decide), hpass, ps, htext,
    fun p hp => ?_⟩
  obtain ⟨b, hb, value, rfl, -⟩ := hps p hp
  exact ⟨value, by rw [List.mem_singleton.1 hb]⟩

/-- A carriage return inside a line above a block moves the position of the block: the pass takes
    the closing line and a line after the block away, and the old body stays. With too few lines
    after the block it is not found at all. -/
theorem not_placed_of_early_return :
    let text : Text := "a\rb\n~~~x file=f\nold\n~~~\nc\nd".toList
    let block : CodeBlock :=
      { lang := some ['x'], metadata := some "file=f".toList, value := "old".toList,
        startLine := 2, endLine := 5, lead := "  ".toList, isClosed := false,
        markup := "~~~".toList }
    CodeBlock.find text = .ok [block] ∧ ¬block.Placed (Text.lines text) ∧
      (document {} "/srv".toList (fun _ => .ok "NEW".toList)
        (some (Path.ofText "/srv/d.md".toList)) text).result =
          .ok ⟨"a\rb\n~~~x file=f\nold\n  NEW\nd".toList, 1, []⟩ ∧
      CodeBlock.find "a\rb\n~~~\n~~~".toList = .error .noSuchLine := by
  intro text block
  refine ⟨by decide +kernel, fun hplaced => ?_, by decide +kernel, by decide +kernel⟩
  -- The line at the position of the block holds no fence.
  obtain ⟨line, hline, x, info, hseen, -⟩ := hplaced.opening
  obtain rfl : "old".toList = line := Option.some.inj hline
  have hmem : '~' ∈ seen "old".toList := hseen ▸ List.mem_append_right x List.mem_cons_self
  exact absurd hmem (by decide)

end Import

end Transclude
