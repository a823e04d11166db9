import Transclude.Proofs.Import.Strategies
import Transclude.Proofs.Positions
import Transclude.Proofs.Shown

/-!
# Both strategies do the same

The sequential strategy and the batch, in whatever order its reads end, have a result for the
same documents, and it is the same: the one in which each block with a directive gets its own
excerpt at its position, and all other lines stay.

That a block gets its excerpt, and every other block keeps its body, is more than that. The
position of a block has to be right, and the new bodies have to be found again. The first is so
as long as no carriage return stands inside a line, the second if the bodies fit into their
fences (`CodeBlock.Shows`). With a carriage return above a block another block can get its body.

* `Import.strategies_agree`: the result of both strategies, its lines and its blocks.
-/

namespace Transclude

open Markdown (Spaced)

namespace Import

variable {settings : Settings} {root : Text} {base : Path} {read : Reader} {text : Text}
  {blocks : List CodeBlock} {treated : List (Option Filled)} {result : Imported}

/-- The blocks that come out of a pass are those of the document, with the new bodies. -/
theorem IsResult.exists_shown (h : IsResult settings root base read text blocks treated result)
    (ht : (Text.unifyBreaks text).IsPlain)
    (hshows : ∀ q ∈ targets blocks treated, ∀ value ∈ q.2, q.1.Shows text value) :
    ∃ blocks', CodeBlock.find result.text = .ok blocks' ∧
      List.Forall₂ (fun q block' => q.1.Shown q.2 block') (targets blocks treated) blocks' := by
  obtain ⟨text', blocks', hreplace, hfind, hshown⟩ :=
    CodeBlock.exists_shown ht h.find_eq hshows
  -- Patching the blocks is what the pass did.
  obtain rfl := Except.ok.inj (hreplace.symm.trans h.replace_eq)
  exact ⟨blocks', hfind, hshown⟩

/-- Both strategies have exactly the right result, in whatever order the reads of the batch
    end: one has a result if and only if the other has, and it is the same. The positions at
    which it has the new bodies are those of their blocks down to the first line that has a
    carriage return inside. If the document has none, and the new bodies fit into their fences,
    the blocks of the result are those of the document, each with the body that it got, or its
    old one if it has no directive. -/
theorem strategies_agree (settings : Settings) (root : Text) (read : Reader) (base : Path)
    (text : Text) (order : List Nat) :
    (batch order settings root read base text).result.toOption =
        (sequential settings root read base text).result.toOption ∧
      (∀ result, (sequential settings root read base text).result = .ok result ↔
        ∃ blocks treated, IsResult settings root base read text blocks treated result) ∧
      ∀ blocks treated result, IsResult settings root base read text blocks treated result →
        (∀ block ∈ blocks, (∀ line ∈ (Text.lines text).take block.endLine, line.Whole) →
          block.Placed (Text.lines text)) ∧
        ((Text.unifyBreaks text).IsPlain →
          (∀ q ∈ targets blocks treated, ∀ value ∈ q.2, q.1.Shows text value) →
            ∃ blocks', CodeBlock.find result.text = .ok blocks' ∧
              List.Forall₂ (fun q block' => q.1.Shown q.2 block') (targets blocks treated)
                blocks') :=
  ⟨toOption_eq_of_ok_iff fun _ => batch_eq_ok_iff.trans sequential_eq_ok_iff.symm,
    fun _ => sequential_eq_ok_iff, fun _ _ _ h =>
      ⟨fun _ hblock => CodeBlock.placed_of_find h.blocks_eq hblock, h.exists_shown⟩⟩

/-- A block without a directive, one in a quote of which the fence becomes longer, and one that
    is the template for its own body. -/
theorem strategies_agree_of_three_blocks :
    let root : Text := "/srv".toList
    let base := Path.ofText "/srv/docs".toList
    let read : Reader := fun path =>
      .ok (if path = Path.ofText "/srv/docs/b".toList then "zero\none\n~~~\n".toList
        else "# group g\nsection\n# group g\n".toList)
    let text : Text := ("~~~sh\r\nkeep\r\n~~~\r\n> ~~~x file=b#L2-L3\r\n> old\r\n> ~~~\n" ++
      "~~~y file=c inline\n# group g\n# group h\nend\n~~~\n").toList
    let result : Imported := ⟨("~~~sh\nkeep\n~~~\n> ~~~~x file=b#L2-L3\n> one\n> ~~~\n> ~~~~\n" ++
      "~~~y file=c inline\nsection\nend\n~~~\n").toList, 2,
      ["Group h not found in /srv/docs/c (line 7)"]⟩
    let untouched : CodeBlock :=
      { lang := some "sh".toList, metadata := none, value := "keep".toList, startLine := 0,
        endLine := 3, markup := "~~~".toList }
    let inQuote : CodeBlock :=
      { lang := some ['x'], metadata := some "file=b#L2-L3".toList, value := "old".toList,
        startLine := 3, endLine := 6, lead := "> ".toList, markup := "~~~".toList }
    let template : CodeBlock :=
      { lang := some ['y'], metadata := some "file=c inline".toList,
        value := "# group g\n# group h\nend".toList, startLine := 6, endLine := 11,
        markup := "~~~".toList }
    CodeBlock.find text = .ok [untouched, inQuote, template] ∧
      (sequential {} root read base text).result = .ok result ∧
      (∀ order, (batch order {} root read base text).result = .ok result) ∧
      ∃ blocks', CodeBlock.find result.text = .ok blocks' ∧
        List.Forall₂ (fun q block' => q.1.Shown q.2 block')
          [(untouched, none), (inQuote, some "one\n~~~".toList),
            (template, some "section\nend".toList)] blocks' := by
  intro root base read text result untouched inQuote template
  let filled : Filled :=
    ⟨⟨inQuote, { path := ['b'], span := ⟨some 2, true, some 3⟩, token := "file=b#L2-L3".toList },
      Path.ofText "/srv/docs/b".toList⟩, "one\n~~~".toList, []⟩
  let filled' : Filled :=
    ⟨⟨template, { path := ['c'], selection := .sections, token := "file=c".toList },
      Path.ofText "/srv/docs/c".toList⟩, "section\nend".toList, [['h']]⟩
  have hfind : CodeBlock.find text = .ok [untouched, inQuote, template] := by decide +kernel
  have htreats : List.Forall₂ (Treats {} root base read) [untouched, inQuote, template]
      [none, some filled, some filled'] := by
    refine .cons (.skip (by decide +kernel)) (.cons ?_ (.cons ?_ .nil))
    · exact treats_iff.2
        (.inr ⟨filled.job, filled, by decide +kernel, ⟨_, rfl, by decide +kernel⟩, rfl⟩)
    · exact treats_iff.2
        (.inr ⟨filled'.job, filled', by decide +kernel, ⟨_, rfl, by decide +kernel⟩, rfl⟩)
  have hreplace : Replacement.replace text [filled.patch, filled'.patch] = .ok result.text := by
    rw [Replacement.replace, Replacement.bottomUp_eq_reverse (by decide)]
    decide +kernel
  have hresult : IsResult {} root base read text _ _ result :=
    ⟨hfind, htreats, (replace_eq_ok_iff hfind htreats).1 hreplace, rfl, by decide +kernel⟩
  have hshows : ∀ q ∈ targets [untouched, inQuote, template] [none, some filled, some filled'],
      ∀ value ∈ q.2, q.1.Shows text value := by
    have hquote : inQuote.prefixIn text = "> ".toList := by decide +kernel
    have hmargin : template.prefixIn text = [] := by decide +kernel
    show ∀ q ∈ [(untouched, none), (inQuote, some filled.value), (template, some filled'.value)], _
    rw [List.forall_mem_cons, List.forall_mem_cons, List.forall_mem_singleton]
    refine ⟨fun value hvalue => absurd hvalue (Option.not_mem_none value), fun value hvalue => ?_,
      fun value hvalue => ?_⟩
    · obtain rfl := Option.some.inj hvalue
      refine CodeBlock.shows_of_spaced ⟨by decide, by decide⟩ rfl ?_ ?_ ?_ ?_
      · unfold CodeBlock.HasClosingLine
        decide +kernel
      · rw [hquote]
        decide
      · rw [hquote]
        simp [Markdown.spaced_cons, Markdown.spaced_nil, Text.isSpaceOrTab]
      · rw [hquote]
        rfl
    · obtain rfl := Option.some.inj hvalue
      refine CodeBlock.shows_of_spaced ⟨by decide, by decide⟩ rfl ?_ ?_ ?_ ?_
      · unfold CodeBlock.HasClosingLine
        decide +kernel
      · exact hmargin ▸ List.not_mem_nil
      · exact hmargin ▸ Markdown.spaced_nil
      · rw [hmargin]
        rfl
  have hall (order : List Nat) := strategies_agree {} root read base text order
  have hsequential := ((hall []).2.1 result).2 ⟨_, _, hresult⟩
  exact ⟨hfind, hsequential, fun order => toOption_eq_some_iff.1
      ((hall order).1.trans (toOption_eq_some_iff.2 hsequential)),
    ((hall []).2.2 _ _ _ hresult).2 ⟨by decide +kernel, by decide +kernel⟩ hshows⟩

/-- Carriage returns above the blocks move their positions: the body goes into the next block,
    which has no directive, and the block with the directive keeps its old one. -/
theorem not_shown_of_early_returns :
    let text : Text := ("a\rb\rc\rd\n~~~x file=f\nold\n~~~\n" ++
      "~~~\nkeep\n~~~\n\np\nq\nr\n").toList
    let asking : CodeBlock :=
      { lang := some ['x'], metadata := some "file=f".toList, value := "old".toList,
        startLine := 4, endLine := 7, markup := "~~~".toList }
    let other : CodeBlock :=
      { lang := none, metadata := none, value := "keep".toList, startLine := 7, endLine := 10,
        isClosed := false, markup := "~~~".toList }
    let filled : Filled :=
      ⟨⟨asking, { path := ['f'], token := "file=f".toList }, Path.ofText "/srv/f".toList⟩,
        "NEW".toList, []⟩
    let root : Text := "/srv".toList
    let base := Path.ofText "/srv".toList
    let read : Reader := fun _ => .ok "NEW\n".toList
    let result : Imported := ⟨("a\rb\rc\rd\n~~~x file=f\nold\n~~~\n" ++
      "~~~\nNEW\n~~~\n\np\nq\nr\n").toList, 1, []⟩
    CodeBlock.find text = .ok [asking, other] ∧
      List.Forall₂ (Treats {} root base read) [asking, other] [some filled, none] ∧
      (sequential {} root read base text).result = .ok result ∧
      (batch [] {} root read base text).result = .ok result ∧
      (CodeBlock.find result.text).map (List.map fun b => (b.metadata, b.value)) =
        .ok [(some "file=f".toList, "old".toList), (none, "NEW".toList)] := by
  intro text asking other filled root base read result
  refine ⟨by decide +kernel, .cons (treats_iff.2 (.inr ⟨filled.job, filled, by decide +kernel,
    ⟨_, rfl, by decide +kernel⟩, rfl⟩)) (.cons (.skip (by decide +kernel)) .nil), ?_⟩
  decide +kernel

end Import

end Transclude
