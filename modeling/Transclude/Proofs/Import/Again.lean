import Transclude.Proofs.Import.Failures
import Transclude.Proofs.Settled

/-!
# Importing once more

A directive that selects by lines does not look at the old body of its block. So a second pass
over the document that a first one has written fills the same blocks with the same bodies, and
changes nothing if the blocks are settled on these.

* `Import.Treats.again`: a block with the same metadata gets the same body;
* `Import.document_again`: a second pass changes nothing.
-/

namespace Transclude

namespace Text

variable {t : Text}

/-- Removing the common indentation makes no characters. -/
theorem IsPlain.dedent (ht : t.IsPlain) : t.dedent.IsPlain := by
  rw [Text.dedent, ← lines_eq_splitAt ht.no_return]
  refine isPlain_unlines fun piece hpiece => ?_
  rw [dedentLines, List.mem_map] at hpiece
  obtain ⟨line, hline, rfl⟩ := hpiece
  split
  · exact fun c hc => absurd hc List.not_mem_nil
  · exact fun c hc => ht.isLine hline c (List.mem_of_mem_drop hc)

end Text

/-- Some lines of a plain text make a plain text. -/
theorem Excerpt.isPlain_ofSpan {content : Text} (h : content.IsPlain) (span : Span)
    (preserve : Bool) : (Excerpt.ofSpan span preserve content).IsPlain :=
  Text.isPlain_unlines fun _ hline => h.isLine (List.mem_of_mem_take (List.mem_of_mem_drop hline))

namespace Import

variable {settings : Settings} {root : Text} {base : Path} {read : Reader} {text : Text}
  {block block' : CodeBlock} {blocks : List CodeBlock} {filled : Filled} {o : Option Filled}
  {treated : List (Option Filled)} {result : Imported}

/-! ## Blocks that are filled by lines -/

/-- The directive of the block, if it has one, selects by lines. -/
def ByLines (settings : Settings) (block : CodeBlock) : Prop :=
  settings.grammar.inlineFlag ∉ Metadata.tokens (block.metadata.getD [])

instance (settings : Settings) (block : CodeBlock) : Decidable (ByLines settings block) :=
  inferInstanceAs (Decidable (_ ∉ _))

theorem selection_of_byLines (h : ByLines settings block) {directive : Directive}
    (hdirective : Directive.ofMetadata settings.grammar (block.metadata.getD []) =
      .ok (some directive)) : directive.selection = .lines := by
  rw [Directive.ofMetadata] at hdirective
  dsimp only at hdirective
  split at hdirective
  · exact nomatch hdirective
  · rw [if_neg h, Directive.ofToken] at hdirective
    split at hdirective
    · exact nomatch hdirective
    · rename_i token _ _ htoken
      split at htoken
      · exact nomatch htoken
      · rw [← Option.some.inj (Except.ok.inj hdirective), ← Except.ok.inj htoken]

/-- An excerpt that is taken by lines does not depend on the old body, and misses nothing. -/
theorem ofDirective_of_lines {directive : Directive} (h : directive.selection = .lines)
    (markerToken : Text) (preserve : Bool) (content template : Text) :
    Excerpt.ofDirective markerToken preserve directive content template =
      { text := Excerpt.ofSpan directive.span preserve content } := by
  rw [Excerpt.ofDirective, h]

theorem Treats.missing_eq_nil (h : Treats settings root base read block (some filled))
    (hlines : ByLines settings block) : filled.missing = [] := by
  cases h with
  | fill hdirective hpath hcontent hexcerpt =>
    rw [hexcerpt, ofDirective_of_lines (selection_of_byLines hlines hdirective)]

/-- What a block is filled with is plain if its file is. -/
theorem Treats.isPlain_value (h : Treats settings root base read block (some filled))
    (hlines : ByLines settings block)
    (hread : ∀ path content, read path = .ok content → content.IsPlain) : filled.value.IsPlain := by
  cases h with
  | fill hdirective hpath hcontent hexcerpt =>
    rw [hexcerpt, ofDirective_of_lines (selection_of_byLines hlines hdirective)]
    have hplain := Excerpt.isPlain_ofSpan (hread _ _ hcontent)
    split
    · exact (hplain _ _).dedent
    · exact hplain _ _

/-- A block with the same metadata gets the same body. -/
theorem Treats.again (h : Treats settings root base read block o)
    (hlines : ByLines settings block) (hmetadata : block'.metadata = block.metadata) :
    Treats settings root base read block'
      (o.map fun filled => { filled with job := { filled.job with block := block' } }) := by
  -- The metadata decide about the file and its lines; the old body is looked at for sections only.
  cases h with
  | skip hdirective => exact .skip (hmetadata ▸ hdirective)
  | fill hdirective hpath hcontent hexcerpt =>
    refine .fill (hmetadata ▸ hdirective) hpath hcontent ?_
    have hselection := selection_of_byLines hlines hdirective
    rw [hexcerpt, ofDirective_of_lines hselection, ofDirective_of_lines hselection]

/-! ## A second pass -/

theorem forall₂_targets {R : CodeBlock → Option Filled → Prop}
    (h : List.Forall₂ R blocks treated) :
    List.Forall₂ (fun q o => R q.1 o ∧ q.2 = o.map Filled.value) (targets blocks treated)
      treated := by
  induction h with
  | nil => exact .nil
  | cons hR _ ih => exact .cons ⟨hR, rfl⟩ ih

theorem flatMap_missing_eq_nil (h : ∀ filled, some filled ∈ treated → filled.missing = []) :
    ((treated.filterMap id).flatMap fun filled => filled.missing.map filled.missingMessage) =
      [] := by
  refine List.flatMap_eq_nil_iff.2 fun filled hfilled => ?_
  obtain ⟨o, ho, rfl⟩ := List.mem_filterMap.1 hfilled
  rw [h filled ho]
  rfl

theorem countP_isSome_eq {treated' : List (Option Filled)}
    (h : List.Forall₂ (fun o o' => o.isSome = o'.isSome) treated treated') :
    treated.countP Option.isSome = treated'.countP Option.isSome := by
  induction h with
  | nil => rfl
  | cons hsome _ ih => rw [List.countP_cons, List.countP_cons, hsome, ih]

/-- The block is treated once more, and is settled on its body. -/
structure TreatsAgain (settings : Settings) (root : Text) (base : Path) (read : Reader)
    (ls : List Text) (block : CodeBlock) (o : Option Filled) : Prop where
  byLines : ByLines settings block
  treats : Treats settings root base read block o
  settled : ∀ filled ∈ o, block.Settled ls filled.value

/-- What a settled block is filled with leaves the lines as they are. -/
theorem TreatsAgain.apply_patch {ls : List Text}
    (h : TreatsAgain settings root base read ls block (some filled)) :
    filled.patch.apply ls = .ok ls := by
  rw [Filled.patch, h.treats.block_eq]
  exact h.settled filled rfl

/-- A second pass over the document that a pass has written has the same result. -/
theorem IsResult.again (h : IsResult settings root base read text blocks treated result)
    (ht : text.IsPlain) (hread : ∀ path content, read path = .ok content → content.IsPlain)
    (hlines : ∀ block ∈ blocks, ByLines settings block)
    (hlasts : ∀ block ∈ blocks, ∀ filled,
      Treats settings root base read block (some filled) → block.Lasts text filled.value) :
    ∃ blocks' treated', IsResult settings root base read result.text blocks' treated' result := by
  have htargets :=
    forall₂_targets ((List.forall₂_and_left ..).2 ⟨fun block hblock => hblock, h.treats⟩)
  have hqs : ∀ q ∈ targets blocks treated, ∀ v ∈ q.2, v.IsPlain ∧ q.1.Lasts text v := by
    intro q hq v hv
    obtain ⟨o, -, ⟨hmem, hR⟩, hvalue⟩ := exists_of_forall₂ htargets.flip hq
    rw [hvalue] at hv
    obtain ⟨filled, rfl, rfl⟩ := Option.map_eq_some_iff.1 hv
    exact ⟨hR.isPlain_value (hlines _ hmem) hread, hlasts _ hmem filled hR⟩
  obtain ⟨t', bs, hreplace, hfind, ht', hrenewed⟩ := CodeBlock.exists_settled ht h.find_eq hqs
  -- Patching the blocks is what the first pass did.
  obtain rfl : t' = result.text := Except.ok.inj (hreplace.symm.trans h.replace_eq)
  -- The blocks that come out are treated as those were that they come from.
  have hagain : List.Forall₂ (fun o block' => ∃ o', o.isSome = o'.isSome ∧
      TreatsAgain settings root base read (Text.lines result.text) block' o') treated bs := by
    refine forall₂_comp htargets.flip hrenewed
      fun o q block' ⟨⟨hmem, hR⟩, hvalue⟩ ⟨hmetadata, hsettled⟩ => ?_
    have hblock := hlines _ hmem
    refine ⟨_, Option.isSome_map.symm, ?_, hR.again hblock hmetadata, fun filled hfilled => ?_⟩
    · rw [ByLines, hmetadata]
      exact hblock
    · obtain ⟨filled, rfl, rfl⟩ := Option.map_eq_some_iff.1 hfilled
      exact hsettled _ (hvalue.symm ▸ rfl)
  obtain ⟨treated', hsome, hnew⟩ : ∃ treated',
      List.Forall₂ (fun o o' => o.isSome = o'.isSome) treated treated' ∧
        List.Forall₂ (TreatsAgain settings root base read (Text.lines result.text)) bs treated' :=
    exists_forall₂ hagain fun _ _ _ h => h
  have hnewTreats := hnew.imp fun _ _ => TreatsAgain.treats
  refine ⟨bs, treated', hfind, hnewTreats, (replace_eq_ok_iff hfind hnewTreats).1 ?_, ?_, ?_⟩
  · -- Every patch of the second pass leaves the lines as they are.
    refine CodeBlock.replace_of_settled ht' fun p hp => ?_
    obtain ⟨filled, hmem, rfl⟩ := List.mem_map.1 hp
    obtain ⟨o, ho, rfl⟩ := List.mem_filterMap.1 hmem
    obtain ⟨block', -, hblock'⟩ := exists_of_forall₂ hnew ho
    exact hblock'.apply_patch
  · rw [h.count_eq, countP_isSome_eq hsome]
  · -- Neither pass misses a marker.
    rw [h.diagnostics_eq, flatMap_missing_eq_nil fun filled hfilled => ?_,
      flatMap_missing_eq_nil fun filled hfilled => ?_]
    · obtain ⟨block', -, hblock'⟩ := exists_of_forall₂ hnew hfilled
      exact hblock'.treats.missing_eq_nil hblock'.byLines
    · obtain ⟨q, -, ⟨hmem, hR⟩, -⟩ := exists_of_forall₂ htargets hfilled
      exact hR.missing_eq_nil (hlines _ hmem)

/-- A pass that returns a document returns it again when it is run on it: the text, the number
    of filled blocks and the diagnostics are the same. -/
theorem document_again {path : Option Path} (ht : text.IsPlain)
    (hread : ∀ p content, read p = .ok content → content.IsPlain)
    (hfind : CodeBlock.find text = .ok blocks)
    (hlines : ∀ block ∈ blocks, ByLines settings block)
    (hlasts : ∀ block ∈ blocks, ∀ filled,
      Treats settings root (baseDirectory path) read block (some filled) →
        block.Lasts text filled.value)
    (hok : (document settings root read path text).result = .ok result) :
    (document settings root read path result.text).result = .ok result := by
  obtain ⟨blocks', treated, hresult⟩ := document_eq_ok_iff.1 hok
  obtain rfl := Except.ok.inj (hfind.symm.trans hresult.blocks_eq)
  exact document_eq_ok_iff.2 (hresult.again ht hread hlines hlasts)

/-- A block in a quote in a list item, of which the fence has to become longer, and one without
    a closing line at the end of the document. -/
theorem document_again_of_two_blocks :
    let settings : Settings := { readsTogether := true, dedents := true }
    let root : Text := "/srv".toList
    let path := some (Path.ofText "/srv/docs/a.md".toList)
    let read : Reader := fun path =>
      .ok (if path = Path.ofText "/srv/docs/b".toList then "  x\n\n  ~~~~\n".toList
        else "\n  y".toList)
    let text : Text := "- > ~~~x file=b\n  > old\n  > ~~~\n\n~~~x file=c#L1-L2\nold".toList
    let result : Imported :=
      ⟨"- > ~~~~~x file=b\n  > x\n  >\n  > ~~~~\n  > ~~~~~\n\n~~~x file=c#L1-L2\n\ny".toList, 2, []⟩
    (document settings root read path text).result = .ok result ∧
      (document settings root read path result.text).result = .ok result := by
  intro settings root path read text result
  let inQuote : CodeBlock :=
    { lang := some ['x'], metadata := some "file=b".toList, value := "old".toList, startLine := 0,
      endLine := 3, lead := "  > ".toList, markup := "~~~".toList }
  let unclosed : CodeBlock :=
    { lang := some ['x'], metadata := some "file=c#L1-L2".toList, value := "old".toList,
      startLine := 4, endLine := 6, isClosed := false, markup := "~~~".toList }
  let filled : Filled :=
    ⟨⟨inQuote, { path := ['b'], token := "file=b".toList }, Path.ofText "/srv/docs/b".toList⟩,
      "x\n\n~~~~".toList, []⟩
  let filled' : Filled :=
    ⟨⟨unclosed, { path := ['c'], span := ⟨some 1, true, some 2⟩, token := "file=c#L1-L2".toList },
      Path.ofText "/srv/docs/c".toList⟩, "\ny".toList, []⟩
  have hfind : CodeBlock.find text = .ok [inQuote, unclosed] := by decide +kernel
  have htreats : Treats settings root (baseDirectory path) read inQuote (some filled) :=
    treats_iff.2 (.inr ⟨filled.job, filled, by decide +kernel, ⟨_, rfl, by decide +kernel⟩, rfl⟩)
  have htreats' : Treats settings root (baseDirectory path) read unclosed (some filled') :=
    treats_iff.2 (.inr ⟨filled'.job, filled', by decide +kernel, ⟨_, rfl, by decide +kernel⟩, rfl⟩)
  have hreplace : Replacement.replace text [filled.patch, filled'.patch] = .ok result.text := by
    rw [Replacement.replace, Replacement.bottomUp_eq_reverse (by decide)]
    decide +kernel
  have htreated : List.Forall₂ (Treats settings root (baseDirectory path) read)
      [inQuote, unclosed] [some filled, some filled'] := .cons htreats (.cons htreats' .nil)
  have hok : (document settings root read path text).result = .ok result :=
    document_eq_ok_iff.2 ⟨_, _, hfind, htreated, (replace_eq_ok_iff hfind htreated).1 hreplace,
      rfl, rfl⟩
  refine ⟨hok, document_again ⟨by decide, by decide⟩ ?_ hfind ?_ ?_ hok⟩
  · intro p content hcontent
    rw [← Except.ok.inj hcontent]
    split <;> exact ⟨by decide, by decide⟩
  · rw [List.forall_mem_cons, List.forall_mem_singleton]
    decide +kernel
  · rw [List.forall_mem_cons, List.forall_mem_singleton]
    constructor
    · intro found hfound
      obtain rfl := Option.some.inj (htreats.unique hfound)
      have hlead : inQuote.prefixIn text = "- > ".toList := by decide +kernel
      refine ⟨?_, .inr ?_, .inl rfl⟩ <;> rw [hlead]
      · exact Markdown.tabsUpTo_of_not_mem (by decide)
      · decide
    · intro found hfound
      obtain rfl := Option.some.inj (htreats'.unique hfound)
      have hlead : unclosed.prefixIn text = [] := by decide +kernel
      refine ⟨?_, .inr ?_, .inr (.inr (by decide +kernel))⟩ <;> rw [hlead]
      · exact Markdown.tabsUpTo_of_not_mem List.not_mem_nil
      · exact Markdown.loose_nil

/-- A blank line at the end of a document is no line of an unclosed fence: it stays behind when
    the body that it belongs to is written once more. -/
theorem not_document_again_of_blank_end :
    let content : Text := "foo\n\n".toList
    let text : Text := "~~~x file=a".toList
    let block : CodeBlock :=
      { lang := some ['x'], metadata := some "file=a".toList, value := [], startLine := 0,
        endLine := 1, isClosed := false, markup := "~~~".toList }
    let result : Imported := ⟨"~~~x file=a\nfoo\n".toList, 1, []⟩
    let result' : Imported := ⟨"~~~x file=a\nfoo\n\n".toList, 1, []⟩
    let pass (text : Text) := (document {} "/srv".toList (fun _ => .ok content)
      (some (Path.ofText "/srv/d.md".toList)) text).result
    text.IsPlain ∧ content.IsPlain ∧ CodeBlock.find text = .ok [block] ∧ ByLines {} block ∧
      pass text = .ok result ∧ pass result.text = .ok result' ∧ result'.text ≠ result.text := by
  intro content text block result result' pass
  refine ⟨⟨by decide, by decide⟩, ⟨by decide, by decide⟩, ?_⟩
  decide +kernel

/-- A body line that falls out of its containers ends the fence, and the body is written once more
    by every pass: behind a list marker right after a quote marker, and behind a tab after the
    second quote marker. -/
theorem not_document_again_in_quotes :
    let pass (text : Text) := (document {} "/srv".toList (fun _ => .ok "foo".toList)
      (some (Path.ofText "/srv/d.md".toList)) text).result
    (pass ">1. ~~~x file=a\n>    ~~~".toList =
          .ok ⟨">1. ~~~x file=a\n>   foo\n>    ~~~".toList, 1, []⟩ ∧
        pass ">1. ~~~x file=a\n>   foo\n>    ~~~".toList =
          .ok ⟨">1. ~~~x file=a\n>   foo\n>   foo\n>    ~~~".toList, 1, []⟩) ∧
      pass ">>\t-\t~~~x file=a\n>>\t \t~~~".toList =
          .ok ⟨">>\t-\t~~~x file=a\n>>\t \tfoo\n>>\t \t~~~".toList, 1, []⟩ ∧
        pass ">>\t-\t~~~x file=a\n>>\t \tfoo\n>>\t \t~~~".toList =
          .ok ⟨">>\t-\t~~~x file=a\n>>\t \tfoo\n>>\t \tfoo\n>>\t \t~~~".toList, 1, []⟩ := by
  decide +kernel

end Import

end Transclude
