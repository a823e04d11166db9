import Transclude.Proofs.Refill

/-!
# Finding undoes replacing

If a closed code block gets another body, the document that comes out holds the same code
blocks, this one with the new body and those after it further up or down. For this the body
lines have to fit behind the lead: a blank may follow a quote marker in a body line only where
one follows it in the opening line. A body line that does not fit loses a blank to the marker,
and the block then has another body, or ends before the line. So the blocks that can be given
every body are those with a blank or a further marker after each quote marker before the
fence.

A lead with a tab after its second quote marker is left out.

* `CodeBlock.RoundTrips`: what it means that finding undoes replacing;
* `CodeBlock.roundTrips_of_agrees`, `CodeBlock.agrees_of_roundTrips`: the bodies for which it does;
* `CodeBlock.roundTrips_iff_spaced`: the code blocks for which it always does.
-/

namespace Transclude

open Markdown (Agrees Edit Fence FenceLines Fits Site Spaced TabsUpTo carry fences)

variable {t v line x : Text} {f : Fence} {b : CodeBlock} {before after : List CodeBlock}

/-! ## Code blocks of two documents -/

namespace CodeBlock

/-- What stands before the fence of a code block in its opening line. -/
def prefixIn (t : Text) (b : CodeBlock) : Text :=
  beforeMarkup b.markup ((Text.lines t)[b.startLine]?.getD [])

/-- The fence of a code block has a closing line. -/
def HasClosingLine (t : Text) (b : CodeBlock) : Prop :=
  ∃ f ∈ fences t, f.start = b.startLine ∧ f.isClosed

/-- The code block `b'` is `b` with the body `v`, which makes it `δ` lines longer; the fence
    may have become longer. -/
structure Refilled (v : Text) (δ : Int) (b b' : CodeBlock) : Prop where
  value : b'.value = v
  lang : b'.lang = b.lang
  metadata : b'.metadata = b.metadata
  startLine : b'.startLine = b.startLine
  endLine : (b'.endLine : Int) = b.endLine + δ
  lead : b'.lead = b.lead
  isClosed : b'.isClosed = b.isClosed
  markup : b.markup <+: b'.markup

/-- In the document in which the code block `b` gets the body `v`, one finds the code block
    with this body, those before it unchanged, and those after it moved. -/
def RoundTrips (t : Text) (before : List CodeBlock) (b : CodeBlock) (after : List CodeBlock)
    (v : Text) : Prop :=
  ∃ t' b' after', Replacement.replace t [b.patch v] = .ok t' ∧
    find t' = .ok (before ++ b' :: after') ∧ Refilled v (growth t t') b b' ∧
      List.Forall₂ (Moved (growth t t')) after after'

end CodeBlock

/-! ## The bodies that are found again -/

/-- The lines of a document around a closed fence. -/
structure Markdown.ClosedFence (t : Text) (f : Fence) extends FenceLines t f where
  isSome_closing : closing.isSome

open Markdown (ClosedFence)

theorem Markdown.ClosedFence.ends_edit (h : ClosedFence t f) : (h.edit v).Ends :=
  h.toFenceLines.ends_edit fun hnone => by
    have hsome := h.isSome_closing
    rw [hnone] at hsome
    exact nomatch hsome

namespace CodeBlock

/-- The code block of the exchanged fence, if all lines of the new body agree with the lead. -/
theorem refilled_renew (h : FenceLines t f) (hclosed : f.isClosed = h.closing.isSome) {t' : Text}
    {f' : Fence}
    (hlines : Text.lines t' = (h.edit v).pieces')
    (hnew : Site.Fences (h.edit v).toExchange True (h.edit v).before.length (h.edit v).old.length
      (h.edit v).new.length f f') :
    Refilled v (growth t t') h.codeBlock (h.renew hlines hnew).codeBlock where
  value := by
    show Text.unlines f'.body = v
    rw [(hnew.exact trivial hclosed).2]
    exact Replacement.unlines_valueLines v
  lang := congrArg (fun info => (splitInfo info).1) hnew.info'
  metadata := congrArg (fun info => (splitInfo info).2) hnew.info'
  startLine := hnew.start'.trans hnew.start.symm
  endLine := by
    show (f'.stop : Int) = f.stop + growth t t'
    rw [growth_eq h hlines, hnew.stop, hnew.stop']
    omega
  lead := rfl
  isClosed := Option.isSome_map ..
  markup := by
    show f.markup <+: f'.markup
    have hle := Replacement.le_fitSize h.fence h.size v
    rw [hnew.markup', h.markup]
    exact ⟨List.replicate (Replacement.fitSize h.fence h.size v - h.size) h.fence, by
      rw [List.replicate_append_replicate, Nat.add_sub_cancel' hle]; rfl⟩

/-- A fence is closed if its code block has a closing line. -/
theorem isClosed_of_hasClosingLine (hf : f ∈ fences t) (hclosed : b.HasClosingLine t)
    (hstart : b.startLine = f.start) : f.isClosed := by
  obtain ⟨hi, hordered⟩ := Markdown.exists_ordered_fences t
  obtain ⟨g, hg, hgstart, hgclosed⟩ := hclosed
  -- The closed fence that starts in this line is the one that the code block was made of.
  obtain ⟨fs, gs, hfences⟩ := List.append_of_mem hf
  obtain ⟨fs', gs', hsplit⟩ := List.append_of_mem hg
  obtain ⟨-, rfl, -⟩ := (hfences ▸ hordered).append_cons_inj (hfences.symm.trans hsplit)
    (hstart.symm.trans hgstart.symm)
  exact hgclosed

/-- A closed code block knows the lines of its fence. -/
theorem exists_closedFence (ht : t.IsPlain) (hfind : find t = .ok (before ++ b :: after))
    (hclosed : b.HasClosingLine t) :
    ∃ (fs gs : List Fence) (f : Fence) (h : ClosedFence t f),
      fences t = fs ++ f :: gs ∧ f.isClosed ∧ b = h.codeBlock ∧
        List.Forall₂ (fun f b => ofFence (Text.lines t) f = .ok b) fs before ∧
          List.Forall₂ (fun f b => ofFence (Text.lines t) f = .ok b) gs after := by
  obtain ⟨fs, gs, f, h, hfences, rfl, hbefore, hafter⟩ := exists_fenceLines ht hfind
  have hf : f ∈ fences t := hfences ▸ List.mem_append_right _ List.mem_cons_self
  have hfclosed := isClosed_of_hasClosingLine hf hclosed rfl
  exact ⟨fs, gs, f, ⟨h, h.isSome_closing ht hf hfclosed⟩, hfences, hfclosed, rfl, hbefore, hafter⟩

variable {fs gs : List Fence}

/-- The code blocks of the new document, if all lines of the new body agree with the lead. -/
theorem roundTrips_of_agrees (ht : t.IsPlain) (hv : v.IsPlain) (h : ClosedFence t f)
    (hfences : fences t = fs ++ f :: gs) (hclosed : f.isClosed)
    (hbefore : List.Forall₂ (fun f b => ofFence (Text.lines t) f = .ok b) fs before)
    (hafter : List.Forall₂ (fun f b => ofFence (Text.lines t) f = .ok b) gs after)
    (htabs : TabsUpTo 2 h.lead) (hagrees : ∀ line ∈ Replacement.valueLines v, Agrees h.lead line) :
    RoundTrips t before h.codeBlock after v := by
  have hcorrect : (h.edit v).Correct True := h.correct_edit htabs (.inl hagrees) h.ends_edit
  have hlines := h.lines_new ht hv
  obtain ⟨f', hnew, -, after', -, hfind, hmoved⟩ :=
    exists_find_new ht h.toFenceLines hcorrect hfences hbefore hafter (h.isPlain_new ht hv) hlines
  exact ⟨_, _, after', h.replace_eq v, hfind,
    refilled_renew h.toFenceLines (hclosed.trans h.isSome_closing.symm) hlines hnew, hmoved⟩

/-- If the new body is found, its lines agree with the lead, apart from those that start with
    a tab. -/
theorem agrees_of_roundTrips (ht : t.IsPlain) (hv : v.IsPlain) (h : ClosedFence t f)
    (htabs : TabsUpTo 2 h.lead) (hround : RoundTrips t before h.codeBlock after v)
    (hline : line ∈ Replacement.valueLines v) (htab : line.head? ≠ some '\t') :
    Agrees h.lead line := by
  obtain ⟨t', b', after', hreplace, hfind, hrefilled, -⟩ := hround
  obtain rfl := Except.ok.inj (hreplace.symm.trans (h.replace_eq v))
  obtain ⟨g, gs, hg, -, hdrop⟩ := List.forall₂_cons_right_iff.1
    (List.forall₂_drop_append _ _ _ (mapM_eq_ok_iff.1 hfind))
  have hmem : g ∈ fences (Text.unlines (h.edit v).pieces') :=
    (List.drop_suffix _ _).mem (hdrop ▸ List.mem_cons_self)
  obtain ⟨opening, isClosed, rfl⟩ := exists_of_ofFence hg
  have hplain := h.isPlain_new ht hv
  have hbody : g.body = Replacement.valueLines v :=
    Replacement.eq_valueLines (Markdown.isLine_body hplain hmem) (List.ne_nil_of_mem hline)
      hrefilled.value
  have hclosing : (h.edit v).closing ≠ [] := by
    obtain ⟨c, hc⟩ := Option.isSome_iff_exists.1 h.isSome_closing
    show h.closing.toList.map _ ≠ []
    rw [hc]
    exact List.cons_ne_nil _ _
  have hl' : (h.edit v).site.lines' = Markdown.documentLines (Text.unlines (h.edit v).pieces') := by
    rw [h.ends_edit.lines'_site, Markdown.documentLines_eq hplain, h.lines_new ht hv]
  exact Edit.agrees_of_body h.lead_not htabs hclosing hl' hmem
    (hrefilled.startLine.trans h.start) hbody hline htab

/-- The lines of the body `v`, as they are written, fit behind what stands before the fence. -/
def BodyFits (t : Text) (b : CodeBlock) (v : Text) : Prop :=
  ∀ line ∈ Replacement.bodyLines b.lead v, Fits (prefixIn t b) line

theorem prefixIn_codeBlock (h : FenceLines t f) : prefixIn t h.codeBlock = h.lead := by
  have hline : (Text.lines t)[f.start]? = some (h.lead ++ (f.markup ++ f.info)) := by
    rw [h.lines, h.start, Markdown.getElem?_opening]
  have hsize := h.size_le
  show beforeMarkup f.markup ((Text.lines t)[f.start]?.getD []) = h.lead
  rw [hline, Option.getD_some, h.markup]
  exact beforeMarkup_replicate (fun hmem => h.lead_not _ hmem h.isFenceChar) (by omega)
    (Nat.le_refl _)

theorem bodyFits_iff_agrees (hbefore : prefixIn t b = x) (hlead : b.lead = leadOf x) :
    BodyFits t b v ↔ ∀ line ∈ Replacement.valueLines v, Agrees x line := by
  rw [BodyFits, hbefore, hlead, Replacement.bodyLines_eq, List.forall_mem_map]
  exact forall₂_congr fun line _ => Markdown.fits_carry_iff

theorem bodyFits_iff (h : ClosedFence t f) :
    BodyFits t h.codeBlock v ↔ ∀ line ∈ Replacement.valueLines v, Agrees h.lead line :=
  bodyFits_iff_agrees (prefixIn_codeBlock h.toFenceLines) rfl

/-- Finding the code blocks undoes giving one of them a body, if the body fits; and if no line
    of the body starts with a tab, only then. So it always does if, and only if, the quote
    markers before the fence are spaced. -/
theorem roundTrips_iff_spaced (ht : t.IsPlain) (hfind : find t = .ok (before ++ b :: after))
    (hclosed : b.HasClosingLine t) (htabs : TabsUpTo 2 (prefixIn t b)) :
    (∀ v, v.IsPlain → BodyFits t b v → RoundTrips t before b after v) ∧
      (∀ v, v.IsPlain → (∀ line ∈ Text.lines v, line.head? ≠ some '\t') →
        RoundTrips t before b after v → BodyFits t b v) ∧
      ((∀ v, v.IsPlain → RoundTrips t before b after v) ↔ Spaced (prefixIn t b)) := by
  obtain ⟨fs, gs, f, h, hfences, hfclosed, rfl, hbefore, hafter⟩ :=
    exists_closedFence ht hfind hclosed
  rw [prefixIn_codeBlock] at htabs ⊢
  have hsound {v : Text} (hv : v.IsPlain)
      (hagrees : ∀ line ∈ Replacement.valueLines v, Agrees h.lead line) :
      RoundTrips t before h.codeBlock after v :=
    roundTrips_of_agrees ht hv h hfences hfclosed hbefore hafter htabs hagrees
  refine ⟨fun v hv hfits => hsound hv ((bodyFits_iff h).1 hfits), fun v hv htab hround => ?_,
    fun hround => ?_, fun hspaced v hv => hsound hv fun line _ => hspaced.agrees line⟩
  · exact (bodyFits_iff h).2 fun line hline => agrees_of_roundTrips ht hv h htabs hround hline
      (htab line (Replacement.mem_lines_of_mem_valueLines hv hline))
  · -- One body tells: a blank at its start is lost where a quote marker may take it.
    have hv : Text.IsPlain " x".toList := ⟨by decide, by decide⟩
    exact Markdown.spaced_of_agrees
      (agrees_of_roundTrips ht hv h htabs (hround _ hv) (List.mem_singleton_self _)
        (by decide))

/-- A body with blanks at its start, an empty line and a run of fence characters, for a block in
    a quote in a list item. -/
theorem roundTrips_spaced_example :
    RoundTrips "- > ~~~\n  > x\n  > ~~~".toList []
      { lang := none, metadata := none, value := ['x'], startLine := 0, endLine := 3,
        lead := "  > ".toList, markup := "~~~".toList }
      [] "  x\n\n~~~~".toList := by
  have hspaced : Spaced "- > ".toList := by
    simp [Markdown.spaced_cons, Markdown.spaced_nil, Text.isSpaceOrTab]
  refine (roundTrips_iff_spaced ⟨by decide, by decide⟩ ?_ ?_ ?_).2.2.2 ?_ _
    ⟨by decide, by decide⟩
  · decide +kernel
  · unfold HasClosingLine
    decide +kernel
  · exact Markdown.tabsUpTo_of_not_mem (by decide)
  · exact hspaced

theorem not_roundTrips_of_value {t' : Text} {b' : CodeBlock}
    (hreplace : Replacement.replace t [b.patch v] = .ok t') (hfind : find t' = .ok [b'])
    (hne : b'.value ≠ v) : ¬RoundTrips t [] b [] v := by
  rintro ⟨u, c, cs, hu, hc, hrefilled, -⟩
  obtain rfl := Except.ok.inj (hreplace.symm.trans hu)
  obtain ⟨rfl, -⟩ := List.cons.inj (Except.ok.inj (hfind.symm.trans hc))
  exact hne hrefilled.value

/-- Behind a quote marker that no blank follows a body line loses the blank at its start. -/
theorem not_roundTrips_tight_example :
    Text.IsPlain ">~~~\n>~~~".toList ∧
      find ">~~~\n>~~~".toList =
        .ok [{ lang := none, metadata := none, value := [], startLine := 0, endLine := 2,
               lead := ['>'], markup := "~~~".toList }] ∧
      HasClosingLine ">~~~\n>~~~".toList
        { lang := none, metadata := none, value := [], startLine := 0, endLine := 2,
          lead := ['>'], markup := "~~~".toList } ∧
      Text.IsPlain " x".toList ∧
      ¬RoundTrips ">~~~\n>~~~".toList []
        { lang := none, metadata := none, value := [], startLine := 0, endLine := 2,
          lead := ['>'], markup := "~~~".toList } [] " x".toList := by
  refine ⟨⟨by decide, by decide⟩, by decide +kernel, ?_, ⟨by decide, by decide⟩, ?_⟩
  · unfold HasClosingLine
    decide +kernel
  · refine @not_roundTrips_of_value _ _ _ ">~~~\n> x\n>~~~".toList
      { lang := none, metadata := none, value := ['x'], startLine := 0, endLine := 3,
        lead := ['>'], markup := "~~~".toList } ?_ ?_ ?_
    · decide +kernel
    · decide +kernel
    · decide

/-- Behind the second quote marker the columns of a tab are counted in another way for the
    body lines than for the opening line. -/
theorem not_roundTrips_tab :
    Spaced ">>\t".toList ∧
      ¬RoundTrips ">>\t~~~\n>>\t~~~".toList []
        { lang := none, metadata := none, value := [], startLine := 0, endLine := 2,
          lead := ">>\t".toList, markup := "~~~".toList } [] "x".toList := by
  constructor
  · simp [Markdown.spaced_cons, Markdown.spaced_nil, Text.isSpaceOrTab]
  · refine @not_roundTrips_of_value _ _ _ ">>\t~~~\n>>\tx\n>>\t~~~".toList
      { lang := none, metadata := none, value := " x".toList, startLine := 0, endLine := 3,
        lead := ">>\t".toList, markup := "~~~".toList } ?_ ?_ ?_
    · decide +kernel
    · decide +kernel
    · decide

end CodeBlock

end Transclude
