import Transclude.Proofs.Settled

/-!
# Finding the new bodies

If several code blocks get new bodies, the same blocks are found in the document that comes out,
these with their new bodies and all others with their old ones. For this the new bodies have to
fit behind the leads, the closing line of a block has to be one, and no blank line may come last
in a body that nothing follows.

* `CodeBlock.Shows`: the condition on a block and its new body;
* `CodeBlock.exists_shown`: the blocks of a document after patches of several blocks.
-/

namespace Transclude

open Markdown (Fence FenceLines Spaced TabsUpTo fences solid)

variable {t t' v : Text} {f : Fence} {b c : CodeBlock} {qs : List (CodeBlock × Option Text)}

namespace CodeBlock

/-- What it takes for the body `v` to be found in a code block that has got it. -/
structure Shows (t : Text) (b : CodeBlock) (v : Text) : Prop where
  isPlain : v.IsPlain
  /-- The last line of the block closes its fence if it looks as if it did. -/
  closing : b.isClosed → b.HasClosingLine t
  /-- Tabs stand before the third quote marker of the opening line only. -/
  tabs : TabsUpTo 2 (prefixIn t b)
  fits : BodyFits t b v
  /-- The document does not end with a blank line of the body. -/
  ends : b.isClosed ∨ b.endLine < (Text.lines t).length ∨
    ∀ line ∈ (Replacement.valueLines v).getLast?, solid line ≠ []

/-- A code block that has become `b'`: it has the new body if it got one, and else the old one. -/
structure Shown (b : CodeBlock) (v? : Option Text) (b' : CodeBlock) : Prop where
  lang : b'.lang = b.lang
  metadata : b'.metadata = b.metadata
  isClosed : b'.isClosed = b.isClosed
  value : b'.value = v?.getD b.value

/-- A block with a closing line takes every plain body behind spaced quote markers. -/
theorem shows_of_spaced (hv : v.IsPlain) (hisClosed : b.isClosed) (hclosing : b.HasClosingLine t)
    (htab : '\t' ∉ prefixIn t b) (hspaced : Spaced (prefixIn t b))
    (hlead : b.lead = leadOf (prefixIn t b)) : b.Shows t v where
  isPlain := hv
  closing := fun _ => hclosing
  tabs := Markdown.tabsUpTo_of_not_mem htab
  fits := (bodyFits_iff_agrees rfl hlead).2 fun line _ => hspaced.agrees line
  ends := .inl hisClosed

/-! ## One patch -/

theorem Shows.lasts (h : b.Shows t v) : b.Lasts t v :=
  ⟨h.tabs, .inl h.fits, h.ends⟩

theorem Shows.correct_edit {h : FenceLines t f} (hshows : h.codeBlock.Shows t v) :
    (h.edit v).Correct True :=
  h.correct_edit (prefixIn_codeBlock h ▸ hshows.tabs)
    (.inl ((bodyFits_iff_agrees (prefixIn_codeBlock h) rfl).1 hshows.fits)) hshows.lasts.ends_edit

/-- The fence of the block is closed if its last line looks as if it closed it. -/
theorem Shows.isClosed_eq {h : FenceLines t f} (hshows : h.codeBlock.Shows t v) (ht : t.IsPlain)
    (hf : f ∈ fences t) : f.isClosed = h.closing.isSome := by
  refine Bool.eq_iff_iff.2 ⟨h.isSome_closing ht hf, fun hclosing => ?_⟩
  exact isClosed_of_hasClosingLine hf (hshows.closing hclosing) rfl

/-- A block above the patched one has the same closing line as before. -/
theorem HasClosingLine.above {fs gs gs' : List Fence} {f' : Fence} (h : c.HasClosingLine t)
    (hfences : fences t = fs ++ f :: gs) (hfences' : fences t' = fs ++ f' :: gs')
    (hlt : c.startLine < f.start) : c.HasClosingLine t' := by
  obtain ⟨g, hg, hstart, hclosed⟩ := h
  have hpairwise := hfences ▸ Markdown.pairwise_fences t
  rw [hfences, List.mem_append, List.mem_cons] at hg
  rcases hg with hg | rfl | hg
  · exact ⟨g, hfences' ▸ List.mem_append_left _ hg, hstart, hclosed⟩
  · omega
  · have hle := (List.pairwise_cons.1 (List.pairwise_append.1 hpairwise).2.1).1 g hg
    have := (Markdown.start_lt_stop_of_mem
      (hfences ▸ List.mem_append_right fs List.mem_cons_self : f ∈ fences t)).1
    omega

/-- A patched block is found with its new body, and those below it with theirs. -/
theorem carries_shown : Carries Shows fun _ q b' => q.1.Shown q.2 b' := by
  intro t v b before after ht hfind hshows
  have hstands := stands_of_find hfind
  obtain ⟨-, -, hcross⟩ := List.pairwise_append.1 (pairwise_of_find hfind)
  obtain ⟨fs, gs, f, h, hfences, rfl, hbefore, hafter⟩ := exists_fenceLines ht hfind
  have hf : f ∈ fences t := hfences ▸ List.mem_append_right _ List.mem_cons_self
  have hlines := h.lines_new ht hshows.isPlain
  have hplain := h.isPlain_new ht hshows.isPlain
  -- From here on only the lines of the new document matter.
  generalize Text.unlines (h.edit v).pieces' = t' at hlines hplain
  obtain ⟨f', hnew, gs', after', hfences', hfind', hmoved⟩ :=
    exists_find_new ht h hshows.correct_edit hfences hbefore hafter hplain hlines
  have hrefilled := refilled_renew h (hshows.isClosed_eq ht hf) hlines hnew
  refine ⟨t', (h.renew hlines hnew).codeBlock, after', ?_, hplain, hfind', fun c hc w hw => ?_,
    ⟨hrefilled.lang, hrefilled.metadata, hrefilled.isClosed, hrefilled.value⟩,
    fun done hdone => ?_⟩
  · rw [h.apply_eq, hlines]
  · have hlt := (hstands c (List.mem_append_left _ hc)).start_lt_stop
    have hle : c.endLine ≤ f.start := hcross c hc h.codeBlock List.mem_cons_self
    obtain ⟨hlead, hlast⟩ := prefixIn_above h hlines hlt hle
    exact ⟨hw.isPlain, fun hclosed => (hw.closing hclosed).above hfences hfences' (by omega),
      hlead ▸ hw.tabs, hw.fits.congr hlead, .inr (.inl hlast)⟩
  · refine forall₂_comp hdone hmoved fun q c c' hq hmoved => ?_
    rw [hmoved.eq]
    exact ⟨hq.lang, hq.metadata, hq.isClosed, hq.value⟩

/-! ## Several patches -/

/-- The condition goes by the lines and the fences of the document. -/
theorem Shows.of_eq (h : b.Shows t v) (hlines : Text.lines t' = Text.lines t)
    (hfences : fences t' = fences t) : b.Shows t' v where
  isPlain := h.isPlain
  closing := fun hclosed => by
    rw [HasClosingLine, hfences]
    exact h.closing hclosed
  tabs := by
    rw [prefixIn, hlines]
    exact h.tabs
  fits := h.fits.congr (by rw [prefixIn, prefixIn, hlines])
  ends := hlines ▸ h.ends

/-- Code blocks that get new bodies are found with these in the document that comes out, and the
    others with their old ones. -/
theorem exists_shown (ht : (Text.unifyBreaks t).IsPlain) (hfind : find t = .ok (qs.map Prod.fst))
    (hshows : ∀ q ∈ qs, ∀ v ∈ q.2, q.1.Shows t v) :
    ∃ t' bs, Replacement.replace t (patches qs) = .ok t' ∧ find t' = .ok bs ∧
      List.Forall₂ (fun q b' => q.1.Shown q.2 b') qs bs := by
  have hlines := Text.lines_unifyBreaks ht.no_return
  have hfences := Markdown.fences_unifyBreaks ht.no_return
  have hfind' : find (Text.unifyBreaks t) = .ok (qs.map Prod.fst) := by
    rw [find, hlines, hfences]
    exact hfind
  obtain ⟨t', bs, hreplace, hbs, -, hshown⟩ :=
    exists_replace carries_shown (fun _ _ => ⟨rfl, rfl, rfl, rfl⟩) ht hfind' fun q hq v hv =>
      (hshows q hq v hv).of_eq hlines hfences
  refine ⟨t', bs, ?_, hbs, hshown⟩
  rw [Replacement.replace, ← hlines]
  exact hreplace

end CodeBlock

end Transclude
