import Transclude.Proofs.RoundTrip

/-!
# Replacing once more

A code block is settled on a body if giving it this body leaves the document as it is. A block
that was just given a body is settled on it, provided that its fence is found again where it was,
with all lines of the body. For this no line of the body may fall out of the containers of the
fence, and the document may not end with a blank line of a body that no closing line follows:
such a line is none of the fence, and stays behind when the body is replaced.

Patches are applied from the bottom up. One leaves the blocks above it as they are, and those
below it settled.

* `CodeBlock.Lasts`: the condition on a block and its new body;
* `CodeBlock.carries_settled`: what a single patch does to the blocks of a document;
* `CodeBlock.exists_settled`: the document after patches of several blocks.
-/

namespace Transclude

open Markdown (FenceLines Loose TabsUpTo solid)

variable {t v : Text} {b b' c : CodeBlock} {before after : List CodeBlock} {pre ls : List Text}

namespace CodeBlock

/-! ## Settled blocks -/

/-- Giving the code block the body `v` leaves the lines of the document as they are. -/
def Settled (ls : List Text) (b : CodeBlock) (v : Text) : Prop :=
  (b.patch v).apply ls = .ok ls

/-- A settled block stays settled if the lines before it are exchanged for others. -/
theorem Settled.moved {pre' : List Text} (h : Settled (pre ++ ls) b v)
    (hle : pre.length ≤ b.startLine) (hlt : b.startLine < b.endLine)
    (hmoved : Moved ((pre'.length : Int) - pre.length) b b') : Settled (pre' ++ ls) b' v := by
  obtain ⟨hstart, hstop, heq⟩ := hmoved
  -- Counted from the end of the exchanged lines, both patches are the same.
  have hpatch : (b'.patch v).up pre'.length = (b.patch v).up pre.length := by
    have hup : (b'.startLine : Int) - pre'.length = b.startLine - pre.length := by omega
    have hup' : (b'.endLine : Int) - pre'.length = b.endLine - pre.length := by omega
    rw [heq]
    exact congrArg₂ (fun start stop => { b.patch v with start, stop }) hup hup'
  have happly := h
  rw [Settled, Patch.apply_append (Int.ofNat_le.2 hle) (Int.ofNat_lt.2 hlt)] at happly
  have hrest : ((b.patch v).up pre.length).apply ls = .ok ls := by
    cases hls : ((b.patch v).up pre.length).apply ls with
    | error failure =>
      rw [hls] at happly
      exact nomatch happly
    | ok ls' =>
      rw [hls] at happly
      exact congrArg Except.ok (List.append_cancel_left (Except.ok.inj happly))
  have hstart' : (pre'.length : Int) ≤ (b'.patch v).start := by
    show (pre'.length : Int) ≤ b'.startLine
    omega
  have hstop' : (b'.patch v).start < (b'.patch v).stop := by
    show (b'.startLine : Int) < b'.endLine
    omega
  rw [Settled, Patch.apply_append hstart' hstop', hpatch, hrest]
  rfl

/-! ## One patch -/

/-- What it takes for a code block to be settled on the body `v` once it has this body. -/
structure Lasts (t : Text) (b : CodeBlock) (v : Text) : Prop where
  /-- Tabs stand before the third quote marker of the opening line only. -/
  tabs : TabsUpTo 2 (prefixIn t b)
  /-- The body lines stay in the containers of the fence. -/
  fits : BodyFits t b v ∨ Loose (prefixIn t b)
  /-- The document does not end with a blank line of the body. -/
  ends : b.isClosed ∨ b.endLine < (Text.lines t).length ∨
    ∀ line ∈ (Replacement.valueLines v).getLast?, solid line ≠ []

theorem Lasts.ends_edit {f : Markdown.Fence} {h : FenceLines t f}
    (hlasts : h.codeBlock.Lasts t v) : (h.edit v).Ends := by
  refine h.ends_edit fun hnone hafter => ?_
  rcases hlasts.ends with hclosed | hlt | hsolid
  · have hsome : h.closing.isSome := hclosed
    rw [hnone] at hsome
    exact nomatch hsome
  · have hle : (Text.lines t).length = f.stop := by
      rw [h.lines, hafter, h.stop, List.append_nil, List.length_append, List.length_cons]
      omega
    have hlt : f.stop < (Text.lines t).length := hlt
    omega
  · exact hsolid

theorem Lasts.correct_edit {f : Markdown.Fence} {h : FenceLines t f}
    (hlasts : h.codeBlock.Lasts t v) : (h.edit v).Correct False := by
  have hlead := prefixIn_codeBlock h
  refine h.correct_edit (hlead ▸ hlasts.tabs) ?_ hlasts.ends_edit
  rcases hlasts.fits with hfits | hloose
  · exact .inl ((bodyFits_iff_agrees hlead rfl).1 hfits)
  · exact .inr ⟨id, hlead ▸ hloose⟩

/-- A block above the patched one has the same lines as before, and more lines follow. -/
theorem prefixIn_above {f : Markdown.Fence} (h : FenceLines t f) {t' : Text}
    (hlines : Text.lines t' = (h.edit v).pieces') (hlt : c.startLine < c.endLine)
    (hle : c.endLine ≤ f.start) :
    prefixIn t' c = prefixIn t c ∧ c.endLine < (Text.lines t').length := by
  have hle : c.endLine ≤ h.before.length := hle.trans_eq h.start
  constructor
  · rw [prefixIn, prefixIn, hlines, h.lines_eq v, Markdown.Edit.pieces', Markdown.Edit.pieces]
    show beforeMarkup _ (((h.before ++ _)[c.startLine]?).getD []) =
      beforeMarkup _ (((h.before ++ _)[c.startLine]?).getD [])
    rw [List.getElem?_append_left (by omega), List.getElem?_append_left (by omega)]
  · rw [hlines, Markdown.Edit.pieces', List.length_append, List.length_cons]
    show c.endLine < h.before.length + _
    omega

theorem BodyFits.congr {t' : Text} (h : b.BodyFits t v) (hlead : prefixIn t' b = prefixIn t b) :
    b.BodyFits t' v := by
  rwa [BodyFits, hlead]

/-- The condition only looks at what stands before the fence if the document goes on after it. -/
theorem Lasts.congr {t' : Text} (h : b.Lasts t v) (hlead : prefixIn t' b = prefixIn t b)
    (hlt : b.endLine < (Text.lines t').length) : b.Lasts t' v where
  tabs := hlead ▸ h.tabs
  fits := h.fits.imp (·.congr hlead) (hlead ▸ ·)
  ends := .inr (.inl hlt)

/-- A block below the patched one has the same lines as before, further up or down. -/
theorem Settled.below {f : Markdown.Fence} (h : FenceLines t f) {t' w : Text}
    (hlines : Text.lines t' = (h.edit v).pieces') (hle : f.stop ≤ c.startLine)
    (hlt : c.startLine < c.endLine) {c' : CodeBlock} (hmoved : Moved (growth t t') c c')
    (hsettled : Settled (Text.lines t) c w) : Settled (Text.lines t') c' w := by
  have hsplit : Text.lines t = (h.before ++ (h.lead ++ ((h.edit v).markup ++ f.info)) ::
      (h.edit v).old) ++ h.after := by
    rw [h.lines_eq v, List.append_assoc, List.cons_append]
    rfl
  have hsplit' : Text.lines t' = (h.before ++ (h.lead ++ ((h.edit v).markup' ++ f.info)) ::
      (h.edit v).new) ++ h.after := by
    rw [hlines, List.append_assoc, List.cons_append]
    rfl
  have hstop : f.stop = h.before.length + 1 + (h.edit v).old.length := h.stop
  rw [growth_eq h hlines] at hmoved
  rw [hsplit] at hsettled
  rw [hsplit']
  refine hsettled.moved (by rw [List.length_append, List.length_cons]; omega) hlt ?_
  convert hmoved using 1
  rw [List.length_append, List.length_append, List.length_cons, List.length_cons]
  omega

/-! ## Several patches -/

/-- A code block that has become `b'`: it is settled on its new body, if it got one. -/
def Renewed (ls : List Text) (q : CodeBlock × Option Text) (b' : CodeBlock) : Prop :=
  b'.metadata = q.1.metadata ∧ ∀ v ∈ q.2, Settled ls b' v

/-- A patch settles its block, and leaves those below settled. -/
theorem carries_settled :
    Carries (fun t b v => v.IsPlain ∧ b.Lasts t v) fun t q b' => Renewed (Text.lines t) q b' := by
  rintro t v b before after ht hfind ⟨hv, hlasts⟩
  have hstands := stands_of_find hfind
  obtain ⟨-, hpairwise, hcross⟩ := List.pairwise_append.1 (pairwise_of_find hfind)
  obtain ⟨fs, gs, f, h, hfences, rfl, hbefore, hafter⟩ := exists_fenceLines ht hfind
  have hlines := h.lines_new ht hv
  have hplain := h.isPlain_new ht hv
  -- From here on only the lines of the new document matter.
  generalize Text.unlines (h.edit v).pieces' = t' at hlines hplain
  obtain ⟨f', hnew, -, after', -, hfind', hmoved⟩ :=
    exists_find_new ht h hlasts.correct_edit hfences hbefore hafter hplain hlines
  refine ⟨t', (h.renew hlines hnew).codeBlock, after', ?_, hplain, hfind',
    fun c hc w hw => ⟨hw.1, ?_⟩,
    ⟨congrArg (fun info => (splitInfo info).2) hnew.info', fun w hw => ?_⟩,
    fun done hdone => ?_⟩
  · rw [h.apply_eq, hlines]
  · obtain ⟨hlead, hlt⟩ := prefixIn_above h hlines
      (hstands c (List.mem_append_left _ hc)).start_lt_stop (hcross c hc h.codeBlock
        List.mem_cons_self)
    exact hw.2.congr hlead hlt
  · obtain rfl := Option.some.inj hw
    exact h.apply_renew hlines hnew
  · refine forall₂_comp hdone ((List.forall₂_and_left ..).2 ⟨fun c hc => hc, hmoved⟩)
      fun q c c' hq ⟨hc, hmoved⟩ => ⟨by rw [hmoved.eq]; exact hq.1, fun w hw => ?_⟩
    have hlt := (hstands c (List.mem_append_right _ (List.mem_cons_of_mem _ hc))).start_lt_stop
    exact (hq.2 w hw).below h hlines ((List.pairwise_cons.1 hpairwise).1 c hc) hlt hmoved

/-- Code blocks that get new bodies are settled on these in the document that comes out. -/
theorem exists_settled {qs : List (CodeBlock × Option Text)} (ht : t.IsPlain)
    (hfind : find t = .ok (qs.map Prod.fst))
    (hlasts : ∀ q ∈ qs, ∀ v ∈ q.2, v.IsPlain ∧ q.1.Lasts t v) :
    ∃ t' bs, Replacement.replace t (patches qs) = .ok t' ∧ find t' = .ok bs ∧ t'.IsPlain ∧
      List.Forall₂ (Renewed (Text.lines t')) qs bs :=
  exists_replace carries_settled (fun _ _ => ⟨rfl, nofun⟩) ht hfind hlasts

/-- Patches on which their blocks are settled change nothing. -/
theorem replace_of_settled (ht : t.IsPlain) {ps : List Patch}
    (h : ∀ p ∈ ps, p.apply (Text.lines t) = .ok (Text.lines t)) :
    Replacement.replace t ps = .ok t := by
  have hfold (qs : List Patch) (hqs : ∀ p ∈ qs, p.apply (Text.lines t) = .ok (Text.lines t)) :
      qs.foldlM (fun ls p => p.apply ls) (Text.lines t) = .ok (Text.lines t) := by
    induction qs with
    | nil => rfl
    | cons p qs ih =>
      rw [List.forall_mem_cons] at hqs
      rw [List.foldlM_cons, hqs.1]
      exact ih hqs.2
  have hsorted : ∀ p ∈ Replacement.bottomUp ps, p.apply (Text.lines t) = .ok (Text.lines t) :=
    fun p hp => h p ((List.mergeSort_perm _ _).mem_iff.1 hp)
  rw [Replacement.replace, hfold _ hsorted]
  exact congrArg Except.ok (Text.unlines_lines ht)

end CodeBlock

end Transclude
