import Mathlib.Data.List.Induction
import Transclude.Proofs.Patches

/-!
# The document after patches

If a code block gets another body, and the fence is still where it was, the document that comes
out holds the same code blocks, apart from this one and from where those after it stand. Several
patches are applied from the bottom up, so that a patch finds the blocks above it as they were,
and those below it done.

* `Markdown.FenceLines.isPlain_new`, `Markdown.FenceLines.lines_new`: the lines of the new
  document;
* `CodeBlock.exists_fenceLines`: the lines of a code block that was found;
* `CodeBlock.exists_find_new`: the code blocks of the new document;
* `CodeBlock.exists_replace`: the code blocks after several patches, given what one does.
-/

namespace Transclude

open Markdown (Edit Fence FenceLines IsFenceChar Ordered Site carry leadChar fences)

variable {t t' v line x : Text} {f : Fence} {b : CodeBlock} {before after : List CodeBlock}

/-! ## Lists side by side -/

theorem exists_forall₂ {α β γ : Type} {R : α → β → Prop} {S : α → γ → Prop} {M : β → γ → Prop}
    {as : List α} {bs : List β} (h : List.Forall₂ R as bs)
    (hstep : ∀ a ∈ as, ∀ b, R a b → ∃ c, S a c ∧ M b c) :
    ∃ cs, List.Forall₂ S as cs ∧ List.Forall₂ M bs cs := by
  induction h with
  | nil => exact ⟨[], .nil, .nil⟩
  | @cons a b as bs hab _ ih =>
    obtain ⟨c, hac, hbc⟩ := hstep a List.mem_cons_self b hab
    obtain ⟨cs, has, hbs⟩ := ih fun a ha => hstep a (List.mem_cons_of_mem _ ha)
    exact ⟨c :: cs, .cons hac has, .cons hbc hbs⟩

theorem forall₂_comp {α β γ : Type} {R : α → β → Prop} {S : β → γ → Prop} {T : α → γ → Prop}
    {as : List α} {bs : List β} {cs : List γ} (hR : List.Forall₂ R as bs)
    (hS : List.Forall₂ S bs cs) (h : ∀ a b c, R a b → S b c → T a c) : List.Forall₂ T as cs := by
  induction hR generalizing cs with
  | nil =>
    rw [List.forall₂_nil_left_iff.1 hS]
    exact .nil
  | cons hab _ ih =>
    obtain ⟨c, cs, hbc, hrest, rfl⟩ := List.forall₂_cons_left_iff.1 hS
    exact .cons (h _ _ _ hab hbc) (ih hrest)

/-! ## The lines of the new document -/

namespace Markdown

theorem mem_carry {c : Char} (h : c ∈ carry x line) :
    c = ' ' ∨ c = '\t' ∨ c = '>' ∨ c ∈ line := by
  induction x with
  | nil => exact .inr (.inr (.inr h))
  | cons d x ih =>
    rw [carry] at h
    split at h
    · exact absurd h List.not_mem_nil
    · rcases List.mem_cons.1 h with rfl | h
      · rw [leadChar]
        split
        · rename_i hd
          simp only [Bool.or_eq_true, decide_eq_true_eq] at hd
          rcases hd with (hd | hd) | hd
          · exact .inl hd
          · exact .inr (.inl hd)
          · exact .inr (.inr (.inl hd))
        · exact .inl rfl
      · exact ih h

theorem isLine_carry (hline : line.IsLine) (x : Text) : (carry x line).IsLine := fun c hc => by
  rcases mem_carry hc with rfl | rfl | rfl | hc
  · decide
  · decide
  · decide
  · exact hline c hc

theorem isLine_replicate {d : Char} (hd : IsFenceChar d) (n : Nat) :
    Text.IsLine (List.replicate n d) := fun c hc => by
  rw [List.eq_of_mem_replicate hc]
  rcases hd with rfl | rfl <;> decide

namespace FenceLines

variable (h : FenceLines t f)

/-- The new document consists of plain lines. -/
theorem isLine_of_mem_pieces' (ht : t.IsPlain) (hv : v.IsPlain) :
    ∀ line ∈ (h.edit v).pieces', line.IsLine := by
  have hpieces : ∀ line ∈ (h.edit v).pieces, line.IsLine := fun line hline =>
    ht.isLine (h.lines_eq v ▸ hline)
  rw [Edit.pieces, List.forall_mem_append, List.forall_mem_cons, List.forall_mem_append,
    Text.isLine_append, Text.isLine_append] at hpieces
  obtain ⟨hbefore, ⟨hlead, -, hinfo⟩, hold, hafter⟩ := hpieces
  rw [Edit.pieces', List.forall_mem_append, List.forall_mem_cons, List.forall_mem_append,
    Text.isLine_append, Text.isLine_append, Edit.new, List.forall_mem_append]
  refine ⟨hbefore, ⟨hlead, isLine_replicate h.isFenceChar _, hinfo⟩,
    ⟨fun line hline => ?_, fun line hline => ?_⟩, hafter⟩
  · -- A body line: the lead adds blanks and quote markers only.
    obtain ⟨w, hw, rfl⟩ := List.mem_map.1 hline
    exact isLine_carry (hv.isLine (Replacement.mem_lines_of_mem_valueLines hv hw)) _
  · obtain ⟨c, hc, rfl⟩ := List.mem_map.1 hline
    have hclosing : c.text.IsLine := hold _ (List.mem_append_right _ (List.mem_map_of_mem hc))
    rw [c.text_renew]
    split
    · exact hclosing
    · exact Text.isLine_append.2 ⟨(Text.isLine_append.1 hclosing).1,
        isLine_replicate h.isFenceChar _⟩

theorem isPlain_new (ht : t.IsPlain) (hv : v.IsPlain) :
    (Text.unlines (h.edit v).pieces').IsPlain :=
  Text.isPlain_unlines (h.isLine_of_mem_pieces' ht hv)

theorem lines_new (ht : t.IsPlain) (hv : v.IsPlain) :
    Text.lines (Text.unlines (h.edit v).pieces') = (h.edit v).pieces' :=
  Text.lines_unlines (List.append_ne_nil_of_right_ne_nil _ (List.cons_ne_nil _ _))
    (h.isLine_of_mem_pieces' ht hv)

end FenceLines

end Markdown

/-! ## Code blocks of two documents -/

namespace CodeBlock

/-- The code block `b'` is `b`, but `δ` lines further down. -/
structure Moved (δ : Int) (b b' : CodeBlock) : Prop where
  startLine : (b'.startLine : Int) = b.startLine + δ
  endLine : (b'.endLine : Int) = b.endLine + δ
  eq : b' = { b with startLine := b'.startLine, endLine := b'.endLine }

/-- How many lines `t'` has more than `t`. -/
def growth (t t' : Text) : Int :=
  (Text.lines t').length - (Text.lines t).length

/-! ## The code blocks beside the exchanged one -/

variable {d : Edit} {fs gs : List Fence} {bs : List CodeBlock} {lo hi : Nat}

/-- The fences before the exchanged one are the same code blocks. -/
theorem forall₂_before (hordered : Ordered lo d.before.length fs)
    (h : List.Forall₂ (fun f b => ofFence d.pieces f = .ok b) fs bs) :
    List.Forall₂ (fun f b => ofFence d.pieces' f = .ok b) fs bs := by
  have hline {n : Nat} (hn : n < d.before.length) : d.pieces'[n]? = d.pieces[n]? := by
    rw [Edit.pieces', Edit.pieces, List.getElem?_append_left hn, List.getElem?_append_left hn]
  refine ((List.forall₂_and_left ..).2 ⟨fun f hf => hf, h⟩).imp fun f b hfb => ?_
  obtain ⟨hf, hb⟩ := hfb
  obtain ⟨-, hlt, hle⟩ := hordered.bounds hf
  rw [ofFence_congr (hline (by omega)) (hline (by omega)), hb]

/-- The fences after the exchanged one are the same code blocks, moved. -/
theorem exists_after
    (hordered : Ordered (d.before.length + 1 + d.old.length) hi (gs.map (Fence.shift d.old.length)))
    (h : List.Forall₂ (fun f b => ofFence d.pieces f = .ok b) (gs.map (Fence.shift d.old.length))
      bs) :
    ∃ bs', List.Forall₂ (fun f b => ofFence d.pieces' f = .ok b)
        (gs.map (Fence.shift d.new.length)) bs' ∧
      List.Forall₂ (Moved (d.new.length - d.old.length)) bs bs' := by
  have hline {n : Nat} (hn : d.before.length + 1 ≤ n) :
      d.pieces'[n + d.new.length]? = d.pieces[n + d.old.length]? := by
    obtain ⟨i, rfl⟩ := Nat.exists_eq_add_of_le hn
    rw [Nat.add_right_comm, Edit.pieces', Markdown.getElem?_after, Nat.add_right_comm,
      Edit.pieces, Markdown.getElem?_after]
  rw [List.forall₂_map_left_iff] at h
  simp only [List.forall₂_map_left_iff]
  refine exists_forall₂ h fun g hg b hb => ?_
  obtain ⟨hle, hlt, -⟩ := hordered.bounds (List.mem_map_of_mem hg)
  have hstart : d.before.length + 1 ≤ g.start := by
    have : d.before.length + 1 + d.old.length ≤ g.start + d.old.length := hle
    omega
  have hstop : g.start < g.stop := by
    have : g.start + d.old.length < g.stop + d.old.length := hlt
    omega
  have hlast (n : Nat) : g.stop + n - 1 = g.stop - 1 + n := by omega
  obtain ⟨opening, isClosed, rfl⟩ := exists_of_ofFence hb
  refine ⟨_, ofFence_of_eq (g := g.shift d.new.length) ?_ ?_ ?_ rfl hb, ?_, ?_, rfl⟩
  · exact hline hstart
  · show d.pieces'[g.stop + d.new.length - 1]? = d.pieces[g.stop + d.old.length - 1]?
    rw [hlast, hlast, hline (by omega)]
  · show g.stop + d.new.length - (g.start + d.new.length) =
      g.stop + d.old.length - (g.start + d.old.length)
    omega
  · show ((g.start + d.new.length : Nat) : Int) =
      (g.start + d.old.length : Nat) + (d.new.length - d.old.length)
    omega
  · show ((g.stop + d.new.length : Nat) : Int) =
      (g.stop + d.old.length : Nat) + (d.new.length - d.old.length)
    omega

/-! ## The code blocks of the new document -/

/-- A code block that is found has the lines of its fence. -/
theorem exists_fenceLines (ht : t.IsPlain) (hfind : find t = .ok (before ++ b :: after)) :
    ∃ (fs gs : List Fence) (f : Fence) (h : FenceLines t f),
      fences t = fs ++ f :: gs ∧ b = h.codeBlock ∧
        List.Forall₂ (fun f b => ofFence (Text.lines t) f = .ok b) fs before ∧
          List.Forall₂ (fun f b => ofFence (Text.lines t) f = .ok b) gs after := by
  have hall := mapM_eq_ok_iff.1 hfind
  have hbefore := List.forall₂_take_append _ _ _ hall
  obtain ⟨f, gs, hf, hafter, hdrop⟩ :=
    List.forall₂_cons_right_iff.1 (List.forall₂_drop_append _ _ _ hall)
  have hfences : fences t = (fences t).take before.length ++ f :: gs := by
    rw [← hdrop, List.take_append_drop]
  obtain ⟨h⟩ := Markdown.nonempty_fenceLines ht
    (hfences ▸ List.mem_append_right _ List.mem_cons_self)
  exact ⟨_, gs, f, h, hfences, Except.ok.inj (hf.symm.trans h.ofFence_eq), hbefore, hafter⟩

theorem growth_eq (h : FenceLines t f) (hlines : Text.lines t' = (h.edit v).pieces') :
    growth t t' = (h.edit v).new.length - (h.edit v).old.length := by
  rw [growth, hlines, h.lines_eq v, Edit.pieces', Edit.pieces]
  simp only [List.length_append, List.length_cons]
  omega

/-- The code blocks of the document in which a fence has the body `v`. -/
theorem exists_find_new {exact : Prop} (ht : t.IsPlain) (h : FenceLines t f)
    (hcorrect : (h.edit v).Correct exact) (hfences : fences t = fs ++ f :: gs)
    (hbefore : List.Forall₂ (fun f b => ofFence (Text.lines t) f = .ok b) fs before)
    (hafter : List.Forall₂ (fun f b => ofFence (Text.lines t) f = .ok b) gs after)
    (ht' : t'.IsPlain) (hlines : Text.lines t' = (h.edit v).pieces') :
    ∃ (f' : Fence) (hnew : Site.Fences (h.edit v).toExchange exact (h.edit v).before.length
        (h.edit v).old.length (h.edit v).new.length f f') (gs' : List Fence)
        (after' : List CodeBlock),
      fences t' = fs ++ f' :: gs' ∧
        find t' = .ok (before ++ (h.renew hlines hnew).codeBlock :: after') ∧
        List.Forall₂ (Moved (growth t t')) after after' := by
  have hf : f ∈ fences t := hfences ▸ List.mem_append_right _ List.mem_cons_self
  obtain ⟨hi, hordered⟩ := Markdown.exists_ordered_fences t
  obtain ⟨fs', gs', g, f', hnew, hold, hfences'⟩ := hcorrect.fences_eq ht ht' (h.lines_eq v) hlines
    hf h.start h.stop (h.isSome_closing ht hf)
  -- Fences that start in the same line are the same, so both splits of the list agree.
  obtain ⟨rfl, rfl, rfl⟩ :=
    (hfences ▸ hordered).append_cons_inj (hfences.symm.trans hold) (h.start.trans hnew.start.symm)
  rw [hfences] at hordered
  obtain ⟨mid, hfs, hmid, -, hgs⟩ := hordered.of_append
  rw [h.lines_eq v] at hbefore hafter
  have hbefore' := forall₂_before (hfs.mono_right (hmid.trans_eq h.start)) hbefore
  obtain ⟨after', hafter', hmoved⟩ := exists_after (hgs.mono_left h.stop.ge) hafter
  refine ⟨f', hnew, _, after', hfences', ?_, growth_eq h hlines ▸ hmoved⟩
  rw [find, hfences', mapM_eq_ok_iff, hlines]
  exact List.rel_append hbefore' (.cons (hlines ▸ (h.renew hlines hnew).ofFence_eq) hafter')

/-! ## Several patches -/

/-- One patch of a block that meets the condition `C`: the blocks above it meet the condition as
    before, and the patched block and those below are what `D` says. -/
def Carries (C : Text → CodeBlock → Text → Prop)
    (D : Text → CodeBlock × Option Text → CodeBlock → Prop) : Prop :=
  ∀ ⦃t v : Text⦄ ⦃b : CodeBlock⦄ ⦃before after : List CodeBlock⦄, t.IsPlain →
    find t = .ok (before ++ b :: after) → C t b v →
      ∃ t' b' after', (b.patch v).apply (Text.lines t) = .ok (Text.lines t') ∧ t'.IsPlain ∧
        find t' = .ok (before ++ b' :: after') ∧ (∀ c ∈ before, ∀ w, C t c w → C t' c w) ∧
        D t' (b, some v) b' ∧
        ∀ done, List.Forall₂ (D t) done after → List.Forall₂ (D t') done after'

variable {C : Text → CodeBlock → Text → Prop} {D : Text → CodeBlock × Option Text → CodeBlock → Prop}
  {qs done : List (CodeBlock × Option Text)}

/-- Patches from the bottom up, the blocks below being done. -/
theorem exists_foldlM_patches (hcarries : Carries C D) (hkept : ∀ t b, D t (b, none) b)
    (ht : t.IsPlain) (hfind : find t = .ok (qs.map Prod.fst ++ after))
    (hmeets : ∀ q ∈ qs, ∀ v ∈ q.2, C t q.1 v) (hdone : List.Forall₂ (D t) done after) :
    ∃ t' bs, (patches qs).reverse.foldlM (fun ls p => p.apply ls) (Text.lines t) =
        .ok (Text.lines t') ∧ find t' = .ok bs ∧ t'.IsPlain ∧
      List.Forall₂ (D t') (qs ++ done) bs := by
  -- The last patch is applied first. The induction is over documents, as each patch makes a new
  -- one, and over the blocks that are done, which the patches above them only move.
  induction qs using List.reverseRecOn generalizing t after done with
  | nil => exact ⟨t, after, rfl, hfind, ht, hdone⟩
  | append_singleton qs q ih =>
    obtain ⟨b, v?⟩ := q
    rw [List.map_append, List.map_singleton, List.append_assoc, List.singleton_append] at hfind
    rw [List.forall_mem_append, List.forall_mem_singleton] at hmeets
    rw [patches, List.filterMap_append, List.reverse_append, List.append_assoc,
      List.singleton_append]
    cases v? with
    | none => exact ih ht hfind hmeets.1 (.cons (hkept t b) hdone)
    | some v =>
      obtain ⟨t', b', after', happly, ht', hfind', hbefore, hb', hafter⟩ :=
        hcarries ht hfind (hmeets.2 v rfl)
      have hmeets' : ∀ q ∈ qs, ∀ v ∈ q.2, C t' q.1 v := fun q hq w hw =>
        hbefore _ (List.mem_map_of_mem hq) w (hmeets.1 q hq w hw)
      obtain ⟨t'', bs, hfold, hrest⟩ := ih ht' hfind' hmeets' (.cons hb' (hafter done hdone))
      refine ⟨t'', bs, ?_, hrest⟩
      show ((b.patch v) :: (patches qs).reverse).foldlM _ _ = _
      rw [List.foldlM_cons, happly]
      exact hfold

/-- The document in which several code blocks have new bodies. -/
theorem exists_replace (hcarries : Carries C D) (hkept : ∀ t b, D t (b, none) b)
    (ht : t.IsPlain) (hfind : find t = .ok (qs.map Prod.fst))
    (hmeets : ∀ q ∈ qs, ∀ v ∈ q.2, C t q.1 v) :
    ∃ t' bs, Replacement.replace t (patches qs) = .ok t' ∧ find t' = .ok bs ∧ t'.IsPlain ∧
      List.Forall₂ (D t') qs bs := by
  have hstarts : (patches qs).Pairwise fun p q => p.start < q.start :=
    pairwise_patches (pairwise_startLine_of_find hfind) fun _ _ _ _ hlt => Int.ofNat_lt.2 hlt
  obtain ⟨t', bs, hfold, hfind', ht', hall⟩ := exists_foldlM_patches hcarries hkept ht
    (hfind.trans (congrArg _ (List.append_nil _).symm)) hmeets .nil
  rw [List.append_nil] at hall
  refine ⟨t', bs, ?_, hfind', ht', hall⟩
  rw [Replacement.replace, Replacement.bottomUp_eq_reverse hstarts, hfold]
  exact congrArg Except.ok (Text.unlines_lines ht')

end CodeBlock

end Transclude
