import Transclude.Proofs.Markdown.Item

/-!
# Sequences that hold a fence

A sequence is read block after block. Those before the one that holds the fence end before
the lines that part the two documents, that one is a fence, a quote or a list, and what comes
after it has only moved.

* `Site.Correct.replaced_block`: the block that holds the fence;
* `Site.Correct.edited_blocks`: a sequence of such blocks;
* `sound_sequence`: sequences of any depth.
-/

namespace Transclude

namespace Markdown

variable {inQuote inItem : Place → List Line → Reading} {place : Place} {k n : Nat} {s : Site}
  {e : Exchange} {exact : Prop} {x y : Text} {l l' : Line} {ls ls' : List Line}
  {marker : ItemMarker}

namespace Site

/-! ## The block that holds the fence -/

/-- What stands before the fence, if the fence opens in it right away. -/
theorem Correct.opening?_eq (h : s.Correct e exact k x) {found : Text × Text}
    (hopening : Fence.opening? place.margin s.opening = some found) :
    solid x = [] ∧ Fence.opening? place.margin s.opening = some (e.markup, e.info) ∧
      Fence.opening? place.margin s.opening' = some (e.markup', e.info) := by
  have hsolid := h.opens.solid_eq_nil hopening
  have hindented := (Fence.opening?_eq_some_iff.1 hopening).1
  refine ⟨hsolid, Fence.opening?_eq_some_iff.2 ⟨hindented, ?_, e.fence, e.size, e.isFenceChar,
    e.size_le, rfl, e.isInfo⟩, Fence.opening?_eq_some_iff.2 ⟨?_, ?_, e.fence, e.size',
    e.isFenceChar, e.size_le', rfl, e.isInfo⟩⟩
  · rw [content_append h.opening.text e.startsFence, hsolid, List.nil_append]
  · rw [Fence.isIndented, h.opening.indent]
    exact hindented
  · rw [content_append h.opening.text' e.startsFence', hsolid, List.nil_append]

/-- Where the fence opens in the sequence. -/
theorem Correct.replaced_fence (h : s.Correct e exact k x) (hn : Numbered n s.lines)
    (hmargin : 0 ≤ place.margin) (hle : place.margin ≤ l.indent) {found : Text × Text}
    (hopening : Fence.opening? place.margin l = some found) (hlines : s.lines = l :: ls)
    (hlines' : s.lines' = l' :: ls') (hfinds : s.Finds e (block inQuote inItem place l ls)) :
    Parts place.margin s.before s.opening s.opening' ∧
      s.Replaced e exact (s.before.length + s.old.length) (s.before.length + s.new.length)
        (block inQuote inItem place l ls) (block inQuote inItem place l' ls') := by
  -- A block that is a fence holds one that starts in its first line.
  have hbefore : s.before = [] := by
    obtain ⟨f, hf, hstart, -⟩ := hfinds
    rw [block_of_opening? hopening] at hf
    rw [List.mem_singleton.1 hf, number_opening hn] at hstart
    rw [hlines] at hn
    have : l.number = n + s.before.length := hstart
    have := hn.1
    exact List.eq_nil_of_length_eq_zero (by omega)
  obtain ⟨-, rfl, -, rfl, -⟩ := (head_cases hlines hlines').resolve_right fun ⟨_, hcons, _⟩ =>
    nomatch hbefore.symm.trans hcons
  obtain ⟨hx, hopen, hopen'⟩ := h.opening?_eq hopening
  have hnonneg := Int.le_trans hmargin hle
  rw [block_of_opening? hopen] at hfinds
  rw [block_of_opening? hopen, block_of_opening? hopen', hbefore, List.length_nil, Nat.zero_add,
    Nat.zero_add]
  exact ⟨.stopHere (hides_of_opening? hnonneg h.opening.indent hopen hopen')
    (withoutQuoteMarker_of_opening? hopen) (withoutQuoteMarker_of_opening? hopen'),
    h.replaced_ofLines hx hbefore hmargin hle hlines hlines' hfinds⟩

/-- If the one document starts with a quote, so does the other. -/
theorem Correct.content_of_quote (h : s.Correct e exact k x) {t : Text}
    (hcontent : l.content = '>' :: t) (hlines : s.lines = l :: ls) (hlines' : s.lines' = l' :: ls') :
    l'.indent = l.indent ∧ ∃ t', l'.content = '>' :: t' := by
  rcases head_cases hlines hlines' with ⟨-, rfl, -, rfl, -⟩ | ⟨-, -, -, rfl, -⟩
  · obtain ⟨y, hy⟩ := h.opening.exists_quote e.startsFence (withoutQuoteMarker_eq hcontent)
    refine ⟨h.opening.indent, y ++ (e.markup' ++ e.info), ?_⟩
    rw [content_append h.opening.text' e.startsFence', hy, List.cons_append]
  · exact ⟨rfl, t, hcontent⟩

/-- Where the fence is in a quote. -/
theorem Correct.replaced_inQuote (hquote : Sound inQuote) (h : s.Correct e exact k x)
    (hn : Numbered n s.lines) (hmargin : 0 ≤ place.margin) (hle : place.margin ≤ l.indent)
    {t : Text} (hcontent : l.content = '>' :: t)
    (hindented : Fence.isIndented place.margin l = false) (hlines : s.lines = l :: ls)
    (hlines' : s.lines' = l' :: ls') (hfinds : s.Finds e (block inQuote inItem place l ls)) :
    Parts place.margin s.before s.opening s.opening' ∧
      s.Replaced e exact (s.before.length + s.old.length) (s.before.length + s.new.length)
        (block inQuote inItem place l ls) (block inQuote inItem place l' ls') := by
  obtain ⟨hindent, t', hcontent'⟩ := h.content_of_quote hcontent hlines hlines'
  have hindented' : Fence.isIndented place.margin l' = false := by
    rw [Fence.isIndented, hindent]
    exact hindented
  have hnonneg := Int.le_trans hmargin hle
  rw [block_of_quote hcontent hindented] at hfinds
  rw [block_of_quote hcontent hindented, block_of_quote hcontent' hindented']
  obtain ⟨⟨v, hv, w, u, hbefore, hparts⟩, hreplaced⟩ :=
    h.replaced_quote hquote hn hmargin hlines hlines' (withoutQuoteMarker_eq hcontent)
      (withoutQuoteMarker_eq hcontent') hle (hindent ▸ hle) hfinds
  refine ⟨?_, hreplaced⟩
  rw [hv.before] at hbefore
  rcases head_cases hlines hlines' with ⟨hs, rfl, -, rfl, -⟩ | ⟨before, hs, -⟩
  · rw [hs] at hbefore ⊢
    obtain ⟨-, rfl⟩ := List.append_eq_nil_iff.1 hbefore.symm
    exact .quoteHere (hides_of_quote hnonneg hindent hcontent hcontent' hindented) hv.opening
      hv.opening' hparts
  · rw [hs] at hbefore ⊢
    exact .quote (cuts_of_quote hnonneg hcontent hindented) h.opening.indent hv.opening hv.opening'
      hbefore hparts

/-- Where the fence is in a list. -/
theorem Correct.replaced_inList (hitem : Sound inItem) (h : s.Correct e exact k x)
    (hn : Numbered n s.lines) (hmargin : 0 ≤ place.margin) (hle : place.margin ≤ l.indent)
    (hends : place.endsList l = false) (hmarker : place.listMarker? l = some marker)
    (hlines : s.lines = l :: ls) (hlines' : s.lines' = l' :: ls')
    (hfinds : s.Finds e (block inQuote inItem place l ls)) :
    Parts place.margin s.before s.opening s.opening' ∧
      s.Replaced e exact (s.before.length + s.old.length) (s.before.length + s.new.length)
        (block inQuote inItem place l ls) (block inQuote inItem place l' ls') := by
  obtain ⟨l₁, ls₁, marker', hlines₁, hheads⟩ :=
    h.exists_heads hlines (ofText?_of_listMarker? hmarker)
  obtain ⟨rfl, rfl⟩ := List.cons.inj (hlines₁.symm.trans hlines')
  rw [block_of_listMarker? hends hmarker] at hfinds
  rw [block_of_listMarker? hends hmarker,
    block_of_listMarker? (hheads.endsList hends) (hheads.listMarker? hmarker)]
  exact ⟨hheads.parts (Int.le_trans hmargin hle) hle (isIndented_of_listMarker? hmarker),
    h.replaced_items hitem hn hmargin hle hheads hlines hlines' hfinds⟩

/-- The block that holds the fence. -/
theorem Correct.replaced_block (hquote : Sound inQuote) (hitem : Sound inItem)
    (h : s.Correct e exact k x) (hn : Numbered n s.lines) (hmargin : 0 ≤ place.margin)
    (hle : place.margin ≤ l.indent) (hlines : s.lines = l :: ls) (hlines' : s.lines' = l' :: ls')
    (hfinds : s.Finds e (block inQuote inItem place l ls)) :
    Parts place.margin s.before s.opening s.opening' ∧
      s.Replaced e exact (s.before.length + s.old.length) (s.before.length + s.new.length)
        (block inQuote inItem place l ls) (block inQuote inItem place l' ls') := by
  obtain ⟨f, hf, -⟩ := id hfinds
  rcases kind_of_mem_block hf with ⟨found, hopening⟩ | ⟨⟨t, hcontent⟩, hindented⟩ |
    ⟨hends, marker, hmarker⟩
  · exact h.replaced_fence hn hmargin hle hopening hlines hlines' hfinds
  · exact h.replaced_inQuote hquote hn hmargin hle hcontent hindented hlines hlines' hfinds
  · exact h.replaced_inList hitem hn hmargin hle hends hmarker hlines hlines' hfinds

/-! ## Blocks beside it -/

/-- A block that ends before the fence is the same in both documents. -/
theorem Later.block_eq {w w' u : List Line} (hquote : Local inQuote) (hitem : Local inItem)
    (h : s.Later (block inQuote inItem place l ls).2 l w ls ls')
    (hdrop : w.drop (block inQuote inItem place l ls).2 = w' ++ u)
    (hparts : Parts place.margin u s.opening s.opening') (hle : place.margin ≤ l.indent) :
    block inQuote inItem place l ls' = block inQuote inItem place l ls := by
  obtain ⟨d, hd⟩ : ∃ d, (block inQuote inItem place l ls).2 = d := ⟨_, rfl⟩
  have hsplit (r : List Line) : w ++ r = (w.take d ++ w') ++ (u ++ r) := by
    rw [List.append_assoc, ← List.append_assoc w' u r, ← hdrop, hd, ← List.append_assoc,
      List.take_append_drop]
  rw [hd] at h
  rw [h.lines, hsplit] at hd ⊢
  rw [h.lines', hsplit]
  refine block_local hquote hitem hparts place.inside_margin hle ?_
  rw [hd, List.length_append, List.length_take, Nat.min_eq_left h.le]
  exact Nat.le_add_right d w'.length

theorem blocks_of_stops (h : Stops ls) (hmargin : 0 ≤ place.margin) :
    Markdown.blocks inQuote inItem place ls = ([], 0) := by
  cases ls with
  | nil => exact blocks_nil
  | cons l ls =>
    obtain ⟨hempty, hindent⟩ := h l rfl
    exact blocks_of_lt hempty (Int.lt_of_lt_of_le hindent hmargin)

/-- The blocks after the fence are the same in both documents. -/
theorem exists_blocks {down down' : Nat} (h : Continues down down' ls ls') (hquote : Moves inQuote)
    (hitem : Moves inItem) (hmargin : 0 ≤ place.margin) : ∃ (fs : List Fence) (taken : Nat),
      Markdown.blocks inQuote inItem place ls = (fs.map (Fence.shift down), taken) ∧
        Markdown.blocks inQuote inItem place ls' = (fs.map (Fence.shift down'), taken) ∧
          (Stops ls → taken = 0) := by
  cases h with
  | moved rest =>
    have hmoves := moves_blocks hquote hitem place
    refine ⟨_, _, hmoves down rest, hmoves down' rest, fun hstops => ?_⟩
    have hnone : Markdown.blocks inQuote inItem place (rest.map (Line.shift down)) = ([], 0) :=
      blocks_of_stops hstops hmargin
    rw [hmoves] at hnone
    exact congrArg Prod.snd hnone
  | stopped hstops hstops' =>
    exact ⟨[], 0, blocks_of_stops hstops hmargin, blocks_of_stops hstops' hmargin, fun _ => rfl⟩

/-- The blocks after the one that holds the fence. -/
theorem Replaced.blocks (hquote : Moves inQuote) (hitem : Moves inItem)
    (hmargin : 0 ≤ place.margin) (hcontinues : Continues s.down s.down' s.after s.after')
    (hempty : l.isEmpty = false) (hempty' : l'.isEmpty = false) (hle : place.margin ≤ l.indent)
    (hle' : place.margin ≤ l'.indent) (hlines : s.lines = l :: ls) (hlines' : s.lines' = l' :: ls')
    (h : s.Replaced e exact (s.before.length + s.old.length) (s.before.length + s.new.length)
      (block inQuote inItem place l ls) (block inQuote inItem place l' ls')) :
    s.Replaced e exact (s.before.length + s.old.length + 1) (s.before.length + s.new.length + 1)
      (Markdown.blocks inQuote inItem place s.lines)
      (Markdown.blocks inQuote inItem place s.lines') := by
  obtain ⟨before, after, extra, f, f', hf, hblock, hblock', hextra⟩ := h
  obtain ⟨more, taken, hmore, hmore', htaken⟩ :=
    exists_blocks (hcontinues.drop hextra) hquote hitem hmargin
  rw [hlines, hlines', blocks_of_le hempty hle, blocks_of_le hempty' hle', hblock, hblock']
  dsimp only
  rw [lines_drop hlines, lines'_drop hlines', hmore, hmore']
  refine hf.replaced_append before after more (extra + taken) (by omega) (by omega) fun hstops => ?_
  have hzero := hextra hstops
  rw [hzero, List.drop_zero] at htaken
  rw [hzero, htaken hstops]

/-- The first lines of both documents. -/
theorem Correct.exists_cons (h : s.Correct e exact k x) : ∃ l ls l' ls', s.lines = l :: ls ∧
    s.lines' = l' :: ls' ∧ l'.isEmpty = l.isEmpty ∧ l'.indent = l.indent := by
  rw [lines, lines']
  cases s.before with
  | nil =>
    refine ⟨_, _, _, _, rfl, rfl, ?_, h.opening.indent⟩
    rw [h.opening.isEmpty e.startsFence, h.opening.symm.isEmpty e.startsFence']
  | cons l w => exact ⟨l, _, l, _, rfl, rfl, rfl, rfl⟩

theorem Later.eq_of_lines' {d : Nat} {w : List Line} (h : s.Later d l w ls ls')
    (hlines' : s.lines' = l' :: ls') : l = l' := by
  rw [Site.lines', h.before] at hlines'
  exact (List.cons.inj hlines').1

/-- A fence that a reader finds after the first line and `d` lines more is found in what is left
    of the documents. -/
theorem Finds.exists_tail {read : Place → List Line → Reading} {d n : Nat} (hread : KeepsOrder read)
    (hn : Numbered n s.lines) (hlines : s.lines = l :: ls) (hlines' : s.lines' = l' :: ls')
    (h : s.Finds e (read place (ls.drop d))) :
    ∃ w, s.Later d l w ls ls' ∧ Numbered (n + 1 + d) (s.tail (w.drop d)).lines ∧
      (s.tail (w.drop d)).Finds e (read place (s.tail (w.drop d)).lines) := by
  have hnumbers : Numbered n (l :: ls) := hlines ▸ hn
  have hrest := hnumbers.2.drop d
  obtain ⟨f, hf, hstart, hstop⟩ := h
  have hbounds := (hread place _ _ hrest).bounds hf
  obtain ⟨w, hlater⟩ := exists_later hn hlines hlines' (hstart ▸ hbounds.1)
  refine ⟨w, hlater, ?_, f, ?_, hstart, hstop⟩ <;> rw [hlater.drop]
  · exact hrest
  · exact hf

/-- A sequence that holds the fence. -/
theorem Correct.edited_blocks (hquote : Sound inQuote) (hitem : Sound inItem) {n : Nat} {s : Site}
    (h : s.Correct e exact k x) (hmargin : 0 ≤ place.margin) (hn : Numbered n s.lines)
    (hfinds : s.Finds e (blocks inQuote inItem place s.lines)) :
    (∃ w u, s.before = w ++ u ∧ Parts place.margin u s.opening s.opening') ∧
      s.Replaced e exact (s.before.length + s.old.length + 1) (s.before.length + s.new.length + 1)
        (blocks inQuote inItem place s.lines) (blocks inQuote inItem place s.lines') := by
  obtain ⟨l, ls, l', ls', hlines, hlines', hempty', hindent'⟩ := h.exists_cons
  have hblocks := keepsOrder_blocks hquote.keepsOrder hitem.keepsOrder
  rw [hlines] at hfinds
  obtain ⟨f, hf, hfence⟩ := hfinds
  rcases mem_blocks hf with ⟨hempty, hmore⟩ | ⟨hempty, hle, hblock | hmore⟩
  · -- The sequence goes on after an empty line, and the fence is further down.
    obtain ⟨w, hlater, htail, hfinds⟩ := Finds.exists_tail (d := 0) hblocks hn hlines hlines'
      ⟨f, hmore, hfence⟩
    have hlt := hlater.length_lt
    obtain ⟨⟨w', u, hw, hparts⟩, hreplaced⟩ :=
      (h.tail _).edited_blocks hquote hitem hmargin htail hfinds
    refine ⟨⟨l :: w', u, hlater.before.trans (congrArg (l :: ·) hw), hparts⟩, ?_⟩
    rw [hlines, hlines', blocks_of_isEmpty hempty, blocks_of_isEmpty (hempty'.trans hempty)]
    rw [hlater.drop, hlater.drop'] at hreplaced
    exact hreplaced.of_later hlater [] (by rw [Nat.zero_add]; rfl) (by rw [Nat.zero_add]; rfl)
  · obtain ⟨hparts, hreplaced⟩ :=
      h.replaced_block hquote hitem hn hmargin hle hlines hlines' ⟨f, hblock, hfence⟩
    exact ⟨⟨[], s.before, rfl, hparts⟩,
      hreplaced.blocks hquote.moves hitem.moves hmargin h.continues hempty
        (hempty'.trans hempty) hle (hindent' ▸ hle) hlines hlines'⟩
  · -- The fence comes after the block, which is the same in both documents.
    obtain ⟨w, hlater, htail, hfinds⟩ := Finds.exists_tail hblocks hn hlines hlines'
      ⟨f, hmore, hfence⟩
    obtain rfl := hlater.eq_of_lines' hlines'
    have hlt := hlater.length_lt
    obtain ⟨⟨w', u, hw, hparts⟩, hreplaced⟩ :=
      (h.tail _).edited_blocks hquote hitem hmargin htail hfinds
    refine ⟨⟨l :: (w.take (block inQuote inItem place l ls).2 ++ w'), u, ?_, hparts⟩, ?_⟩
    · have hw' : w.drop (block inQuote inItem place l ls).2 = w' ++ u := hw
      rw [hlater.before, List.cons_append, List.append_assoc, ← hw', List.take_append_drop]
    · have hsame := hlater.block_eq hquote.isLocal hitem.isLocal hw hparts hle
      rw [hlater.drop, hlater.drop'] at hreplaced
      rw [hlines, hlines', blocks_of_le hempty hle, blocks_of_le hempty hle, hsame]
      exact hreplaced.of_later hlater _ (by omega) (by omega)
termination_by s.before.length

end Site

/-! ## Sequences of any depth -/

theorem sound_blocks (hquote : Sound inQuote) (hitem : Sound inItem) :
    Sound (blocks inQuote inItem) where
  keepsOrder := keepsOrder_blocks hquote.keepsOrder hitem.keepsOrder
  moves := moves_blocks hquote.moves hitem.moves
  isLocal := local_blocks hquote.isLocal hitem.isLocal
  findsHeld := findsHeld_blocks hquote.findsHeld hitem.findsHeld
  edits := fun h hmargin hn hfinds => h.edited_blocks hquote hitem hmargin hn hfinds

/-- What is skipped holds no fence that could be exchanged. -/
theorem sound_skipped : Sound skipped where
  keepsOrder := keepsOrder_skipped
  moves := moves_skipped
  isLocal := local_skipped
  findsHeld := findsHeld_skipped
  edits := fun _ _ _ hfinds => by
    obtain ⟨f, hf, -⟩ := hfinds
    rw [skipped_fst] at hf
    exact absurd hf List.not_mem_nil

/-- Exchanging a fence that a sequence holds exchanges what the sequence holds, however deep
    containers nest. -/
theorem sound_sequence (depth : Nat) : Sound (sequence depth) := by
  match depth with
  | 0 => exact sound_skipped
  | 1 => exact sound_blocks sound_skipped sound_skipped
  | depth + 2 => exact sound_blocks (sound_sequence (depth + 1)) (sound_sequence depth)

end Markdown

end Transclude
