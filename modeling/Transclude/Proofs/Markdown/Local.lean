import Transclude.Proofs.Markdown.Cut

/-!
# What a sequence has seen

Two documents that begin with the same lines *part* where the one goes on differently from
the other. A sequence that stops before the parting should hold the same in both, but its
blocks look ahead: a quote gathers lines that its content may then leave alone. So between
the sequence and the parting there has to be a line that cuts off what comes before it.
Inside a quote lines are seen without their markers, and a line that starts a quote does
not cut off anything there; then what it holds, or a later line of the quote, has to.

* `Parts`: where two documents part, as seen from quotes of any depth;
* `local_sequence`: a sequence that stops before the parting reads the same in both.
-/

namespace Transclude

namespace Markdown

variable {inner inQuote inItem : Place → List Line → Reading} {place : Place} {m : Int}
  {l first o o' : Line} {w u r r' : List Line} {marker : ItemMarker}

/-! ## The lines of a quote -/

/-- A line as it is seen inside a quote: without the marker, or as the continuation of a
    paragraph. -/
def quoted (l : Line) : Line :=
  (withoutQuoteMarker l).getD { l with indent := -1 }

theorem quoted_eq (h : withoutQuoteMarker l = some first) : quoted l = first := by
  rw [quoted, h, Option.getD_some]

theorem content_of_withoutQuoteMarker (h : withoutQuoteMarker l = some first) :
    ∃ t, l.content = '>' :: t := by
  unfold withoutQuoteMarker at h
  split at h
  · rename_i t hcontent
    exact ⟨t, hcontent⟩
  · exact nomatch h

theorem isEmpty_of_withoutQuoteMarker (h : withoutQuoteMarker l = some first) :
    l.isEmpty = false := by
  obtain ⟨t, ht⟩ := content_of_withoutQuoteMarker h
  rw [Line.isEmpty, ht, List.isEmpty_cons]

/-- A line with a marker starts a quote wherever it is not code. -/
theorem cutsOff_of_withoutQuoteMarker (h : withoutQuoteMarker l = some first)
    (hlt : l.indent < place.margin) : place.cutsOff l := by
  obtain ⟨t, ht⟩ := content_of_withoutQuoteMarker h
  have hindented : Fence.isIndented place.margin l = false := by
    rw [Fence.isIndented, decide_eq_false_iff_not]
    have : l.indent - place.margin < 0 := Int.sub_neg_of_lt hlt
    omega
  have hstarts : startsQuote place.margin l = true := by
    rw [startsQuote, hindented, ht]
    rfl
  rw [Place.cutsOff, Place.endsList, hstarts]
  simp only [Bool.or_true, Bool.true_or]

theorem quotedLines_of_withoutQuoteMarker {afterEmpty : Bool}
    (h : withoutQuoteMarker l = some first) (hle : place.margin ≤ l.indent) :
    quotedLines place afterEmpty (l :: r) = first :: quotedLines place first.isEmpty r := by
  rw [quotedLines, isEmpty_of_withoutQuoteMarker h, if_neg (Int.not_lt.2 hle), h]
  rfl

theorem quotedLines_of_lt {afterEmpty : Bool} (h : withoutQuoteMarker l = some first)
    (hlt : l.indent < place.margin) : quotedLines place afterEmpty (l :: r) = [] := by
  rw [quotedLines, isEmpty_of_withoutQuoteMarker h, if_pos hlt,
    cutsOff_of_withoutQuoteMarker h hlt, Bool.or_true]
  rfl

theorem Cuts.quotedLines {afterEmpty : Bool} (hcuts : Cuts m l) (hplace : place.Inside m)
    (h : withoutQuoteMarker l = none) : quotedLines place afterEmpty (l :: r) = [] := by
  rw [Markdown.quotedLines, hcuts.isEmpty, h, ite_self, hcuts.cutsOff place hplace, Bool.or_true]
  rfl

/-- Either a quote ends in some lines whatever comes after them, or all of them belong to
    it. -/
theorem quotedLines_append (place : Place) (afterEmpty : Bool) (w : List Line) :
    (∃ seen, ∀ r, quotedLines place afterEmpty (w ++ r) = seen) ∨
      ∃ afterEmpty', ∀ r, quotedLines place afterEmpty (w ++ r) =
        w.map quoted ++ quotedLines place afterEmpty' r := by
  induction w generalizing afterEmpty with
  | nil => exact .inr ⟨afterEmpty, fun _ => rfl⟩
  | cons l w ih =>
    -- A line of the quote leaves it open, and the rest decides.
    have hcons {first : Line} {afterEmpty' : Bool}
        (h : ∀ r, quotedLines place afterEmpty (l :: (w ++ r)) =
          first :: quotedLines place afterEmpty' (w ++ r)) (hfirst : quoted l = first) :
        (∃ seen, ∀ r, quotedLines place afterEmpty (l :: w ++ r) = seen) ∨
          ∃ afterEmpty', ∀ r, quotedLines place afterEmpty (l :: w ++ r) =
            (l :: w).map quoted ++ quotedLines place afterEmpty' r := by
      rcases ih afterEmpty' with ⟨seen, hseen⟩ | ⟨afterEmpty'', hseen⟩
      · exact .inl ⟨first :: seen, fun r => by rw [List.cons_append, h, hseen]⟩
      · refine .inr ⟨afterEmpty'', fun r => ?_⟩
        rw [List.cons_append, h, hseen, List.map_cons, hfirst, List.cons_append]
    by_cases hempty : l.isEmpty
    · exact .inl ⟨[], fun r => by rw [List.cons_append, quotedLines, if_pos hempty]⟩
    · cases hfirst : withoutQuoteMarker l with
      | some first =>
        by_cases hlt : l.indent < place.margin
        · exact .inl ⟨[], fun r => quotedLines_of_lt hfirst hlt⟩
        · exact hcons (fun r => quotedLines_of_withoutQuoteMarker hfirst (Int.not_lt.1 hlt))
            (quoted_eq hfirst)
      | none =>
        by_cases hends : (afterEmpty || place.cutsOff l) = true
        · refine .inl ⟨[], fun r => ?_⟩
          rw [List.cons_append, quotedLines, if_neg hempty, hfirst, ite_self, if_pos hends]
        · refine @hcons _ afterEmpty (fun r => ?_)
            (by rw [quoted, hfirst, Option.getD_none])
          rw [quotedLines, if_neg hempty, hfirst, ite_self]
          exact if_neg hends

/-! ## Where documents part -/

/-- Two documents go on with the lines `u` and part after them, the one with the line `o`
    and the other with `o'`; the first of all these lines cuts off what comes before, and
    if it starts a quote that the parting belongs to, a line in it does. -/
inductive Parts : (m : Int) → (u : List Line) → (o o' : Line) → Prop where
  | stop {m : Int} {s : Line} {u : List Line} {o o' : Line} (hcuts : Cuts m s)
      (hs : withoutQuoteMarker s = none) : Parts m (s :: u) o o'
  | stopHere {m : Int} {o o' : Line} (hides : Hides m o o')
      (ho : withoutQuoteMarker o = none) (ho' : withoutQuoteMarker o' = none) : Parts m [] o o'
  | quote {m : Int} {s : Line} {u seen v : List Line} {o o' p p' : Line} (hcuts : Cuts m s)
      (hindent : o'.indent = o.indent) (ho : withoutQuoteMarker o = some p)
      (ho' : withoutQuoteMarker o' = some p') (hlines : (s :: u).map quoted = seen ++ v)
      (hparts : Parts 0 v p p') : Parts m (s :: u) o o'
  | quoteHere {m : Int} {o o' p p' : Line} (hides : Hides m o o')
      (ho : withoutQuoteMarker o = some p) (ho' : withoutQuoteMarker o' = some p')
      (hparts : Parts 0 [] p p') : Parts m [] o o'

namespace Parts

/-- The first lines after which the documents may differ hide what comes after them. -/
theorem hides (h : Parts m u o o') : ∃ s s', Hides m s s' ∧
    (∀ r, ∃ t, u ++ o :: r = s :: t) ∧ ∀ r, ∃ t, u ++ o' :: r = s' :: t := by
  cases h with
  | stop hcuts hs =>
    exact ⟨_, _, ⟨.refl _, hcuts, hcuts⟩, fun r => ⟨_, rfl⟩, fun r => ⟨_, rfl⟩⟩
  | stopHere hides => exact ⟨_, _, hides, fun r => ⟨r, rfl⟩, fun r => ⟨r, rfl⟩⟩
  | quote hcuts =>
    exact ⟨_, _, ⟨.refl _, hcuts, hcuts⟩, fun r => ⟨_, rfl⟩, fun r => ⟨_, rfl⟩⟩
  | quoteHere hides => exact ⟨_, _, hides, fun r => ⟨r, rfl⟩, fun r => ⟨r, rfl⟩⟩

/-- The lines of a quote that is open before the parting: the same in both documents, or
    they part in turn. -/
theorem quotedLines (h : Parts m u o o') (hplace : place.Inside m) (afterEmpty : Bool) :
    (∃ seen, (∀ r, quotedLines place afterEmpty (u ++ o :: r) = seen) ∧
      ∀ r, Markdown.quotedLines place afterEmpty (u ++ o' :: r) = seen) ∨
    ∃ seen v p p', Parts 0 v p p' ∧
      (∀ r, ∃ t, Markdown.quotedLines place afterEmpty (u ++ o :: r) = seen ++ (v ++ p :: t)) ∧
      ∀ r, ∃ t, Markdown.quotedLines place afterEmpty (u ++ o' :: r) =
        seen ++ (v ++ p' :: t) := by
  cases h with
  | stop hcuts hs =>
    exact .inl ⟨[], fun r => hcuts.quotedLines hplace hs, fun r => hcuts.quotedLines hplace hs⟩
  | stopHere hides ho ho' =>
    exact .inl ⟨[], fun r => hides.cuts.quotedLines hplace ho,
      fun r => hides.cuts'.quotedLines hplace ho'⟩
  | @quote _ s u seen v _ _ p p' hcuts hindent ho ho' hlines hparts =>
    rcases quotedLines_append place afterEmpty (s :: u) with ⟨all, hall⟩ | ⟨afterEmpty', hall⟩
    · exact .inl ⟨all, fun r => hall _, fun r => hall _⟩
    · by_cases hlt : o.indent < place.margin
      · refine .inl ⟨(s :: u).map quoted, fun r => ?_, fun r => ?_⟩
        · rw [hall, quotedLines_of_lt ho hlt, List.append_nil]
        · rw [hall, quotedLines_of_lt ho' (hindent ▸ hlt), List.append_nil]
      · have hle := Int.not_lt.1 hlt
        refine .inr ⟨seen, v, p, p', hparts, fun r => ⟨Markdown.quotedLines place p.isEmpty r, ?_⟩,
          fun r => ⟨Markdown.quotedLines place p'.isEmpty r, ?_⟩⟩
        · rw [hall, quotedLines_of_withoutQuoteMarker ho hle, hlines, List.append_assoc]
        · rw [hall, quotedLines_of_withoutQuoteMarker ho' (hindent ▸ hle), hlines,
            List.append_assoc]
  | @quoteHere _ _ _ p p' hides ho ho' hparts =>
    by_cases hlt : o.indent < place.margin
    · exact .inl ⟨[], fun r => quotedLines_of_lt ho hlt,
        fun r => quotedLines_of_lt ho' (hides.indent ▸ hlt)⟩
    · have hle := Int.not_lt.1 hlt
      exact .inr ⟨[], [], p, p', hparts,
        fun r => ⟨_, quotedLines_of_withoutQuoteMarker ho hle⟩,
        fun r => ⟨_, quotedLines_of_withoutQuoteMarker ho' (hides.indent ▸ hle)⟩⟩

end Parts

/-! ## Readers -/

/-- A reader that holds the same in two documents if it stops before they part. -/
def Local (read : Place → List Line → Reading) : Prop :=
  ∀ (m : Int) (u : List Line) (o o' : Line), Parts m u o o' → ∀ (place : Place)
    (w r r' : List Line), place.Inside m → (read place (w ++ (u ++ o :: r))).2 ≤ w.length →
      read place (w ++ (u ++ o' :: r')) = read place (w ++ (u ++ o :: r))

theorem quote_local (hinner : Local inner) (h : Parts m u o o') (hplace : place.Inside m)
    (hle : (quote inner place l (w ++ (u ++ o :: r))).2 ≤ w.length) :
    quote inner place l (w ++ (u ++ o' :: r')) = quote inner place l (w ++ (u ++ o :: r)) := by
  cases hfirst : withoutQuoteMarker l with
  | none => rw [quote, quote, hfirst]
  | some first =>
    rw [quote_eq hfirst] at hle
    rw [quote_eq hfirst, quote_eq hfirst]
    -- The quote ends before the parting, or the documents part inside of it as well.
    rcases quotedLines_append place first.isEmpty w with ⟨all, hall⟩ | ⟨afterEmpty, hall⟩
    · rw [hall, hall]
    · rcases h.quotedLines hplace afterEmpty with ⟨seen, ho, ho'⟩ |
        ⟨seen, v, p, p', hparts, ho, ho'⟩
      · rw [hall, hall, ho, ho']
      · obtain ⟨t, ht⟩ := ho r
        obtain ⟨t', ht'⟩ := ho' r'
        have hlist : ∀ ys, first :: (w.map quoted ++ (seen ++ ys)) =
            (first :: (w.map quoted ++ seen)) ++ ys := fun ys => by
          rw [List.cons_append, List.append_assoc]
        rw [hall, ht, hlist] at hle
        rw [hall, hall, ht, ht', hlist, hlist, hinner _ _ _ _ hparts _ _ t t' (.quote place)]
        rw [List.length_cons, List.length_append, List.length_map]
        dsimp only at hle
        omega

/-- The content of an item stands to the right of its marker. -/
theorem le_itemStart (l : Line) (marker : ItemMarker) : l.indent ≤ (itemStart l marker).2 := by
  have hcolumn := le_contentColumn l.base (l.indent + marker.width) marker.rest
  rw [itemStart]
  dsimp only
  split <;> omega

theorem itemContent_local (hinner : Local inner) (h : Parts m u o o') (hplace : place.Inside m)
    (hl : place.margin ≤ l.indent)
    (hle : (itemContent inner place l marker (w ++ (u ++ o :: r))).2 - 1 ≤ w.length) :
    itemContent inner place l marker (w ++ (u ++ o' :: r')) =
      itemContent inner place l marker (w ++ (u ++ o :: r)) := by
  obtain ⟨s, s', hides, hs, hs'⟩ := h.hides
  obtain ⟨t, ht⟩ := hs r
  obtain ⟨t', ht'⟩ := hs' r'
  have hhead : (w ++ (u ++ o' :: r')).head?.map Line.isEmpty =
      (w ++ (u ++ o :: r)).head?.map Line.isEmpty := by
    rw [ht, ht']
    cases w with
    | nil => exact congrArg some hides.isEmpty
    | cons => rfl
  have hlength : min 2 (1 + (w ++ (u ++ o' :: r')).length) =
      min 2 (1 + (w ++ (u ++ o :: r)).length) := by
    simp only [List.length_append, List.length_cons]
    omega
  have hmargin : m ≤ (itemStart l marker).2 :=
    Int.le_trans hplace.le_margin (Int.le_trans hl (le_itemStart l marker))
  rw [itemContent] at hle
  rw [itemContent, itemContent, hhead, hlength]
  dsimp only at hle ⊢
  split
  · rfl
  · rename_i hempty
    rw [if_neg hempty, ← List.cons_append] at hle
    rw [← List.cons_append, ← List.cons_append]
    refine hinner _ _ _ _ h _ _ r r' (hplace.item hmargin) ?_
    rw [List.length_cons]
    omega

theorem le_indent_of_nextMarker? {next : Line} {marker marker' : ItemMarker}
    (h : nextMarker? place marker next = some marker') : place.margin ≤ next.indent := by
  rw [nextMarker?] at h
  split at h
  · exact nomatch h
  · rename_i hends
    simp only [Bool.or_eq_true, decide_eq_true_eq, not_or] at hends
    exact Int.not_lt.1 hends.1.1

theorem items_local (hinner : Local inner) (h : Parts m u o o') (hplace : place.Inside m)
    {l : Line} {marker : ItemMarker} {w : List Line} (hl : place.margin ≤ l.indent)
    (hle : (items inner place l marker (w ++ (u ++ o :: r))).2 ≤ w.length) :
    items inner place l marker (w ++ (u ++ o' :: r')) =
      items inner place l marker (w ++ (u ++ o :: r)) := by
  have htaken : (itemContent inner place l marker (w ++ (u ++ o :: r))).2 - 1 ≤ w.length := by
    rw [items_eq] at hle
    split at hle
    · exact hle
    · split at hle
      · exact hle
      · dsimp only at hle
        omega
  have hcontent : itemContent inner place l marker (w ++ (u ++ o' :: r')) =
      itemContent inner place l marker (w ++ (u ++ o :: r)) :=
    itemContent_local hinner h hplace hl htaken
  rw [items_eq] at hle
  rw [items_eq, items_eq, hcontent]
  generalize itemContent inner place l marker (w ++ (u ++ o :: r)) = reading at htaken hle ⊢
  rw [List.drop_append_of_le_length htaken] at hle ⊢
  rw [List.drop_append_of_le_length htaken]
  cases hdrop : w.drop (reading.2 - 1) with
  | nil =>
    -- The item takes all lines before those that cut off, and the list ends there.
    obtain ⟨s, s', hides, hs, hs'⟩ := h.hides
    obtain ⟨t, ht⟩ := hs r
    obtain ⟨t', ht'⟩ := hs' r'
    have hlength := congrArg List.length hdrop
    rw [List.length_drop, List.length_nil] at hlength
    rw [hdrop, List.nil_append, ht] at hle
    rw [List.nil_append, List.nil_append, ht, ht']
    dsimp only at hle ⊢
    have hnext := hides.nextMarker place marker
    cases hmarker : nextMarker? place marker s with
    | none =>
      rw [hmarker, Option.isSome_none, Option.isSome_eq_false_iff, Option.isNone_iff_eq_none]
        at hnext
      rw [hnext]
    | some marker' =>
      rw [hmarker] at hle
      dsimp only at hle
      omega
  | cons next rest =>
    have hlength := length_of_drop_eq_cons hdrop
    rw [hdrop, List.cons_append] at hle
    rw [List.cons_append, List.cons_append]
    dsimp only at hle ⊢
    cases hmarker : nextMarker? place marker next with
    | none => rfl
    | some marker' =>
      rw [hmarker] at hle
      dsimp only at hle ⊢
      rw [items_local hinner h hplace (le_indent_of_nextMarker? hmarker) (by omega)]
termination_by w.length

theorem block_local (hquote : Local inQuote) (hitem : Local inItem) (h : Parts m u o o')
    (hplace : place.Inside m) (hl : place.margin ≤ l.indent)
    (hle : (block inQuote inItem place l (w ++ (u ++ o :: r))).2 ≤ w.length) :
    block inQuote inItem place l (w ++ (u ++ o' :: r')) =
      block inQuote inItem place l (w ++ (u ++ o :: r)) := by
  obtain ⟨s, s', hides, hs, hs'⟩ := h.hides
  obtain ⟨t, ht⟩ := hs r
  obtain ⟨t', ht'⟩ := hs' r'
  rw [block] at hle
  rw [block, block]
  by_cases hindented : Fence.isIndented place.margin l
  · rw [if_pos hindented, ht] at hle
    rw [if_pos hindented, if_pos hindented, ht, ht',
      codeExtent_local hides hplace.le_margin hle]
  · rw [if_neg hindented] at hle ⊢
    rw [if_neg hindented]
    cases hopening : Fence.opening? place.margin l with
    | some found =>
      rw [hopening, ht] at hle
      dsimp only at hle ⊢
      rw [ht, ht', ofLines_local hides hle]
    | none =>
      rw [hopening] at hle
      dsimp only at hle ⊢
      by_cases hquotes : startsQuote place.margin l
      · rw [if_pos hquotes] at hle ⊢
        rw [if_pos hquotes]
        exact quote_local hquote h hplace hle
      · rw [if_neg hquotes] at hle ⊢
        rw [if_neg hquotes]
        by_cases hbreak : isThematicBreak place.margin l
        · rw [if_pos hbreak, if_pos hbreak]
        · rw [if_neg hbreak] at hle ⊢
          rw [if_neg hbreak]
          cases hmarker : place.listMarker? l with
          | some marker =>
            rw [hmarker] at hle
            exact items_local hitem h hplace hl hle
          | none =>
            rw [hmarker, ht] at hle
            dsimp only at hle ⊢
            rw [ht, ht']
            exact leaf_local hides hplace hle

/-! ## Sequences -/

theorem local_blocks (hquote : Local inQuote) (hitem : Local inItem) :
    Local (blocks inQuote inItem) := by
  intro m u o o' h place w r r' hplace hle
  match w with
  | [] =>
    obtain ⟨s, s', hides, hs, hs'⟩ := h.hides
    obtain ⟨t, ht⟩ := hs r
    obtain ⟨t', ht'⟩ := hs' r'
    rw [List.nil_append, ht] at hle
    rw [List.nil_append, List.nil_append, ht, ht']
    by_cases hlt : s.indent < place.margin
    · rw [blocks_of_lt hides.cuts.isEmpty hlt,
        blocks_of_lt hides.cuts'.isEmpty (hides.indent ▸ hlt)]
    · rw [blocks_of_le hides.cuts.isEmpty (Int.not_lt.1 hlt), List.length_nil] at hle
      dsimp only at hle
      omega
  | l :: w =>
    rw [List.cons_append, List.length_cons] at hle
    rw [List.cons_append, List.cons_append]
    by_cases hempty : l.isEmpty
    · rw [blocks_of_isEmpty hempty] at hle
      dsimp only at hle
      rw [blocks_of_isEmpty hempty, blocks_of_isEmpty hempty,
        local_blocks hquote hitem _ _ _ _ h place w r r' hplace (by omega)]
    · rw [Bool.not_eq_true] at hempty
      by_cases hlt : l.indent < place.margin
      · rw [blocks_of_lt hempty hlt, blocks_of_lt hempty hlt]
      · have hl := Int.not_lt.1 hlt
        rw [blocks_of_le hempty hl] at hle
        dsimp only at hle
        have hextra : (block inQuote inItem place l (w ++ (u ++ o :: r))).2 ≤ w.length := by
          omega
        rw [blocks_of_le hempty hl, blocks_of_le hempty hl,
          block_local hquote hitem h hplace hl hextra]
        rw [List.drop_append_of_le_length hextra] at hle ⊢
        rw [List.drop_append_of_le_length hextra,
          local_blocks hquote hitem _ _ _ _ h place _ r r' hplace (by rw [List.length_drop]; omega)]
termination_by _ _ _ _ _ _ w => w.length
decreasing_by all_goals simp only [List.length_drop, List.length_cons]; omega

theorem local_skipped : Local skipped := by
  intro m u o o' h place w r r' hplace hle
  induction w with
  | nil =>
    obtain ⟨s, s', hides, hs, hs'⟩ := h.hides
    obtain ⟨t, ht⟩ := hs r
    obtain ⟨t', ht'⟩ := hs' r'
    rw [List.nil_append, ht, skipped, hides.cuts.isEmpty, if_neg Bool.false_ne_true,
      List.length_nil] at hle
    rw [List.nil_append, List.nil_append, ht, ht', skipped, skipped, hides.cuts.isEmpty,
      hides.cuts'.isEmpty, if_neg Bool.false_ne_true, if_neg Bool.false_ne_true, hides.indent]
    by_cases hlt : s.indent < place.margin
    · rw [if_pos hlt, if_pos hlt]
    · rw [if_neg hlt] at hle
      dsimp only at hle
      omega
  | cons l w ih =>
    rw [List.cons_append, skipped, List.length_cons] at hle
    rw [List.cons_append, List.cons_append, skipped, skipped]
    by_cases hempty : l.isEmpty
    · rw [if_pos hempty] at hle
      dsimp only at hle
      rw [if_pos hempty, if_pos hempty, ih (by omega)]
    · rw [if_neg hempty] at hle ⊢
      rw [if_neg hempty]
      by_cases hlt : l.indent < place.margin
      · rw [if_pos hlt, if_pos hlt]
      · rw [if_neg hlt] at hle
        simp only [List.length_append, List.length_cons] at hle
        omega

/-- A sequence that stops before two documents part holds the same in both. -/
theorem local_sequence (depth : Nat) : Local (sequence depth) := by
  match depth with
  | 0 => exact local_skipped
  | 1 => exact local_blocks local_skipped local_skipped
  | depth + 2 => exact local_blocks (local_sequence (depth + 1)) (local_sequence depth)

end Markdown

end Transclude
