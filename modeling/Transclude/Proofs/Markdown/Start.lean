import Transclude.Proofs.Markdown.Container
import Transclude.Proofs.Markdown.Cut

/-!
# Lines that start containers and fences

A line that opens a fence, starts a quote or starts a list item cuts off what comes before
it. Blocks before it see what it starts with and nothing else: the run of fence characters
may be longer in one document than in the other, there or after the markers of containers.

* `cuts_of_opening?`, `cuts_of_quote`, `cuts_of_ofText?`: such lines cut off;
* `hides_of_opening?`, `hides_of_quote`, `SameItem.hides`: two of them hide alike what comes
  after them.
-/

namespace Transclude

namespace Markdown

variable {place : Place} {m : Int} {l l' : Line} {marker : ItemMarker} {found found' : Text × Text}
  {t t' mark : Text} {c : Char}

/-! ## Cutting off -/

/-- A line cuts off what comes before it if it does wherever it is not code. -/
theorem cuts_of_cutsOff (hempty : l.isEmpty = false) (hnonneg : 0 ≤ l.indent)
    (hindented : Fence.isIndented m l = false)
    (h : ∀ place : Place, place.Inside m → Fence.isIndented place.margin l = false →
      place.cutsOff l) : Cuts m l := by
  have hlt : l.indent < m + 4 := by
    rw [Fence.isIndented, decide_eq_false_iff_not] at hindented
    have : ¬(4 : Int) ≤ l.indent - m := hindented
    omega
  refine ⟨hempty, hnonneg, hlt, fun place hplace => h place hplace ?_⟩
  have hle : m ≤ place.margin := hplace.le_margin
  generalize place.margin = margin at hle
  have hmargin : (m : Int) ≤ margin := hle
  rw [Fence.isIndented, decide_eq_false_iff_not]
  omega

theorem isEmpty_of_content (h : l.content = c :: t) : l.isEmpty = false := by
  rw [Line.isEmpty, h, List.isEmpty_cons]

theorem cutsOff_of_endsList (h : place.endsList l) : place.cutsOff l := by
  rw [Place.cutsOff, h]
  rfl

theorem endsList_of_opening? (h : Fence.opening? place.margin l = some found) :
    place.endsList l := by
  rw [Place.endsList, h]
  rfl

theorem endsList_of_quote (h : l.content = '>' :: t)
    (hindented : Fence.isIndented place.margin l = false) : place.endsList l := by
  have hstarts : startsQuote place.margin l = true := by
    rw [startsQuote, hindented, h]
    rfl
  rw [Place.endsList, hstarts, Bool.or_true]
  rfl

theorem content_ne_nil_of_opening? {margin : Fence.Margin}
    (h : Fence.opening? margin l = some found) :
    ∃ d t, IsFenceChar d ∧ l.content = d :: t := by
  obtain ⟨-, hcontent, d, n, hd, hn, hmarkup, -⟩ := Fence.opening?_eq_some_iff.1 h
  obtain ⟨n, rfl⟩ : ∃ k, n = k + 1 := ⟨n - 1, by omega⟩
  rw [hmarkup, List.replicate_succ, List.cons_append] at hcontent
  exact ⟨d, _, hd, hcontent⟩

/-- Where a fence opens depends on the indentation alone. -/
theorem opening?_of_isIndented {margin margin' : Fence.Margin}
    (h : Fence.opening? margin l = some found) (hindented : Fence.isIndented margin' l = false) :
    Fence.opening? margin' l = some found :=
  Fence.opening?_eq_some_iff.2 ⟨hindented, (Fence.opening?_eq_some_iff.1 h).2⟩

theorem cuts_of_opening? (hnonneg : 0 ≤ l.indent) (h : Fence.opening? m l = some found) :
    Cuts m l := by
  obtain ⟨d, t, -, hcontent⟩ := content_ne_nil_of_opening? h
  exact cuts_of_cutsOff (isEmpty_of_content hcontent) hnonneg
    (Fence.opening?_eq_some_iff.1 h).1
    fun place _ hindented =>
      cutsOff_of_endsList (endsList_of_opening? (opening?_of_isIndented h hindented))

theorem cuts_of_quote (hnonneg : 0 ≤ l.indent) (h : l.content = '>' :: t)
    (hindented : Fence.isIndented m l = false) : Cuts m l :=
  cuts_of_cutsOff (isEmpty_of_content h) hnonneg hindented fun _ _ hindented =>
    cutsOff_of_endsList (endsList_of_quote h hindented)

theorem content_ne_nil_of_ofText? (h : ItemMarker.ofText? l.content = some marker) :
    ∃ c t, IsMark c ∧ l.content = c :: t := by
  obtain ⟨mark, hstarts, -⟩ := ItemMarker.exists_append h
  obtain ⟨c, mark, rfl⟩ := List.exists_cons_of_ne_nil hstarts.ne_nil
  exact ⟨c, _, hstarts.isMark c List.mem_cons_self, hstarts.eq⟩

theorem cuts_of_ofText? (hnonneg : 0 ≤ l.indent) (hle : m ≤ l.indent)
    (h : ItemMarker.ofText? l.content = some marker)
    (hindented : Fence.isIndented m l = false) : Cuts m l := by
  obtain ⟨c, t, -, hcontent⟩ := content_ne_nil_of_ofText? h
  refine cuts_of_cutsOff (isEmpty_of_content hcontent) hnonneg hindented
    fun place hplace hplace' => ?_
  have hmarker : place.listMarker? l = some marker := by
    rw [Place.listMarker?, hplace', Bool.false_or, if_neg, h]
    split
    · exact Bool.false_ne_true
    · rename_i outer houter
      simp only [Bool.and_eq_true, decide_eq_true_eq, not_and]
      -- Either the margin is the one at which the line stands, or the outer margin is no
      -- further to the left than that.
      intro hfar hlt
      rcases hplace.outer with hmargin | hmargin
      · exact absurd (Int.lt_of_lt_of_le hlt hmargin) (Int.not_lt.2 hle)
      · have : m ≤ outer := hmargin outer houter
        rw [Fence.isIndented, decide_eq_false_iff_not] at hindented
        have : ¬(4 : Int) ≤ l.indent - m := hindented
        omega
  rw [Place.cutsOff, hmarker, Option.isSome_some, Bool.or_true]
  rfl

/-! ## Hiding alike -/

/-- Code interrupts no paragraph. -/
theorem interrupts_of_isIndented (h : Fence.isIndented place.margin l) :
    place.interrupts l = false := by
  rw [Place.interrupts, Place.endsList, Place.listInterrupts, Place.htmlInterrupts,
    Fence.opening?, startsQuote, isThematicBreak, Place.listMarker?, Html.opening?, isHeading, h]
  rfl

theorem interrupts_of_endsList (h : place.endsList l) : place.interrupts l := by
  rw [Place.interrupts, h]
  rfl

theorem nextMarker?_of_endsList (h : place.endsList l ∨ Fence.isIndented place.margin l) :
    nextMarker? place marker l = none := by
  rw [nextMarker?, if_pos]
  rcases h with h | h <;> rw [h] <;> simp only [Bool.or_true, Bool.true_or]

theorem isUnderline_of_ne {margin : Fence.Margin} (h : l.content = c :: t) (hdash : c ≠ '-')
    (hequals : c ≠ '=') : isUnderline margin l = false := by
  rw [isUnderline, h]
  simp only [hdash, hequals, decide_false, Bool.or_false, Bool.false_and, Bool.and_false]

/-- Two lines that end a list wherever they are not code. -/
theorem alike_of_endsList (hindent : l'.indent = l.indent) {c c' : Char} {t t' : Text}
    (hcontent : l.content = c :: t) (hcontent' : l'.content = c' :: t')
    (hc : IsFenceChar c ∨ c = '>') (hc' : IsFenceChar c' ∨ c' = '>')
    (h : ∀ place : Place, Fence.isIndented place.margin l = false → place.endsList l)
    (h' : ∀ place : Place, Fence.isIndented place.margin l' = false → place.endsList l') :
    Alike l l' := by
  have hindented (place : Place) : Fence.isIndented place.margin l' =
      Fence.isIndented place.margin l := by
    rw [Fence.isIndented, Fence.isIndented, hindent]
  have hne {c : Char} (hc : IsFenceChar c ∨ c = '>') : c ≠ '-' ∧ c ≠ '=' := by
    rcases hc with (rfl | rfl) | rfl <;> decide
  have hnone (l : Line) (h : ∀ place : Place, Fence.isIndented place.margin l = false →
      place.endsList l) (place : Place) (marker : ItemMarker) :
      nextMarker? place marker l = none := by
    cases hplace : Fence.isIndented place.margin l with
    | false => exact nextMarker?_of_endsList (.inl (h place hplace))
    | true => exact nextMarker?_of_endsList (.inr hplace)
  refine ⟨?_, hindent, fun place => ?_, fun margin => ?_, fun place marker => ?_⟩
  · rw [isEmpty_of_content hcontent, isEmpty_of_content hcontent']
  · cases hplace : Fence.isIndented place.margin l with
    | false =>
      rw [interrupts_of_endsList (h place hplace),
        interrupts_of_endsList (h' place ((hindented place).trans hplace))]
    | true =>
      rw [interrupts_of_isIndented hplace,
        interrupts_of_isIndented ((hindented place).trans hplace)]
  · rw [isUnderline_of_ne hcontent (hne hc).1 (hne hc).2,
      isUnderline_of_ne hcontent' (hne hc').1 (hne hc').2]
  · rw [hnone l h, hnone l' h']

/-- Two lines that open a fence. -/
theorem hides_of_opening? (hnonneg : 0 ≤ l.indent) (hindent : l'.indent = l.indent)
    (h : Fence.opening? m l = some found) (h' : Fence.opening? m l' = some found') :
    Hides m l l' := by
  obtain ⟨d, t, hd, hcontent⟩ := content_ne_nil_of_opening? h
  obtain ⟨d', t', hd', hcontent'⟩ := content_ne_nil_of_opening? h'
  refine ⟨alike_of_endsList hindent hcontent hcontent' (.inl hd) (.inl hd')
    (fun place hplace => endsList_of_opening? (opening?_of_isIndented h hplace))
    (fun place hplace => endsList_of_opening? (opening?_of_isIndented h' hplace)),
    cuts_of_opening? hnonneg h, cuts_of_opening? (hindent ▸ hnonneg) h'⟩

/-- Two lines that start a quote. -/
theorem hides_of_quote (hnonneg : 0 ≤ l.indent) (hindent : l'.indent = l.indent)
    (h : l.content = '>' :: t) (h' : l'.content = '>' :: t')
    (hindented : Fence.isIndented m l = false) : Hides m l l' := by
  have hindented' : Fence.isIndented m l' = false := by
    rw [Fence.isIndented, hindent]
    exact hindented
  exact ⟨alike_of_endsList hindent h h' (.inr rfl) (.inr rfl)
    (fun place hplace => endsList_of_quote h hplace)
    (fun place hplace => endsList_of_quote h' hplace),
    cuts_of_quote hnonneg h hindented, cuts_of_quote (hindent ▸ hnonneg) h' hindented'⟩

/-! ## List items -/

/-- A text with a fence character in it is no thematic break. -/
theorem isBreakMarks_of_mem {d : Char} (hd : IsFenceChar d) (h : d ∈ t) :
    isBreakMarks (c :: t) = false := by
  refine Bool.eq_false_iff.2 fun hmarks => ?_
  simp only [isBreakMarks, Bool.and_eq_true, Bool.or_eq_true, decide_eq_true_eq, List.all_eq_true]
    at hmarks
  obtain ⟨⟨hc, hall⟩, -⟩ := hmarks
  -- A fence character would have to be the mark of the break, or a blank.
  rcases hall d h with rfl | hblank
  · rcases hd with rfl | rfl <;> revert hc <;> decide
  · rw [hd.isSpaceOrTab] at hblank
    cases hblank

theorem all_dropWhile_of_mem {d : Char} (hd : IsFenceChar d) (h : d ∈ t) (hne : c ≠ d) :
    (t.dropWhile (· = c)).all Text.isSpaceOrTab = false := by
  have hmem : d ∈ t.dropWhile (· = c) := by
    rw [← List.takeWhile_append_dropWhile (p := (· = c)) (l := t), List.mem_append] at h
    refine h.resolve_left fun htake => hne ?_
    have := List.all_eq_true.1 (List.all_takeWhile (p := (· = c)) (l := t)) d htake
    exact (of_decide_eq_true this).symm
  rw [List.all_eq_false]
  exact ⟨d, hmem, by rw [hd.isSpaceOrTab]; exact Bool.false_ne_true⟩

/-- What a line shows that starts with a marker and holds a fence character after it. -/
structure StartsItem (l : Line) (marker : ItemMarker) : Prop where
  content : ∃ c t d, l.content = c :: t ∧ IsMark c ∧ IsFenceChar d ∧ d ∈ t
  rest : marker.rest.all Text.isSpaceOrTab = false

theorem startsItem (h : ItemMarker.ofText? l.content = some marker) {d : Char}
    (hd : IsFenceChar d) (hrest : d ∈ marker.rest) : StartsItem l marker := by
  obtain ⟨mark, hstarts, -⟩ := ItemMarker.exists_append h
  obtain ⟨c, mark, rfl⟩ := List.exists_cons_of_ne_nil hstarts.ne_nil
  refine ⟨⟨c, _, d, hstarts.eq, hstarts.isMark c List.mem_cons_self, hd,
    List.mem_append_right _ hrest⟩, ?_⟩
  rw [List.all_eq_false]
  exact ⟨d, hrest, by rw [hd.isSpaceOrTab]; exact Bool.false_ne_true⟩

namespace StartsItem

theorem endsList (h : StartsItem l marker) (place : Place) : place.endsList l = false := by
  obtain ⟨c, t, d, hcontent, hc, hd, ht⟩ := h.content
  have hopening : Fence.opening? place.margin l = none := by
    cases hopening : Fence.opening? place.margin l with
    | none => rfl
    | some found =>
      obtain ⟨e, t', he, hcontent'⟩ := content_ne_nil_of_opening? hopening
      rw [hcontent] at hcontent'
      exact absurd ((List.cons.inj hcontent').1 ▸ he) hc.not_isFenceChar
  rw [Place.endsList, hopening, startsQuote, isThematicBreak, hcontent, isBreakMarks_of_mem hd ht,
    List.head?_cons, decide_eq_false fun h => hc.ne_quote (Option.some.inj h)]
  simp only [Option.isSome_none, Bool.and_false, Bool.or_false]

theorem isUnderline (h : StartsItem l marker) (margin : Fence.Margin) :
    isUnderline margin l = false := by
  obtain ⟨c, t, d, hcontent, hc, hd, ht⟩ := h.content
  have hne : c ≠ d := fun hcd => hc.not_isFenceChar (hcd ▸ hd)
  rw [Markdown.isUnderline, hcontent]
  dsimp only
  rw [all_dropWhile_of_mem hd ht hne, Bool.and_false, Bool.and_false]

theorem interrupts (h : StartsItem l marker) (place : Place) :
    place.interrupts l = place.listInterrupts l := by
  obtain ⟨c, t, d, hcontent, hc, -⟩ := h.content
  have hhtml : place.htmlInterrupts l = false := by
    have hkind : Html.opening? place.margin l = none := by
      rw [Html.opening?, hcontent, Html.kind?]
      · exact ite_self _
      · intro t' heq
        exact hc.ne_tag (List.cons.inj heq).1
    rw [Place.htmlInterrupts, hkind]
  have hheading : isHeading place.margin l = false := by
    rw [isHeading, hcontent, List.takeWhile_cons_of_neg (by simpa using hc.ne_heading)]
    simp
  rw [Place.interrupts, h.endsList, hhtml, hheading]
  simp only [Bool.false_or, Bool.or_false]

end StartsItem

/-- The marker at the start of a line whose rest is another one. -/
theorem ofText?_map {t t' rest : Text}
    (hnumber : ItemMarker.number? t' = (ItemMarker.number? t).map (·.withRest rest))
    (hbullet : ItemMarker.bullet? t' = (ItemMarker.bullet? t).map (·.withRest rest)) :
    ItemMarker.ofText? t' = (ItemMarker.ofText? t).map (·.withRest rest) := by
  rw [ItemMarker.ofText?, ItemMarker.ofText?, hnumber, hbullet]
  cases ItemMarker.number? t <;> rfl

theorem continuing?_map {t t' rest : Text} (before : ItemMarker)
    (hnumber : ItemMarker.number? t' = (ItemMarker.number? t).map (·.withRest rest))
    (hbullet : ItemMarker.bullet? t' = (ItemMarker.bullet? t).map (·.withRest rest)) :
    before.continuing? t' = (before.continuing? t).map (·.withRest rest) := by
  have hfilter (found : Option ItemMarker) :
      (found.map (·.withRest rest)).filter (·.sign = before.sign) =
        (found.filter (·.sign = before.sign)).map (·.withRest rest) := by
    cases found with
    | none => rfl
    | some marker =>
      have hsign : (marker.withRest rest).sign = marker.sign := rfl
      simp only [Option.map_some, Option.filter_some, hsign]
      split <;> rfl
  rw [ItemMarker.continuing?, ItemMarker.continuing?, hnumber, hbullet]
  split <;> exact hfilter _

/-- Two lines that start an item with the same marker, with a fence in it. -/
structure SameItem (l l' : Line) (marker : ItemMarker) (rest : Text) : Prop where
  indent : l'.indent = l.indent
  ofText? : ItemMarker.ofText? l.content = some marker
  number? : ItemMarker.number? l'.content =
    (ItemMarker.number? l.content).map (·.withRest rest)
  bullet? : ItemMarker.bullet? l'.content =
    (ItemMarker.bullet? l.content).map (·.withRest rest)
  exists_fenceChar : ∃ d, IsFenceChar d ∧ d ∈ marker.rest ∧ d ∈ rest

namespace SameItem

variable {rest : Text}

theorem ofText?' (h : SameItem l l' marker rest) :
    ItemMarker.ofText? l'.content = some (marker.withRest rest) := by
  rw [ofText?_map h.number? h.bullet?, h.ofText?, Option.map_some]

theorem startsItem (h : SameItem l l' marker rest) : StartsItem l marker := by
  obtain ⟨d, hd, hmem, -⟩ := h.exists_fenceChar
  exact Markdown.startsItem h.ofText? hd hmem

theorem startsItem' (h : SameItem l l' marker rest) : StartsItem l' (marker.withRest rest) := by
  obtain ⟨d, hd, -, hmem⟩ := h.exists_fenceChar
  exact Markdown.startsItem h.ofText?' hd hmem

theorem isIndented (h : SameItem l l' marker rest) (margin : Fence.Margin) :
    Fence.isIndented margin l' = Fence.isIndented margin l := by
  rw [Fence.isIndented, Fence.isIndented, h.indent]

theorem listMarker? (h : SameItem l l' marker rest) (place : Place) :
    place.listMarker? l' = (place.listMarker? l).map (·.withRest rest) := by
  rw [Place.listMarker?, Place.listMarker?, h.indent, h.isIndented, h.ofText?, h.ofText?']
  generalize (Fence.isIndented place.margin l || _) = isCode
  cases isCode <;> rfl

theorem nextMarker? (h : SameItem l l' marker rest) (place : Place) (before : ItemMarker) :
    nextMarker? place before l' = (nextMarker? place before l).map (·.withRest rest) := by
  rw [Markdown.nextMarker?, Markdown.nextMarker?, h.indent, h.isIndented, h.startsItem.endsList,
    h.startsItem'.endsList, continuing?_map before h.number? h.bullet?]
  split <;> rfl

theorem alike (h : SameItem l l' marker rest) : Alike l l' := by
  have hl := h.startsItem
  have hl' := h.startsItem'
  obtain ⟨c, t, -, hcontent, -⟩ := hl.content
  obtain ⟨c', t', -, hcontent', -⟩ := hl'.content
  refine ⟨?_, h.indent, fun place => ?_, fun margin => ?_, fun place before => ?_⟩
  · rw [isEmpty_of_content hcontent, isEmpty_of_content hcontent']
  · rw [hl.interrupts, hl'.interrupts, Place.listInterrupts, Place.listInterrupts, h.listMarker?,
      h.indent]
    -- Which item interrupts a paragraph depends on its number and on whether it is empty; with a
    -- fence in it, it is not.
    cases hfound : place.listMarker? l with
    | none => rfl
    | some found =>
      rw [Place.listMarker?] at hfound
      have := (Option.ite_none_left_eq_some.1 hfound).2
      rw [h.ofText?] at this
      rw [← Option.some.inj this, Option.map_some]
      dsimp only
      rw [hl.rest, hl'.rest]
      rfl
  · rw [hl.isUnderline, hl'.isUnderline]
  · rw [h.nextMarker?, Option.isSome_map]

theorem hides (h : SameItem l l' marker rest) (hnonneg : 0 ≤ l.indent) (hle : m ≤ l.indent)
    (hindented : Fence.isIndented m l = false) : Hides m l l' :=
  ⟨h.alike, cuts_of_ofText? hnonneg hle h.ofText? hindented,
    cuts_of_ofText? (h.indent ▸ hnonneg) (h.indent ▸ hle) h.ofText?'
      ((h.isIndented m).trans hindented)⟩

end SameItem

/-- A line that starts an item starts no quote. -/
theorem withoutQuoteMarker_of_ofText? (h : ItemMarker.ofText? l.content = some marker) :
    withoutQuoteMarker l = none := by
  obtain ⟨c, t, hc, hcontent⟩ := content_ne_nil_of_ofText? h
  unfold withoutQuoteMarker
  split
  · rename_i hquote
    rw [hcontent] at hquote
    exact absurd (List.cons.inj hquote).1 hc.ne_quote
  · rfl

/-- A line that opens a fence starts no quote. -/
theorem withoutQuoteMarker_of_opening? {margin : Fence.Margin}
    (h : Fence.opening? margin l = some found) : withoutQuoteMarker l = none := by
  obtain ⟨d, t, hd, hcontent⟩ := content_ne_nil_of_opening? h
  unfold withoutQuoteMarker
  split
  · rename_i hquote
    rw [hcontent] at hquote
    exact absurd (List.cons.inj hquote).1 hd.ne_quote
  · rfl

end Markdown

end Transclude
