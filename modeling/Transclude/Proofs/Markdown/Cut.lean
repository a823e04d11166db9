import Transclude.Proofs.Markdown.Column
import Transclude.Proofs.Markdown.Span

/-!
# Lines that cut off

A block can depend on lines that it does not take: a link definition looks as far ahead as
a paragraph could go on, indented code looks beyond empty lines. A line that *cuts* off
every continuation puts an end to this. What comes after it, and even what its own text
goes on with, does not matter to the blocks before it, as long as the line starts the same
kind of block.

* `Cuts`: a line that ends whatever block comes before it;
* `Hides`: two such lines between which the blocks before them cannot tell;
* `leaf_local`, `bodyLines_local`: blocks that end before the line do not depend on it.
-/

namespace Transclude

namespace Markdown

variable {place : Place} {m : Int} {l h h' : Line} {w t t' : List Line}

/-! ## Lines that cut off -/

/-- Places inside the margin `m`: the innermost list item has its content there or further
    to the right, and the item around it does not matter or has so too. -/
structure Place.Inside (m : Int) (place : Place) : Prop where
  le_margin : m ≤ place.margin
  outer : place.margin ≤ m ∨ ∀ outer, place.outer = some outer → m ≤ outer

theorem Place.inside_margin (place : Place) : place.Inside place.margin :=
  ⟨Int.le_refl _, .inl (Int.le_refl _)⟩

/-- The place in a quote. -/
theorem Place.Inside.quote (place : Place) : { place with margin := 0 : Place }.Inside 0 :=
  ⟨Int.le_refl _, .inl (Int.le_refl _)⟩

/-- The place in a list item. -/
theorem Place.Inside.item (hplace : place.Inside m) {margin : Int} (hle : m ≤ margin) :
    Place.Inside m { margin, outer := some place.margin } :=
  ⟨hle, .inr fun _ houter => Option.some.inj houter ▸ hplace.le_margin⟩

/-- A line that no block goes on with that started before it, seen from any place inside
    the margin `m`. -/
structure Cuts (m : Int) (l : Line) : Prop where
  isEmpty : l.isEmpty = false
  nonneg : 0 ≤ l.indent
  lt : l.indent < m + 4
  cutsOff : ∀ place : Place, place.Inside m → place.cutsOff l

namespace Cuts

theorem isIndented (hcuts : Cuts m l) {margin : Int} (hle : m ≤ margin) :
    Fence.isIndented margin l = false := by
  have := hcuts.lt
  rw [Fence.isIndented, decide_eq_false_iff_not]
  omega

theorem isLazy (hcuts : Cuts m l) {margin : Int} (hle : m ≤ margin) :
    isLazy margin l = false := by
  rw [Markdown.isLazy, hcuts.isIndented hle, Bool.false_or, decide_eq_false_iff_not]
  exact Int.not_lt.2 hcuts.nonneg

end Cuts

/-- Two lines of which the blocks before them see the same. -/
structure Alike (l l' : Line) : Prop where
  isEmpty : l'.isEmpty = l.isEmpty
  indent : l'.indent = l.indent
  interrupts : ∀ place : Place, place.interrupts l' = place.interrupts l
  isUnderline : ∀ margin, isUnderline margin l' = isUnderline margin l
  nextMarker : ∀ place marker,
    (nextMarker? place marker l').isSome = (nextMarker? place marker l).isSome

theorem Alike.refl (l : Line) : Alike l l :=
  ⟨rfl, rfl, fun _ => rfl, fun _ => rfl, fun _ _ => rfl⟩

/-- Two lines that hide alike what comes after them. -/
structure Hides (m : Int) (l l' : Line) : Prop extends Alike l l' where
  cuts : Cuts m l
  cuts' : Cuts m l'

/-! ## Blocks that hold no others -/

namespace Cuts

theorem codeExtent (hcuts : Cuts m l) {margin : Int} (hle : m ≤ margin) :
    codeExtent margin (l :: t) = 0 := by
  rw [Markdown.codeExtent, hcuts.isEmpty, hcuts.isIndented hle]
  rfl

theorem definitionLines (hcuts : Cuts m l) (hplace : place.Inside m) :
    definitionLines place (l :: t) = [] := by
  rw [Markdown.definitionLines, hcuts.isEmpty, hcuts.isLazy hplace.le_margin,
    hcuts.cutsOff place hplace]
  rfl

theorem paragraphExtent (hcuts : Cuts m l) (hle : m ≤ place.margin) :
    paragraphExtent place (l :: t) =
      if place.interrupts l then 0 else 1 + paragraphExtent place t := by
  rw [Markdown.paragraphExtent, hcuts.isEmpty, hcuts.isLazy hle]
  cases place.interrupts l <;> rfl

theorem underlinedExtent (hcuts : Cuts m l) (hle : m ≤ place.margin) :
    underlinedExtent place (l :: t) =
      if isUnderline place.margin l then some 1
      else if place.interrupts l then none
      else (underlinedExtent place t).map (1 + ·) := by
  rw [Markdown.underlinedExtent, hcuts.isEmpty, hcuts.isIndented hle,
    decide_eq_false (Int.not_lt.2 hcuts.nonneg)]
  cases place.interrupts l <;> rfl

end Cuts

theorem codeExtent_local {margin : Int} (hh : Hides m h h') (hm : m ≤ margin)
    (hle : codeExtent margin (w ++ h :: t) ≤ w.length) :
    codeExtent margin (w ++ h' :: t') = codeExtent margin (w ++ h :: t) := by
  induction w with
  | nil => rw [List.nil_append, List.nil_append, hh.cuts.codeExtent hm, hh.cuts'.codeExtent hm]
  | cons l w ih =>
    simp only [List.cons_append, codeExtent, List.length_cons] at hle ⊢
    by_cases hempty : l.isEmpty
    · -- An empty line belongs to the code only if more code follows.
      rw [if_pos hempty] at hle
      rw [if_pos hempty, if_pos hempty, ih]
      split at hle <;> omega
    · rw [if_neg hempty] at hle
      rw [if_neg hempty, if_neg hempty]
      by_cases hindented : Fence.isIndented margin l
      · rw [if_pos hindented] at hle
        rw [if_pos hindented, if_pos hindented, ih (by omega)]
      · rw [if_neg hindented, if_neg hindented]

theorem extent_local {margin : Fence.Margin} {kind : Html.Kind} (hh : Hides m h h')
    (hle : Html.extent margin kind (w ++ h :: t) ≤ w.length) :
    Html.extent margin kind (w ++ h' :: t') = Html.extent margin kind (w ++ h :: t) := by
  induction w with
  | nil =>
    simp only [List.nil_append, Html.extent, hh.cuts.isEmpty, hh.indent, List.length_nil] at hle ⊢
    by_cases hlt : h.indent < margin
    · rw [if_pos hlt, if_pos hlt]
    · rw [if_neg hlt] at hle
      split at hle <;> simp at hle
  | cons l w ih =>
    simp only [List.cons_append, Html.extent, List.length_cons] at hle ⊢
    by_cases hlt : l.indent < margin
    · rw [if_pos hlt, if_pos hlt]
    · rw [if_neg hlt] at hle ⊢
      rw [if_neg hlt]
      by_cases hends : kind.isEndedBy l.content
      · rw [if_pos hends, if_pos hends]
      · rw [if_neg hends] at hle ⊢
        rw [if_neg hends, ih (by omega)]

theorem definitionLines_local (hh : Hides m h h') (hplace : place.Inside m) :
    definitionLines place (w ++ h' :: t') = definitionLines place (w ++ h :: t) := by
  induction w with
  | nil =>
    rw [List.nil_append, List.nil_append, hh.cuts.definitionLines hplace,
      hh.cuts'.definitionLines hplace]
  | cons l w ih => rw [List.cons_append, List.cons_append, definitionLines, definitionLines, ih]

theorem paragraphExtent_local (hh : Hides m h h') (hm : m ≤ place.margin)
    (hle : paragraphExtent place (w ++ h :: t) ≤ w.length) :
    paragraphExtent place (w ++ h' :: t') = paragraphExtent place (w ++ h :: t) := by
  induction w with
  | nil =>
    rw [List.nil_append, hh.cuts.paragraphExtent hm] at hle
    rw [List.nil_append, List.nil_append, hh.cuts.paragraphExtent hm,
      hh.cuts'.paragraphExtent hm, hh.interrupts]
    by_cases hinterrupts : place.interrupts h
    · rw [if_pos hinterrupts, if_pos hinterrupts]
    · rw [if_neg hinterrupts, List.length_nil] at hle
      omega
  | cons l w ih =>
    simp only [List.cons_append, paragraphExtent, List.length_cons] at hle ⊢
    by_cases hempty : l.isEmpty
    · rw [if_pos hempty, if_pos hempty]
    · rw [if_neg hempty] at hle ⊢
      rw [if_neg hempty]
      by_cases hgoes : (isLazy place.margin l || !place.interrupts l) = true
      · rw [if_pos hgoes] at hle ⊢
        rw [if_pos hgoes, ih (by omega)]
      · rw [if_neg hgoes, if_neg hgoes]

/-- Looking for the line that underlines a paragraph stops where the paragraph does. -/
theorem underlinedExtent_local (hh : Hides m h h') (hm : m ≤ place.margin)
    (hle : (underlinedExtent place (w ++ h :: t)).getD (paragraphExtent place (w ++ h :: t)) ≤
      w.length) :
    underlinedExtent place (w ++ h' :: t') = underlinedExtent place (w ++ h :: t) := by
  induction w with
  | nil =>
    -- The line that cuts off is the underline itself, or interrupts the paragraph: with neither,
    -- the extent would go beyond it.
    rw [List.nil_append, hh.cuts.underlinedExtent hm, hh.cuts.paragraphExtent hm,
      List.length_nil] at hle
    rw [List.nil_append, List.nil_append, hh.cuts.underlinedExtent hm,
      hh.cuts'.underlinedExtent hm, hh.interrupts, hh.isUnderline]
    split
    · rfl
    · rename_i hunderline
      rw [if_neg hunderline] at hle
      split
      · rfl
      · rename_i hinterrupts
        rw [if_neg hinterrupts, if_neg hinterrupts, Option.getD_map (1 + ·)] at hle
        omega
  | cons l w ih =>
    rw [List.cons_append, List.cons_append, underlinedExtent, underlinedExtent]
    by_cases hempty : l.isEmpty
    · rw [if_pos hempty, if_pos hempty]
    · rw [List.cons_append, underlinedExtent, paragraphExtent, if_neg hempty, if_neg hempty,
        List.length_cons] at hle
      rw [if_neg hempty, if_neg hempty]
      -- Wherever the search goes on, the paragraph does.
      have hgoes (hlazy : (isLazy place.margin l || !place.interrupts l) = true)
          (hle : ((underlinedExtent place (w ++ h :: t)).map (1 + ·)).getD
            (if (isLazy place.margin l || !place.interrupts l) = true then
              1 + paragraphExtent place (w ++ h :: t) else 0) ≤ w.length + 1) :
          underlinedExtent place (w ++ h' :: t') = underlinedExtent place (w ++ h :: t) := by
        rw [if_pos hlazy, Option.getD_map (1 + ·)] at hle
        exact ih (by omega)
      by_cases hindented : Fence.isIndented place.margin l
      · rw [if_pos hindented] at hle
        rw [if_pos hindented, if_pos hindented, hgoes (by rw [isLazy, hindented]; rfl) hle]
      · rw [if_neg hindented] at hle
        rw [if_neg hindented, if_neg hindented]
        split
        · rfl
        · rename_i hunderline
          rw [if_neg hunderline] at hle
          by_cases hstays : (l.indent < 0 || !place.interrupts l) = true
          · have hlazy : (isLazy place.margin l || !place.interrupts l) = true := by
              rw [isLazy, Bool.or_assoc, hstays, Bool.or_true]
            rw [if_pos hstays] at hle
            rw [if_pos hstays, if_pos hstays, hgoes hlazy hle]
          · rw [if_neg hstays, if_neg hstays]

theorem leaf_local (hh : Hides m h h') (hplace : place.Inside m)
    (hle : (leaf place l (w ++ h :: t)).2 ≤ w.length) :
    leaf place l (w ++ h' :: t') = leaf place l (w ++ h :: t) := by
  have hdefinition : definitionExtent place l (w ++ h' :: t') =
      definitionExtent place l (w ++ h :: t) := by
    rw [definitionExtent, definitionExtent, definitionLines_local hh hplace]
  -- A definition looks ahead at the text of all lines up to the cut, and is decided by these.
  rw [leaf] at hle
  rw [leaf, leaf, hdefinition]
  cases hextent : definitionExtent place l (w ++ h :: t) with
  | some extra => rfl
  | none =>
    rw [hextent] at hle
    dsimp only at hle ⊢
    cases hkind : Html.opening? place.margin l with
    | some kind =>
      rw [hkind] at hle
      dsimp only at hle ⊢
      by_cases hends : kind.isEndedBy l.content
      · rw [if_pos hends, if_pos hends]
      · rw [if_neg hends] at hle ⊢
        rw [if_neg hends, extent_local hh hle]
    | none =>
      rw [hkind] at hle
      dsimp only at hle ⊢
      by_cases hheading : isHeading place.margin l
      · rw [if_pos hheading, if_pos hheading]
      · rw [if_neg hheading] at hle ⊢
        rw [if_neg hheading, underlinedExtent_local hh hplace.le_margin hle]
        dsimp only at hle
        cases hext : underlinedExtent place (w ++ h :: t) with
        | none =>
          rw [hext, Option.getD_none] at hle
          rw [Option.getD_none, Option.getD_none,
            paragraphExtent_local hh hplace.le_margin hle]
        | some k => rfl

theorem bodyLines_local {margin : Fence.Margin} {markup : Text} (hh : Hides m h h')
    (hle : (Fence.bodyLines margin markup (w ++ h :: t)).1.length +
      (if (Fence.bodyLines margin markup (w ++ h :: t)).2 then 1 else 0) ≤ w.length) :
    Fence.bodyLines margin markup (w ++ h' :: t') =
      Fence.bodyLines margin markup (w ++ h :: t) := by
  induction w with
  | nil =>
    have hends : Fence.endsContainer margin h' = Fence.endsContainer margin h := by
      rw [Fence.endsContainer, Fence.endsContainer, hh.cuts.isEmpty, hh.cuts'.isEmpty, hh.indent]
      rfl
    simp only [List.nil_append, Fence.bodyLines, List.length_nil, hends] at hle ⊢
    by_cases hend : Fence.endsContainer margin h
    · rw [if_pos hend, if_pos hend]
    · rw [if_neg hend] at hle
      split at hle <;> simp at hle
  | cons l w ih =>
    simp only [List.cons_append, Fence.bodyLines, List.length_cons] at hle ⊢
    by_cases hend : Fence.endsContainer margin l
    · rw [if_pos hend, if_pos hend]
    · rw [if_neg hend] at hle ⊢
      rw [if_neg hend]
      by_cases hcloses : Fence.closes margin markup l
      · rw [if_pos hcloses, if_pos hcloses]
      · rw [if_neg hcloses] at hle ⊢
        dsimp only [List.length_cons] at hle
        rw [if_neg hcloses, ih (by omega)]

theorem ofLines_local {margin : Fence.Margin} {markup info : Text} (hh : Hides m h h')
    (hle : (Fence.ofLines margin l markup info (w ++ h :: t)).2 ≤ w.length) :
    Fence.ofLines margin l markup info (w ++ h' :: t') =
      Fence.ofLines margin l markup info (w ++ h :: t) := by
  rw [Fence.ofLines, Fence.ofLines, bodyLines_local hh hle]

end Markdown

end Transclude
