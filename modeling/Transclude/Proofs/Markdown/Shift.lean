import Transclude.Proofs.Markdown.Span

/-!
# Lines further down

What a sequence holds does not depend on where in the document it stands. If all its lines
move down, the fences move with them, and nothing else changes: no test of a line looks at
its number.

* `Line.shift`, `Fence.shift`: a line and a fence further down;
* `moves_sequence`: a sequence further down holds the same fences, further down.
-/

namespace Transclude

namespace Markdown

/-- The line with the number `k` higher. -/
def Line.shift (k : Nat) (l : Line) : Line :=
  { l with number := l.number + k }

/-- The fence `k` lines further down. -/
def Fence.shift (k : Nat) (f : Fence) : Fence :=
  { f with start := f.start + k, stop := f.stop + k }

/-- What a sequence holds that is `k` lines further down. -/
def Reading.shift (k : Nat) (r : Reading) : Reading :=
  (r.1.map (Fence.shift k), r.2)

/-- A reader for which it does not matter where in the document it reads. -/
def Moves (read : Place → List Line → Reading) : Prop :=
  ∀ place k ls, read place (ls.map (Line.shift k)) = Reading.shift k (read place ls)

variable {inner inQuote inItem : Place → List Line → Reading} {place : Place} {k : Nat}
  {l : Line} {ls : List Line} {marker : ItemMarker}

/-! ## Blocks that hold no others -/

theorem codeExtent_shift (margin : Fence.Margin) (k : Nat) (ls : List Line) :
    codeExtent margin (ls.map (Line.shift k)) = codeExtent margin ls := by
  induction ls with
  | nil => rfl
  | cons l ls ih =>
    rw [List.map_cons, codeExtent, codeExtent, ih]
    rfl

theorem paragraphExtent_shift (place : Place) (k : Nat) (ls : List Line) :
    paragraphExtent place (ls.map (Line.shift k)) = paragraphExtent place ls := by
  induction ls with
  | nil => rfl
  | cons l ls ih =>
    rw [List.map_cons, paragraphExtent, paragraphExtent, ih]
    rfl

theorem underlinedExtent_shift (place : Place) (k : Nat) (ls : List Line) :
    underlinedExtent place (ls.map (Line.shift k)) = underlinedExtent place ls := by
  induction ls with
  | nil => rfl
  | cons l ls ih =>
    rw [List.map_cons, underlinedExtent, underlinedExtent, ih]
    rfl

theorem definitionLines_shift (place : Place) (k : Nat) (ls : List Line) :
    definitionLines place (ls.map (Line.shift k)) = definitionLines place ls := by
  induction ls with
  | nil => rfl
  | cons l ls ih =>
    rw [List.map_cons, definitionLines, definitionLines, ih]
    rfl

theorem Html.extent_shift (margin : Fence.Margin) (kind : Html.Kind) (k : Nat)
    (ls : List Line) :
    Html.extent margin kind (ls.map (Line.shift k)) = Html.extent margin kind ls := by
  induction ls with
  | nil => rfl
  | cons l ls ih =>
    rw [List.map_cons, Html.extent, Html.extent, ih]
    rfl

theorem leaf_shift (place : Place) (k : Nat) (l : Line) (ls : List Line) :
    leaf place (l.shift k) (ls.map (Line.shift k)) = Reading.shift k (leaf place l ls) := by
  have hshift : leaf place (l.shift k) (ls.map (Line.shift k)) = leaf place l ls := by
    simp only [leaf, definitionExtent, definitionLines_shift, Html.extent_shift,
      underlinedExtent_shift, paragraphExtent_shift]
    rfl
  rw [hshift, Reading.shift, leaf_fst, List.map_nil, ← leaf_fst place l ls]

theorem Fence.bodyLines_shift (margin : Fence.Margin) (markup : Text) (k : Nat)
    (ls : List Line) :
    Fence.bodyLines margin markup (ls.map (Line.shift k)) =
      ((Fence.bodyLines margin markup ls).1.map (Line.shift k),
        (Fence.bodyLines margin markup ls).2) := by
  induction ls with
  | nil => rfl
  | cons l ls ih =>
    have hends : Fence.endsContainer margin (l.shift k) = Fence.endsContainer margin l := rfl
    have hcloses : Fence.closes margin markup (l.shift k) = Fence.closes margin markup l := rfl
    rw [List.map_cons, Fence.bodyLines, Fence.bodyLines, ih, hends, hcloses]
    split
    · rfl
    · split <;> rfl

theorem Fence.ofLines_shift (margin : Fence.Margin) (k : Nat) (l : Line) (markup info : Text)
    (ls : List Line) :
    Fence.ofLines margin (l.shift k) markup info (ls.map (Line.shift k)) =
      ((Fence.ofLines margin l markup info ls).1.shift k,
        (Fence.ofLines margin l markup info ls).2) := by
  rw [Fence.ofLines, Fence.ofLines, Fence.bodyLines_shift]
  have hbody : ∀ lines : List Line, (lines.map (Line.shift k)).map (·.dropColumns l.indent) =
      lines.map (·.dropColumns l.indent) := fun lines => by
    rw [List.map_map]
    rfl
  simp only [Fence.shift, Line.shift, hbody, List.length_map, Prod.mk.injEq, Fence.mk.injEq,
    true_and, and_true]
  omega

/-! ## Containers -/

theorem withoutQuoteMarker_shift (k : Nat) (l : Line) :
    withoutQuoteMarker (l.shift k) = (withoutQuoteMarker l).map (Line.shift k) := by
  have hcontent : (l.shift k).content = l.content := rfl
  simp only [withoutQuoteMarker, hcontent]
  split
  · split
    · rfl
    · by_cases htab : (l.base + (l.indent + 1)) % 4 = 3
      · rw [if_pos (show ((l.shift k).base + ((l.shift k).indent + 1)) % 4 = 3 from htab),
          if_pos htab]
        rfl
      · rw [if_neg (show ¬((l.shift k).base + ((l.shift k).indent + 1)) % 4 = 3 from htab),
          if_neg htab]
        rfl
    · rfl
  · rfl

theorem quotedLines_shift (place : Place) (afterEmpty : Bool) (k : Nat) (ls : List Line) :
    quotedLines place afterEmpty (ls.map (Line.shift k)) =
      (quotedLines place afterEmpty ls).map (Line.shift k) := by
  induction ls generalizing afterEmpty with
  | nil => rfl
  | cons l ls ih =>
    have hcuts : place.cutsOff (l.shift k) = place.cutsOff l := rfl
    have hempty : (l.shift k).isEmpty = l.isEmpty := rfl
    have hindent : (l.shift k).indent = l.indent := rfl
    rw [List.map_cons, quotedLines, quotedLines, withoutQuoteMarker_shift, hcuts, hempty, hindent]
    split
    · rfl
    · by_cases hlt : l.indent < place.margin
      · rw [if_pos hlt, if_pos hlt]
        dsimp only
        rw [ih]
        split <;> rfl
      · rw [if_neg hlt, if_neg hlt]
        cases withoutQuoteMarker l with
        | none =>
          dsimp only [Option.map_none]
          rw [ih]
          split <;> rfl
        | some inner =>
          dsimp only [Option.map_some]
          rw [ih, List.map_cons]
          rfl

theorem quote_shift (hinner : Moves inner) :
    quote inner place (l.shift k) (ls.map (Line.shift k)) =
      Reading.shift k (quote inner place l ls) := by
  cases hfirst : withoutQuoteMarker l with
  | none =>
    rw [quote, quote, withoutQuoteMarker_shift, hfirst]
    rfl
  | some first =>
    have hlines : first.shift k :: quotedLines place (first.shift k).isEmpty
        (ls.map (Line.shift k)) =
        (first :: quotedLines place first.isEmpty ls).map (Line.shift k) := by
      rw [List.map_cons, quotedLines_shift]
      rfl
    have hfirst' : withoutQuoteMarker (l.shift k) = some (first.shift k) := by
      rw [withoutQuoteMarker_shift, hfirst, Option.map_some]
    rw [quote_eq hfirst, quote_eq hfirst', hlines, hinner]
    rfl

theorem itemContent_shift (hinner : Moves inner) :
    itemContent inner place (l.shift k) marker (ls.map (Line.shift k)) =
      Reading.shift k (itemContent inner place l marker ls) := by
  have hstart : itemStart (l.shift k) marker =
      ((itemStart l marker).1.shift k, (itemStart l marker).2) := rfl
  have hhead : (ls.map (Line.shift k)).head?.map Line.isEmpty = ls.head?.map Line.isEmpty := by
    cases ls <;> rfl
  have hempty : ((itemStart l marker).1.shift k).isEmpty = (itemStart l marker).1.isEmpty := rfl
  simp only [itemContent, hstart, hhead, hempty, List.length_map]
  rw [← List.map_cons, hinner]
  split <;> rfl

theorem items_shift (hinner : Moves inner) {l : Line} {marker : ItemMarker} {ls : List Line} :
    items inner place (l.shift k) marker (ls.map (Line.shift k)) =
      Reading.shift k (items inner place l marker ls) := by
  rw [items_eq, items_eq, itemContent_shift hinner]
  have htaken : (Reading.shift k (itemContent inner place l marker ls)).2 =
      (itemContent inner place l marker ls).2 := rfl
  rw [htaken, ← List.map_drop]
  cases hdrop : ls.drop ((itemContent inner place l marker ls).2 - 1) with
  | nil => rfl
  | cons next rest =>
    have hlength := length_of_drop_eq_cons hdrop
    have hnext : nextMarker? place marker (next.shift k) = nextMarker? place marker next := rfl
    rw [List.map_cons]
    dsimp only
    rw [hnext]
    cases nextMarker? place marker next with
    | none => rfl
    | some marker' =>
      dsimp only
      rw [items_shift hinner]
      simp only [Reading.shift, List.map_append]
termination_by ls.length

/-! ## Sequences -/

theorem block_shift (hquote : Moves inQuote) (hitem : Moves inItem) :
    block inQuote inItem place (l.shift k) (ls.map (Line.shift k)) =
      Reading.shift k (block inQuote inItem place l ls) := by
  have hindented : Fence.isIndented place.margin (l.shift k) =
      Fence.isIndented place.margin l := rfl
  have hopening : Fence.opening? place.margin (l.shift k) =
      Fence.opening? place.margin l := rfl
  have hquotes : startsQuote place.margin (l.shift k) = startsQuote place.margin l := rfl
  have hbreak : isThematicBreak place.margin (l.shift k) = isThematicBreak place.margin l := rfl
  have hmarker : place.listMarker? (l.shift k) = place.listMarker? l := rfl
  rw [block, block, hindented, hopening, hquotes, hbreak, hmarker, codeExtent_shift]
  split
  · rfl
  · cases Fence.opening? place.margin l with
    | some found =>
      dsimp only
      rw [Fence.ofLines_shift]
      rfl
    | none =>
      dsimp only
      split
      · exact quote_shift hquote
      · split
        · rfl
        · cases place.listMarker? l with
          | some marker => exact items_shift hitem
          | none => exact leaf_shift place k l ls

theorem moves_blocks (hquote : Moves inQuote) (hitem : Moves inItem) :
    Moves (blocks inQuote inItem) := by
  intro place k ls
  cases ls with
  | nil =>
    rw [List.map_nil, blocks_nil]
    rfl
  | cons l ls =>
    have hempty' : (l.shift k).isEmpty = l.isEmpty := rfl
    have hindent' : (l.shift k).indent = l.indent := rfl
    rw [List.map_cons]
    by_cases hempty : l.isEmpty
    · rw [blocks_of_isEmpty (hempty'.trans hempty), blocks_of_isEmpty hempty,
        moves_blocks hquote hitem place k ls]
      rfl
    · rw [Bool.not_eq_true] at hempty
      by_cases hlt : l.indent < place.margin
      · rw [blocks_of_lt (hempty'.trans hempty) (hindent'.symm ▸ hlt), blocks_of_lt hempty hlt]
        rfl
      · have hle := Int.not_lt.1 hlt
        rw [blocks_of_le (hempty'.trans hempty) (hindent'.symm ▸ hle), blocks_of_le hempty hle,
          block_shift hquote hitem]
        have htaken : (Reading.shift k (block inQuote inItem place l ls)).2 =
            (block inQuote inItem place l ls).2 := rfl
        rw [htaken, ← List.map_drop, moves_blocks hquote hitem place k (ls.drop _)]
        simp only [Reading.shift, List.map_append]
termination_by _ _ ls => ls.length
decreasing_by all_goals simp only [List.length_drop, List.length_cons]; omega

theorem moves_skipped : Moves skipped := by
  intro place k ls
  induction ls with
  | nil => rfl
  | cons l ls ih =>
    rw [List.map_cons, skipped, skipped, ih]
    have hempty : (l.shift k).isEmpty = l.isEmpty := rfl
    have hindent : (l.shift k).indent = l.indent := rfl
    rw [hempty, hindent, List.length_map]
    split
    · rfl
    · split <;> rfl

/-- A sequence further down holds the same fences, further down. -/
theorem moves_sequence (depth : Nat) : Moves (sequence depth) := by
  match depth with
  | 0 => exact moves_skipped
  | 1 => exact moves_blocks moves_skipped moves_skipped
  | depth + 2 => exact moves_blocks (moves_sequence (depth + 1)) (moves_sequence depth)

end Markdown

end Transclude
