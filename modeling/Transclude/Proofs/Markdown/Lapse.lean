import Transclude.Proofs.Markdown.Opening

/-!
# Body lines that lose a blank

If no blank follows a quote marker before the fence, but a blank follows it in a body line,
the marker takes this blank. From there on the body line stands one column short: the fence
takes off one blank too many, or a container around the fence ends before the line because
it stands to the left of the container's margin. Either way the body that is found does not
have this line in its place.

A tab at the start of the body line can make up for it, since a marker takes of a tab only
as much as goes up to the next column.

* `Misses`: the lines after the opening line, one of which loses a blank;
* `Misses.quote`, `Misses.item`: containers do not make up for it;
* `Holds.body_ne`: the body that is found is another one.
-/

namespace Transclude

namespace Markdown

variable {k n i : Nat} {o b p l : Line} {x y r line t markup info : Text} {place : Place}
  {m margin : Int} {marker : ItemMarker} {pre rest ls : List Line} {f : Fence}

/-- The line with a blank in front, as it stood before a quote marker took the blank. -/
def Line.padded (b : Line) : Line :=
  { b with text := ' ' :: b.text, indent := b.indent + 1, base := b.base - 1 }

/-- What comes after the opening line `o`, if the line number `i` of the body is `line`: it is
    still to lose a blank at a quote marker in `x`, or it has lost one and stands one column
    short, or it no longer belongs to the container. -/
inductive Misses (k : Nat) (m : Int) (o : Line) (x line : Text) (i : Nat) : List Line → Prop where
  | still {pre rest : List Line} {b : Line} (hi : pre.length = i) (hb : Carried k o x line b)
      (h : ¬Agrees x line) : Misses k m o x line i (pre ++ b :: rest)
  | short {pre rest : List Line} {b : Line} (hi : pre.length = i)
      (hb : Carried k o x line b.padded) (hmargin : o.indent ≤ m) :
      Misses k m o x line i (pre ++ b :: rest)
  | gone {rest : List Line} (h : ∀ b ∈ rest[i]?, b.isEmpty = false ∧ b.indent < 0) :
      Misses k m o x line i rest

namespace Misses

theorem mono (h : Misses k m o x line i rest) (hle : m ≤ margin) :
    Misses k margin o x line i rest := by
  cases h with
  | still hi hb h => exact .still hi hb h
  | short hi hb hmargin => exact .short hi hb (Int.le_trans hmargin hle)
  | gone h => exact .gone h

/-! ## In the fence -/

/-- Each body line is what is left of a line after the opening line. -/
theorem exists_of_body {L : List Text}
    (hbody : (Fence.ofLines margin o markup info rest).1.body = L) (hline : L[i]? = some line) :
    ∃ b, rest[i]? = some b ∧ Fence.endsContainer margin b = false ∧
      b.dropColumns o.indent = line := by
  have hmap : (Fence.bodyLines margin markup rest).1.map (·.dropColumns o.indent) = L := hbody
  rw [← hmap, List.getElem?_map, Option.map_eq_some_iff] at hline
  obtain ⟨b, hb, hdrop⟩ := hline
  suffices rest[i]? = some b ∧ Fence.endsContainer margin b = false from
    ⟨b, this.1, this.2, hdrop⟩
  clear hbody hmap hdrop
  induction rest generalizing i with
  | nil => cases hb
  | cons l rest ih =>
    rw [Fence.bodyLines] at hb
    split at hb
    · cases hb
    · rename_i hends
      split at hb
      · cases hb
      · cases i with
        | zero => exact ⟨hb, Option.some.inj hb ▸ Bool.eq_false_iff.2 hends⟩
        | succ i => exact ih hb

/-- A line one column short loses its blank to the fence. -/
theorem dropColumns_padded (hb : Carried k o x (' ' :: t) b.padded) (hx : solid x = []) :
    b.dropColumns o.indent = t := by
  rcases hb.shown with ⟨hnil, -⟩ | ⟨-, hbase, z, shift, hz, htext, -, hindent, -⟩
  · rw [hx] at hnil
    exact nomatch hnil
  · rw [hx] at htext
    have hpadded : ' ' :: b.text = z ++ ' ' :: t := htext
    -- The blank at the start of the body line stands at the end of the blanks `w` before it.
    obtain ⟨w, hw, hwtext, hwz⟩ : ∃ w, Blanks w ∧ b.text = w ++ t ∧ ' ' :: w = z ++ [' '] := by
      cases z with
      | nil => exact ⟨[], blanks_nil, (List.cons.inj hpadded).2, rfl⟩
      | cons c z =>
        obtain ⟨rfl, hb⟩ := List.cons.inj hpadded
        refine ⟨z ++ [' '], (blanks_cons.1 hz).2.append (blanks_spaces 1), ?_, rfl⟩
        rw [List.append_assoc, List.singleton_append]
        exact hb
    have hcolumn : contentColumn b.base 0 w = o.indent := by
      have hbase' : b.base = o.base + 1 := by
        have : b.base - 1 = o.base := hbase
        omega
      have hlast : contentColumn o.base 0 (' ' :: w) = o.indent + 1 := by
        rw [hwz, contentColumn_append hz, hindent]
        rfl
      have hfirst : contentColumn o.base 0 (' ' :: w) = contentColumn o.base (1 + 0) w := rfl
      rw [hfirst, contentColumn_add, ← hbase'] at hlast
      omega
    rw [Line.dropColumns, hwtext]
    exact dropColumnsFrom_append hw hcolumn

/-- A line one column short that has no blank to lose stands to the left of the fence. -/
theorem indent_padded {c : Char} (hb : Carried k o x (c :: t) b.padded) (hx : solid x = [])
    (hc : Text.isSpaceOrTab c = false) : b.isEmpty = false ∧ b.indent < o.indent := by
  rcases hb.shown with ⟨hnil, -⟩ | ⟨-, -, z, shift, hz, htext, hshift, -, hindent, -⟩
  · rw [hx] at hnil
    exact nomatch hnil
  · rw [hx] at htext
    have hpadded : b.padded.text = z ++ c :: t := htext
    have hcontent : b.content = c :: t := by
      have : b.padded.content = c :: t := by
        rw [Line.content, hpadded, dropWhile_append hz]
        exact solid_of_head hc
      exact this
    have hcolumn : b.indent + 1 = o.indent := by
      rw [hpadded, contentColumn_append hz, contentColumn_of_not_blank hc, hshift] at hindent
      exact hindent
    exact ⟨isEmpty_of_content hcontent, by omega⟩

/-- The fence does not find a line one column short. -/
theorem dropColumns_padded_ne (hb : Carried k o x line b.padded) (hx : solid x = [])
    (htab : line.head? ≠ some '\t') (hmargin : o.indent ≤ m)
    (hends : Fence.endsContainer m b = false) : b.dropColumns o.indent ≠ line := by
  intro hdrop
  cases line with
  | nil =>
    rcases hb.shown with ⟨-, hnil⟩ | ⟨hne, -⟩
    · exact nomatch hnil
    · exact hne (by rw [hx]; rfl)
  | cons c t =>
    by_cases hspace : c = ' '
    · rw [hspace] at hb hdrop
      rw [dropColumns_padded hb hx] at hdrop
      have := congrArg List.length hdrop
      rw [List.length_cons] at this
      omega
    · have hc : Text.isSpaceOrTab c = false := by
        have hne : c ≠ '\t' := fun h => htab (congrArg some h)
        rw [Text.isSpaceOrTab, decide_eq_false hspace, decide_eq_false hne]
        rfl
      obtain ⟨hempty, hlt⟩ := indent_padded hb hx hc
      have hstays : m ≤ b.indent :=
        (Fence.isEmpty_or_le_of_stays hends).resolve_left (ne_true_of_eq_false hempty)
      omega

/-- The fence does not find the body line. -/
theorem body_ne (hmisses : Misses k m o x line i rest) (hopens : Opens k o x r)
    (htab : line.head? ≠ some '\t') (hnonneg : 0 ≤ m) {found : Text × Text}
    (hopening : Fence.opening? m o = some found) :
    (Fence.ofLines m o markup info rest).1.body[i]? ≠ some line := by
  have hx := hopens.solid_eq_nil hopening
  intro hline
  obtain ⟨b, hb, hends, hdrop⟩ := exists_of_body rfl hline
  cases hmisses with
  | still _ _ h =>
    -- No quote marker is left that could take the blank.
    obtain ⟨y, hy, hxy⟩ := exists_blanks_solid x
    rw [hx, List.append_nil] at hxy
    exact h (agrees_of_not_mem (not_quote_mem_of_blanks (hxy ▸ hy)))
  | short hi hcarried hmargin =>
    rw [← hi, List.getElem?_append_right (Nat.le_refl _), Nat.sub_self] at hb
    obtain rfl := Option.some.inj hb
    exact dropColumns_padded_ne hcarried hx htab hmargin hends hdrop
  | gone h =>
    obtain ⟨hempty, hlt⟩ := h b hb
    have hstays : m ≤ b.indent :=
      (Fence.isEmpty_or_le_of_stays hends).resolve_left (ne_true_of_eq_false hempty)
    omega

/-! ## In a quote -/

/-- Where the body line has a blank and the opening line has none, the blank is a space. -/
theorem exists_carry_eq_cons_space (htab : line.head? ≠ some '\t')
    (hblank : ((carry y line).head?).any Text.isSpaceOrTab)
    (hhead : ¬(y.head?).any Text.isSpaceOrTab) : ∃ s, carry y line = ' ' :: s := by
  cases y with
  | nil =>
    cases line with
    | nil => cases hblank
    | cons c t =>
      have hc : c ≠ '\t' := fun h => htab (congrArg some h)
      have hblank : Text.isSpaceOrTab c := hblank
      rw [Text.isSpaceOrTab, decide_eq_false hc, Bool.or_false, decide_eq_true_eq] at hblank
      exact ⟨t, by rw [hblank]; rfl⟩
  | cons c y =>
    have hne : carry (c :: y) line ≠ [] := fun hnil => by
      rw [hnil] at hblank
      cases hblank
    rw [carry_cons_of_ne_nil hne] at hblank ⊢
    exact ⟨_, congrArg (· :: _) (leadChar_eq_space (Bool.eq_false_iff.2 hhead) hblank)⟩

/-- A quote marker that takes a blank off the body line, but none off the opening line. -/
theorem exists_padded (hb : Carried k o x line b) (hopens : Opens k o x r)
    (hx : solid x = '>' :: y) (htab : line.head? ≠ some '\t')
    (hblank : ((carry y line).head?).any Text.isSpaceOrTab)
    (hhead : ¬(y.head?).any Text.isSpaceOrTab) :
    ∃ p, withoutQuoteMarker b = some p ∧ b.indent = o.indent ∧ (o.intoQuote y r).indent = 0 ∧
      Carried (k - 1) (o.intoQuote y r) (afterMarker o.base (o.indent + 1) y).1 line
        p.padded := by
  obtain ⟨hcontent, hequal, hbbase⟩ := hb.content_quote hx
  have hafter : afterMarker o.base (o.indent + 1) y = (y, o.indent + 1) := afterMarker_of_head hhead
  have hinto : o.intoQuote y r = o.inside (y ++ r, o.indent + 1) := by
    rw [Line.intoQuote, hafter]
  obtain ⟨s, hs⟩ := exists_carry_eq_cons_space htab hblank hhead
  refine ⟨_, withoutQuoteMarker_eq hcontent, hequal, ?_, ?_⟩
  · rw [hinto]
    cases y with
    | nil =>
      obtain ⟨d, u, hd, rfl⟩ := hopens.startsFence
      exact contentColumn_of_not_blank hd.isSpaceOrTab
    | cons c y => exact contentColumn_of_not_blank (Bool.eq_false_iff.2 hhead)
  · have hcolumn (shift : Int) : contentColumn shift 0 (' ' :: s) =
        1 + contentColumn (shift + 1) 0 s := contentColumn_add shift 0 1 s
    refine carried_intoQuote hopens.startsFence hopens.base
      (tabsUpTo_afterMarker _ _ (hx ▸ hopens.tabs.solid).of_quote) hb.isEnded ?_ ?_ ?_
    · rw [hafter, hs]
      rfl
    · rw [hinto, hs, hequal]
      show o.indent + 1 + 1 - 1 = o.indent + 1
      omega
    · rw [hinto, hs, hequal, hbbase]
      show contentColumn (b.base + (o.indent + 1 + 1)) 0 s + 1 =
        contentColumn (o.base + (o.indent + 1)) 0 (' ' :: s)
      rw [hcolumn, hbbase, Int.add_assoc o.base, Int.add_comm 1]

/-- A quote ends before a line, or goes on up to it. -/
theorem quotedLines_at (place : Place) (afterEmpty : Bool) (pre rest : List Line) :
    (quotedLines place afterEmpty (pre ++ rest))[pre.length]? = none ∨
      ∃ afterEmpty', quotedLines place afterEmpty (pre ++ rest) =
        pre.map quoted ++ quotedLines place afterEmpty' rest := by
  by_cases hlt : pre.length < (quotedLines place afterEmpty (pre ++ rest)).length
  · obtain ⟨afterEmpty', hpre⟩ := quotedLines_append_of_lt place afterEmpty pre rest hlt
    exact .inr ⟨afterEmpty', hpre rest⟩
  · exact .inl (List.getElem?_eq_none (Nat.not_lt.1 hlt))

theorem gone_of_none (h : rest[i]? = none) : Misses k m o x line i rest :=
  .gone fun _ hb => nomatch h.symm.trans hb

/-- A line to the left of a quote's container is at most the continuation of a paragraph. -/
theorem gone_of_lt {afterEmpty : Bool} (hi : pre.length = i) (hempty : b.isEmpty = false)
    (hlt : b.indent < place.margin) :
    Misses k m o x line i (quotedLines place afterEmpty (pre ++ b :: rest)) := by
  rcases quotedLines_at place afterEmpty pre (b :: rest) with hnone | ⟨afterEmpty', hlines⟩
  · exact gone_of_none (hi ▸ hnone)
  · rw [hlines]
    refine .gone fun v hv => ?_
    rw [List.getElem?_append_right (by rw [List.length_map]; omega), List.length_map, hi,
      Nat.sub_self, quotedLines, hempty, if_neg Bool.false_ne_true, if_pos hlt] at hv
    dsimp only at hv
    split at hv
    · cases hv
    · rw [← Option.some.inj hv]
      exact ⟨hempty, show (-1 : Int) < 0 by decide⟩

/-- A quote does not give back the blank. -/
theorem quote (hmisses : Misses k place.margin o x line i rest) (hopens : Opens k o x r)
    (htab : line.head? ≠ some '\t') (hmargin : 0 ≤ place.margin) (hle : place.margin ≤ o.indent)
    (hx : solid x = '>' :: y) (afterEmpty : Bool) :
    Misses (k - 1) 0 (o.intoQuote y r) (afterMarker o.base (o.indent + 1) y).1 line i
      (quotedLines place afterEmpty rest) := by
  cases hmisses with
  | @still pre rest b hi hb h =>
    rcases quotedLines_at place afterEmpty pre (b :: rest) with hnone | ⟨afterEmpty', hlines⟩
    · exact gone_of_none (hi ▸ hnone)
    have hi' : (pre.map quoted).length = i := by rw [List.length_map, hi]
    by_cases hhead : ((carry y line).head?).any Text.isSpaceOrTab →
        (y.head?).any Text.isSpaceOrTab
    · obtain ⟨p, hp, hindent, hcarried⟩ :=
        hb.quoted hopens.startsFence hopens.base hopens.tabs.solid hx hhead
      rw [hlines, quotedLines_of_withoutQuoteMarker hp (hindent ▸ hle)]
      refine .still hi' hcarried fun hagrees => h (agrees_solid.1 ?_)
      rw [hx]
      exact ⟨fun _ => hhead, (agrees_afterMarker _ _).1 hagrees⟩
    · -- Here the blank is lost.
      rw [Classical.not_imp] at hhead
      obtain ⟨p, hp, hindent, hzero, hcarried⟩ := exists_padded hb hopens hx htab hhead.1 hhead.2
      rw [hlines, quotedLines_of_withoutQuoteMarker hp (hindent ▸ hle)]
      exact .short hi' hcarried (Int.le_of_eq hzero)
  | @short pre rest b hi hb hm =>
    -- One column short of the opening line is to the left of the margin around this quote.
    obtain ⟨hcontent, hindent, -⟩ := hb.content_quote hx
    have hequal : b.indent + 1 = o.indent := hindent
    have hm : o.indent ≤ place.margin := hm
    exact gone_of_lt hi (isEmpty_of_content (l := b) hcontent) (by omega)
  | gone h =>
    cases hb : rest[i]? with
    | none =>
      have hlength := length_quotedLines_le place afterEmpty rest
      have := List.getElem?_eq_none_iff.1 hb
      exact gone_of_none (List.getElem?_eq_none (by omega))
    | some b =>
      obtain ⟨pre, post, rfl, hi⟩ := exists_append_of_getElem? hb
      obtain ⟨hempty, hlt⟩ := h b hb
      exact gone_of_lt hi hempty (Int.lt_of_lt_of_le hlt hmargin)

/-! ## In a list item -/

/-- A list item does not give back the blank. -/
theorem item (hmisses : Misses k m o x line i rest) (hopens : Opens k o x r) {mark : Text}
    (hmark : ∀ c ∈ mark, IsMark c) (hx : solid x = mark ++ y) (hrest : marker.rest = y ++ r)
    (hwidth : mark.length = marker.width)
    (hindented : Fence.isIndented (itemStart o marker).2 (itemStart o marker).1 = false) :
    Misses k (itemStart o marker).2 (itemStart o marker).1 (solid y) line i rest := by
  have hitem {b : Line} (hb : Carried k o x line b) :=
    hb.item hopens.startsFence hopens.tabs.solid hmark hx hrest hwidth
  cases hmisses with
  | still hi hb h =>
    refine .still hi (hitem hb) fun hagrees => h (agrees_solid.1 ?_)
    rw [hx]
    exact agrees_append_of_not_mem (fun hmem => (hmark _ hmem).ne_quote rfl)
      (agrees_solid.1 hagrees)
  | short hi hb _ =>
    exact .short hi (hitem hb)
      (indent_le_itemStart (hopens.inItem hx hrest).isEmpty hindented)
  | gone h => exact .gone h

end Misses

/-! ## In all containers -/

/-- A fence that opens with the first line is no code there. -/
theorem Holds.isIndented (h : Holds place (l :: ls) f) (hn : Numbered n (l :: ls))
    (hstart : f.start = l.number) : Fence.isIndented place.margin l = false := by
  cases h with
  | fence _ hopening => exact (Fence.opening?_eq_some_iff.1 hopening).1
  | quote _ hindented => exact hindented
  | item _ hindented => exact hindented
  | later h =>
    have := (h.bounds hn.2).1
    have := hn.1
    omega

/-- A fence one of whose body lines loses a blank does not have that line in its body. -/
theorem Holds.body_ne (h : Holds place ls f) {n : Nat} {w : List Line} (hn : Numbered n ls)
    (hls : ls = w ++ o :: rest) (hstart : f.start = o.number) (hmargin : 0 ≤ place.margin)
    (hopens : Opens k o x r) (htab : line.head? ≠ some '\t')
    (hmisses : Misses k place.margin o x line i rest) : f.body[i]? ≠ some line := by
  -- On the way inwards the opening line loses its markers, and the lines after it go on to miss
  -- the body line.
  induction h generalizing n w o rest k x with
  | @fence place l ls markup info _ hopening =>
    cases w with
    | nil =>
      obtain ⟨rfl, rfl⟩ := List.cons.inj hls
      exact hmisses.body_ne hopens htab hmargin hopening
    | cons _ w =>
      obtain ⟨rfl, rfl⟩ := List.cons.inj hls
      have hnumber : l.number = o.number := hstart
      have := (numbered_append.1 hn.2).2.1
      have := hn.1
      omega
  | @quote place l first ls f hle _ hfirst h ih =>
    have hquoted : first :: quotedLines place first.isEmpty ls =
        quotedLines place false (w ++ o :: rest) := by
      rw [← hls, quotedLines_of_withoutQuoteMarker hfirst hle]
    rw [hquoted] at h ih
    rw [hls] at hn
    have hnumbers := hn.quotedLines place false
    obtain ⟨v, hv, hnumber, hindent⟩ := (h.margin_le hnumbers (Int.le_refl _)).1
    obtain ⟨p, hp, hole, afterEmpty, hw⟩ :=
      exists_quotedLines_append hn hv (hnumber.trans hstart) (.inr hindent)
    obtain ⟨y, hx, rfl⟩ := hopens.exists_quote hp
    have hlines : quotedLines place false (w ++ o :: rest) = w.map quoted ++
        o.intoQuote y r :: quotedLines place (o.intoQuote y r).isEmpty rest := by
      rw [hw, quotedLines_of_withoutQuoteMarker hp hole]
    exact ih hnumbers hlines hstart (Int.le_refl _) (hopens.intoQuote hx)
      (hmisses.quote hopens htab hmargin hole hx (o.intoQuote y r).isEmpty)
  | @item place l ls marker f hle hindented hmarker h ih =>
    have hnumbers : Numbered n ((itemStart l marker).1 :: ls) := ⟨hn.1, hn.2⟩
    have hnonneg : (0 : Int) ≤ (itemStart l marker).2 :=
      Int.le_trans hmargin (Int.le_trans hle (le_itemStart l marker))
    cases w with
    | nil =>
      obtain ⟨rfl, rfl⟩ := List.cons.inj hls
      obtain ⟨mark, y, hstarts, hx, hrest, -⟩ := hopens.exists_mark hmarker
      exact ih hnumbers (w := []) rfl hstart hnonneg (hopens.inItem hx hrest)
        (hmisses.item hopens hstarts.isMark hx hrest hstarts.length
          (h.isIndented hnumbers hstart))
    | cons _ w =>
      obtain ⟨rfl, rfl⟩ := List.cons.inj hls
      exact ih hnumbers (w := (itemStart l marker).1 :: w) rfl hstart hnonneg hopens
        (hmisses.mono (Int.le_trans hle (le_itemStart l marker)))
  | @later place l ls f h ih =>
    cases w with
    | nil =>
      obtain ⟨rfl, rfl⟩ := List.cons.inj hls
      have := (h.bounds hn.2).1
      have := hn.1
      omega
    | cons _ w =>
      obtain ⟨rfl, rfl⟩ := List.cons.inj hls
      exact ih hn.2 rfl hstart hmargin hopens hmisses

end Markdown

end Transclude
