import Transclude.Proofs.Markdown.Body
import Transclude.Proofs.Markdown.Nesting
import Transclude.Proofs.Markdown.Start

/-!
# The opening line in its containers

What stands before a fence in its opening line are the markers of the containers that start
there, and of the quotes that go on. Each container takes its marker off, and what is left
is again an opening line, with less before the fence.

* `Opens`: an opening line, with what stands before the fence;
* `Opens.intoQuote`, `Opens.inItem`: the opening line inside a quote and a list item;
* `exists_quotedLines_append`: the quote in which a line stands goes on up to that line.
-/

namespace Transclude

namespace Markdown

variable {k n : Nat} {o p : Line} {x y r : Text} {place : Place} {marker : ItemMarker}

/-- In the line `o` the text `x` stands before the fence that `r` begins with, and tab stops
    matter up to the quote marker number `k` in it. -/
structure Opens (k : Nat) (o : Line) (x r : Text) : Prop where
  text : o.text = x ++ r
  startsFence : StartsFence r
  lead : ∀ c ∈ x, ¬IsFenceChar c
  le_two : k ≤ 2
  base : 1 < k → o.base = 0
  tabs : TabsUpTo k x

namespace Opens

theorem content (h : Opens k o x r) : o.content = solid x ++ r :=
  content_append h.text h.startsFence

theorem isEmpty (h : Opens k o x r) : o.isEmpty = false := by
  obtain ⟨d, t, -, hr⟩ := h.startsFence
  rw [Line.isEmpty, h.content, hr, List.isEmpty_eq_false_iff]
  exact List.append_ne_nil_of_right_ne_nil _ (List.cons_ne_nil d t)

/-- Where the line opens the fence, nothing but blanks stands before it. -/
theorem solid_eq_nil (h : Opens k o x r) {margin : Fence.Margin} {found : Text × Text}
    (hopening : Fence.opening? margin o = some found) : solid x = [] := by
  obtain ⟨d, t, hd, hcontent⟩ := content_ne_nil_of_opening? hopening
  rw [h.content] at hcontent
  cases hx : solid x with
  | nil => rfl
  | cons c z =>
    rw [hx] at hcontent
    have hc : c ∈ x := (List.dropWhile_suffix _).mem (hx ▸ List.mem_cons_self : c ∈ solid x)
    exact absurd ((List.cons.inj hcontent).1 ▸ hd) (h.lead c hc)

/-! ## Quotes -/

/-- A line that starts a quote before the fence has the marker in what stands before it. -/
theorem exists_quote (h : Opens k o x r) (hp : withoutQuoteMarker o = some p) :
    ∃ y, solid x = '>' :: y ∧ p = o.intoQuote y r := by
  obtain ⟨t, ht⟩ := content_of_withoutQuoteMarker hp
  rw [h.content] at ht
  cases hx : solid x with
  | nil =>
    obtain ⟨d, s, hd, hrd⟩ := h.startsFence
    rw [hx, hrd] at ht
    exact absurd (List.cons.inj ht).1 hd.ne_quote
  | cons c y =>
    rw [hx] at ht
    obtain rfl := (List.cons.inj ht).1
    have hinto := withoutQuoteMarker_intoQuote h.text h.startsFence hx
    exact ⟨y, rfl, Option.some.inj (hp.symm.trans hinto)⟩

/-- What stands before the fence inside a quote is a part of what stands before it. -/
theorem mem_of_mem_afterMarker {base column : Int} {c : Char} (hx : solid x = '>' :: y)
    (hc : c ∈ (afterMarker base column y).1) : c ∈ x := by
  have hmem : c ∈ y := by
    rcases afterMarker_cases base column y with heq | ⟨d, -, heq⟩
    · rwa [heq] at hc
    · rw [heq]
      exact List.mem_cons_of_mem _ hc
  refine (List.dropWhile_suffix Text.isSpaceOrTab).mem (?_ : c ∈ solid x)
  rw [hx]
  exact List.mem_cons_of_mem _ hmem

/-- The opening line inside a quote. -/
theorem intoQuote (h : Opens k o x r) (hx : solid x = '>' :: y) :
    Opens (k - 1) (o.intoQuote y r) (afterMarker o.base (o.indent + 1) y).1 r := by
  have := h.le_two
  refine ⟨rfl, h.startsFence, fun c hc => h.lead c (mem_of_mem_afterMarker hx hc), by omega,
    fun hk => by omega, ?_⟩
  exact tabsUpTo_afterMarker _ _ (hx ▸ h.tabs.solid).of_quote

/-! ## List items -/

/-- The marker of a list item that starts before the fence ends there. -/
theorem exists_mark (h : Opens k o x r) (hmarker : ItemMarker.ofText? o.content = some marker) :
    ∃ mark y, marker.Starts mark o.content ∧ solid x = mark ++ y ∧ marker.rest = y ++ r ∧
      ∀ rest, ItemMarker.canFollow rest →
        ItemMarker.number? (mark ++ rest) =
            (ItemMarker.number? o.content).map (·.withRest rest) ∧
          ItemMarker.bullet? (mark ++ rest) =
            (ItemMarker.bullet? o.content).map (·.withRest rest) := by
  obtain ⟨mark, hstarts, hmap⟩ := ItemMarker.exists_append hmarker
  have heq : solid x ++ r = mark ++ marker.rest := h.content.symm.trans hstarts.eq
  rcases List.append_eq_append_iff.1 heq with ⟨y, hmark, hfence⟩ | ⟨y, hx, hrest⟩
  · cases y with
    | nil =>
      rw [List.append_nil] at hmark
      exact ⟨mark, [], hstarts, by rw [hmark, List.append_nil], hfence.symm, hmap⟩
    | cons c y =>
      -- The marker would hold a fence character.
      obtain ⟨d, t, hd, ht⟩ := h.startsFence
      rw [ht, List.cons_append] at hfence
      have hc : c ∈ mark := hmark ▸ List.mem_append_right _ List.mem_cons_self
      exact absurd ((List.cons.inj hfence).1 ▸ hd) (hstarts.isMark c hc).not_isFenceChar
  · exact ⟨mark, y, hstarts, hx, hrest, hmap⟩

/-- The opening line inside a list item that starts with it. -/
theorem inItem (h : Opens k o x r) {mark : Text} (hx : solid x = mark ++ y)
    (hrest : marker.rest = y ++ r) : Opens k (itemStart o marker).1 (solid y) r := by
  refine ⟨?_, h.startsFence, fun c hc => ?_, h.le_two, h.base, ?_⟩
  · show solid marker.rest = _
    rw [hrest, solid_append h.startsFence]
  · refine h.lead c ((List.dropWhile_suffix Text.isSpaceOrTab).mem (?_ : c ∈ solid x))
    rw [hx]
    exact List.mem_append_right _ ((List.dropWhile_suffix _).mem hc)
  · exact (hx ▸ h.tabs.solid).of_append.solid

end Opens

theorem isEmpty_itemStart (l : Line) (marker : ItemMarker) :
    (itemStart l marker).1.isEmpty = (solid marker.rest).isEmpty :=
  congrArg List.isEmpty (solid_solid marker.rest)

/-- Content that is not code starts where the content of the item does. -/
theorem indent_le_itemStart {l : Line} (hempty : (itemStart l marker).1.isEmpty = false)
    (hindented : Fence.isIndented (itemStart l marker).2 (itemStart l marker).1 = false) :
    (itemStart l marker).1.indent ≤ (itemStart l marker).2 := by
  rw [isEmpty_itemStart, solid] at hempty
  rw [Fence.isIndented, decide_eq_false_iff_not, itemStart] at hindented
  rw [itemStart]
  dsimp only at hindented ⊢
  rw [hempty, Bool.false_or] at hindented ⊢
  split at hindented
  · rename_i hfar
    have := of_decide_eq_true hfar
    omega
  · rename_i hnear
    rw [if_neg hnear]
    omega

/-! ## The quote in which a line stands -/

theorem exists_append_of_le {α : Type} {ls : List α} {i : Nat} (h : i ≤ ls.length) :
    ∃ u v, ls = u ++ v ∧ u.length = i :=
  ⟨ls.take i, ls.drop i, (List.take_append_drop i ls).symm, List.length_take_of_le h⟩

theorem exists_append_of_getElem? {α : Type} {ls : List α} {a : α} {i : Nat}
    (h : ls[i]? = some a) : ∃ u v, ls = u ++ a :: v ∧ u.length = i := by
  obtain ⟨hi, ha⟩ := List.getElem?_eq_some_iff.1 h
  refine ⟨ls.take i, ls.drop (i + 1), ?_, List.length_take_of_le (Nat.le_of_lt hi)⟩
  rw [← ha, ← List.drop_eq_getElem_cons hi, List.take_append_drop]

/-- Lines of which not all belong to a quote end it. -/
theorem quotedLines_append_of_lt (place : Place) (afterEmpty : Bool) (ls rest : List Line)
    (h : ls.length < (quotedLines place afterEmpty (ls ++ rest)).length) :
    ∃ afterEmpty', ∀ rest, quotedLines place afterEmpty (ls ++ rest) =
      ls.map quoted ++ quotedLines place afterEmpty' rest := by
  rcases quotedLines_append place afterEmpty ls with ⟨seen, hseen⟩ | hall
  · have hle := length_quotedLines_le place afterEmpty (ls ++ [])
    rw [hseen] at h hle
    rw [List.append_nil] at hle
    omega
  · exact hall

/-- A quote that a line stands in goes on up to that line. -/
theorem exists_quotedLines_append {pre rest : List Line} {afterEmpty : Bool} {l v : Line}
    (hn : Numbered n (pre ++ l :: rest))
    (hv : v ∈ quotedLines place afterEmpty (pre ++ l :: rest)) (hnumber : v.number = l.number)
    (hindent : v.isEmpty ∨ 0 ≤ v.indent) :
    ∃ p, withoutQuoteMarker l = some p ∧ place.margin ≤ l.indent ∧
      ∃ afterEmpty', ∀ rest, quotedLines place afterEmpty (pre ++ rest) =
        pre.map quoted ++ quotedLines place afterEmpty' rest := by
  obtain ⟨l', hl', hmarked, hle⟩ := exists_marked_of_mem_quotedLines hv hindent
  obtain rfl := hn.eq_of_number_eq hl' ((number_of_withoutQuoteMarker hmarked).symm.trans hnumber)
  have hl := (numbered_append.1 hn).2.1
  have hbounds := ((hn.quotedLines place afterEmpty).bounds hv).2
  obtain ⟨afterEmpty', hpre⟩ := quotedLines_append_of_lt place afterEmpty pre (l' :: rest)
    (by omega)
  exact ⟨v, hmarked, hle, afterEmpty', hpre⟩

end Markdown

end Transclude
