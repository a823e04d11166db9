import Transclude.Proofs.Markdown.Container
import Transclude.Proofs.Markdown.Local
import Transclude.Proofs.Markdown.Start
import Transclude.Proofs.Text.Pieces

/-!
# How a document comes to hold a fence

A fence that is found stands in some containers, one inside the other: its opening line is
what the markers of these containers leave of a line of the document, and so are its other
lines. What is true of every fence can thus be proved by going inwards container by
container, with no regard to how the blocks beside these are read.

* `Holds`: the lines of a sequence hold a fence;
* `kind_of_mem_block`: the blocks that hold fences;
* `findsHeld_sequence`: every fence that is found is held;
* `Holds.opening`, `Holds.closing`: the lines of the document that open and close a fence;
* `Holds.body`: those between them.
-/

namespace Transclude

namespace Markdown

/-- The lines hold a fence, as they are read from a place: it opens with the first line, or
    it is held by what a quote or a list item that starts there hands down, or by the lines
    after the first. -/
inductive Holds : Place → List Line → Fence → Prop where
  | fence {place : Place} {l : Line} {ls : List Line} {markup info : Text}
      (hle : place.margin ≤ l.indent)
      (hopening : Fence.opening? place.margin l = some (markup, info)) :
      Holds place (l :: ls) (Fence.ofLines place.margin l markup info ls).1
  | quote {place : Place} {l first : Line} {ls : List Line} {f : Fence}
      (hle : place.margin ≤ l.indent) (hindented : Fence.isIndented place.margin l = false)
      (hfirst : withoutQuoteMarker l = some first)
      (h : Holds { place with margin := 0 } (first :: quotedLines place first.isEmpty ls) f) :
      Holds place (l :: ls) f
  | item {place : Place} {l : Line} {ls : List Line} {marker : ItemMarker} {f : Fence}
      (hle : place.margin ≤ l.indent) (hindented : Fence.isIndented place.margin l = false)
      (hmarker : ItemMarker.ofText? l.content = some marker)
      (h : Holds { margin := (itemStart l marker).2, outer := some place.margin }
        ((itemStart l marker).1 :: ls) f) :
      Holds place (l :: ls) f
  | later {place : Place} {l : Line} {ls : List Line} {f : Fence} (h : Holds place ls f) :
      Holds place (l :: ls) f

variable {inner inQuote inItem : Place → List Line → Reading} {place : Place} {n : Nat}
  {l first : Line} {ls : List Line} {marker : ItemMarker} {f : Fence}

theorem Holds.drop (k : Nat) (h : Holds place (ls.drop k) f) : Holds place ls f := by
  induction k generalizing ls with
  | zero => exact h
  | succ k ih =>
    cases ls with
    | nil => exact h
    | cons l ls => exact .later (ih h)

/-! ## The kinds of blocks that hold fences -/

theorem block_of_opening? {markup info : Text}
    (h : Fence.opening? place.margin l = some (markup, info)) :
    block inQuote inItem place l ls = ([(Fence.ofLines place.margin l markup info ls).1],
      (Fence.ofLines place.margin l markup info ls).2) := by
  rw [block, (Fence.opening?_eq_some_iff.1 h).1, if_neg Bool.false_ne_true, h]

theorem block_of_quote {t : Text} (hcontent : l.content = '>' :: t)
    (hindented : Fence.isIndented place.margin l = false) :
    block inQuote inItem place l ls = quote inQuote place l ls := by
  have hstarts : startsQuote place.margin l := by
    rw [startsQuote, hindented, hcontent]
    rfl
  have hopening : Fence.opening? place.margin l = none := by
    cases hfound : Fence.opening? place.margin l with
    | none => rfl
    | some found =>
      obtain ⟨d, t', hd, hcontent'⟩ := content_ne_nil_of_opening? hfound
      rw [hcontent] at hcontent'
      exact absurd (List.cons.inj hcontent').1.symm hd.ne_quote
  rw [block, hindented, if_neg Bool.false_ne_true, hopening]
  exact if_pos hstarts

theorem isIndented_of_listMarker? (h : place.listMarker? l = some marker) :
    Fence.isIndented place.margin l = false := by
  rw [Place.listMarker?] at h
  have := (Option.ite_none_left_eq_some.1 h).1
  simp only [Bool.or_eq_true, not_or, Bool.not_eq_true] at this
  exact this.1

theorem block_of_listMarker? (hends : place.endsList l = false)
    (h : place.listMarker? l = some marker) :
    block inQuote inItem place l ls = items inItem place l marker ls := by
  rw [Place.endsList, Bool.or_eq_false_iff, Bool.or_eq_false_iff, Option.isSome_eq_false_iff,
    Option.isNone_iff_eq_none] at hends
  rw [block, isIndented_of_listMarker? h, hends.1.1, hends.1.2, hends.2, h]
  rfl

/-- A block that holds a fence is one, or a quote or a list. -/
theorem kind_of_mem_block (h : f ∈ (block inQuote inItem place l ls).1) :
    (∃ found, Fence.opening? place.margin l = some found) ∨
      ((∃ t, l.content = '>' :: t) ∧ Fence.isIndented place.margin l = false) ∨
      (place.endsList l = false ∧ ∃ marker, place.listMarker? l = some marker) := by
  rw [block] at h
  split at h
  · exact absurd h List.not_mem_nil
  · rename_i hindented
    rw [Bool.not_eq_true] at hindented
    split at h
    · rename_i found hopening
      exact .inl ⟨_, hopening⟩
    · rename_i hopening
      split at h
      · rename_i hquote
        rw [startsQuote, hindented, Bool.not_false, Bool.true_and, decide_eq_true_eq,
          List.head?_eq_some_iff] at hquote
        exact .inr (.inl ⟨hquote, hindented⟩)
      · rename_i hquote
        split at h
        · exact absurd h List.not_mem_nil
        · rename_i hbreak
          split at h
          · rename_i marker hmarker
            refine .inr (.inr ⟨?_, marker, hmarker⟩)
            rw [Place.endsList, hopening, Bool.eq_false_iff.2 hquote, Bool.eq_false_iff.2 hbreak]
            rfl
          · rw [leaf_fst] at h
            exact absurd h List.not_mem_nil

/-! ## Every fence that is found is held -/

/-- A reader that finds only fences that the lines hold. -/
def FindsHeld (read : Place → List Line → Reading) : Prop :=
  ∀ place ls, ∀ f ∈ (read place ls).1, Holds place ls f

theorem holds_of_mem_quote (hinner : FindsHeld inner) (hle : place.margin ≤ l.indent)
    (hindented : Fence.isIndented place.margin l = false)
    (hf : f ∈ (quote inner place l ls).1) : Holds place (l :: ls) f := by
  cases hfirst : withoutQuoteMarker l with
  | none =>
    rw [quote, hfirst] at hf
    exact absurd hf List.not_mem_nil
  | some first =>
    rw [quote_eq hfirst] at hf
    exact .quote hle hindented hfirst (hinner _ _ f hf)

theorem holds_of_mem_itemContent (hinner : FindsHeld inner) (hle : place.margin ≤ l.indent)
    (hindented : Fence.isIndented place.margin l = false)
    (hmarker : ItemMarker.ofText? l.content = some marker)
    (hf : f ∈ (itemContent inner place l marker ls).1) : Holds place (l :: ls) f := by
  rw [itemContent] at hf
  dsimp only at hf
  split at hf
  · exact absurd hf List.not_mem_nil
  · exact .item hle hindented hmarker (hinner _ _ f hf)

theorem ofText?_of_nextMarker? {next : Line} {marker marker' : ItemMarker}
    (h : nextMarker? place marker next = some marker') :
    ItemMarker.ofText? next.content = some marker' := by
  rw [nextMarker?] at h
  split at h
  · cases h
  · exact ItemMarker.ofText?_of_continuing? h

theorem ofText?_of_listMarker? (h : place.listMarker? l = some marker) :
    ItemMarker.ofText? l.content = some marker := by
  rw [Place.listMarker?] at h
  exact (Option.ite_none_left_eq_some.1 h).2

theorem isIndented_of_nextMarker? {next : Line} {marker' : ItemMarker}
    (h : nextMarker? place marker next = some marker') :
    Fence.isIndented place.margin next = false := by
  rw [nextMarker?] at h
  split at h
  · cases h
  · rename_i hends
    simp only [Bool.or_eq_true, not_or, Bool.not_eq_true] at hends
    exact hends.1.2

theorem holds_of_mem_items (hinner : FindsHeld inner) {l : Line} {marker : ItemMarker}
    {ls : List Line} (hle : place.margin ≤ l.indent)
    (hindented : Fence.isIndented place.margin l = false)
    (hmarker : ItemMarker.ofText? l.content = some marker)
    (hf : f ∈ (items inner place l marker ls).1) : Holds place (l :: ls) f := by
  rcases mem_items hf with hf | ⟨next, rest, marker', hdrop, hnext, hf⟩
  · exact holds_of_mem_itemContent hinner hle hindented hmarker hf
  · have hlength := length_of_drop_eq_cons hdrop
    refine .later (.drop ((itemContent inner place l marker ls).2 - 1) ?_)
    rw [hdrop]
    exact holds_of_mem_items hinner (le_indent_of_nextMarker? hnext)
      (isIndented_of_nextMarker? hnext) (ofText?_of_nextMarker? hnext) hf
termination_by ls.length

theorem holds_of_mem_block (hquote : FindsHeld inQuote) (hitem : FindsHeld inItem)
    (hle : place.margin ≤ l.indent) (hf : f ∈ (block inQuote inItem place l ls).1) :
    Holds place (l :: ls) f := by
  rcases kind_of_mem_block hf with ⟨found, hopening⟩ | ⟨⟨t, hcontent⟩, hindented⟩ |
    ⟨hends, marker, hmarker⟩
  · rw [block_of_opening? hopening] at hf
    rw [List.mem_singleton.1 hf]
    exact .fence hle hopening
  · rw [block_of_quote hcontent hindented] at hf
    exact holds_of_mem_quote hquote hle hindented hf
  · rw [block_of_listMarker? hends hmarker] at hf
    exact holds_of_mem_items hitem hle (isIndented_of_listMarker? hmarker)
      (ofText?_of_listMarker? hmarker) hf

theorem findsHeld_blocks (hquote : FindsHeld inQuote) (hitem : FindsHeld inItem) :
    FindsHeld (blocks inQuote inItem) := by
  intro place ls f hf
  match ls with
  | [] =>
    rw [blocks_nil] at hf
    exact absurd hf List.not_mem_nil
  | l :: ls =>
    rcases mem_blocks hf with ⟨-, hf⟩ | ⟨-, hle, hf | hf⟩
    · exact .later (findsHeld_blocks hquote hitem place ls f hf)
    · exact holds_of_mem_block hquote hitem hle hf
    · exact .later (.drop _ (findsHeld_blocks hquote hitem place _ f hf))
termination_by _ ls => ls.length
decreasing_by all_goals simp only [List.length_drop, List.length_cons]; omega

theorem findsHeld_skipped : FindsHeld skipped := by
  intro place ls f hf
  rw [skipped_fst] at hf
  exact absurd hf List.not_mem_nil

/-- Every fence that is found is held. -/
theorem findsHeld_sequence (depth : Nat) : FindsHeld (sequence depth) := by
  match depth with
  | 0 => exact findsHeld_skipped
  | 1 => exact findsHeld_blocks findsHeld_skipped findsHeld_skipped
  | depth + 2 =>
    exact findsHeld_blocks (findsHeld_sequence (depth + 1)) (findsHeld_sequence depth)

/-! ## The lines of a fence -/

theorem length_quotedLines_le (place : Place) (afterEmpty : Bool) (ls : List Line) :
    (quotedLines place afterEmpty ls).length ≤ ls.length := by
  induction ls generalizing afterEmpty with
  | nil => exact Nat.le_refl _
  | cons l ls ih =>
    rw [quotedLines]
    split
    · exact Nat.zero_le _
    · split
      · exact Nat.succ_le_succ (ih _)
      · split
        · exact Nat.zero_le _
        · exact Nat.succ_le_succ (ih _)

/-- The lines of a fence are among those that hold it. -/
theorem Holds.bounds (h : Holds place ls f) (hn : Numbered n ls) :
    n ≤ f.start ∧ f.stop ≤ n + ls.length := by
  induction h generalizing n with
  | @fence place l ls markup info _ _ =>
    have hlength := Fence.length_bodyLines_le place.margin markup ls
    rw [Fence.ofLines, List.length_cons]
    dsimp only
    have := hn.1
    omega
  | @quote place l first ls f _ _ hfirst _ ih =>
    have hlines : Numbered n (first :: quotedLines place first.isEmpty ls) :=
      ⟨(number_of_withoutQuoteMarker hfirst).trans hn.1, hn.2.quotedLines _ _⟩
    have hlength := length_quotedLines_le place first.isEmpty ls
    obtain ⟨hstart, hstop⟩ := ih hlines
    rw [List.length_cons] at hstop ⊢
    omega
  | item _ _ _ _ ih => exact ih ⟨hn.1, hn.2⟩
  | later _ ih =>
    obtain ⟨hstart, hstop⟩ := ih hn.2
    rw [List.length_cons]
    omega

/-- A line of a quote is a line of the document without its marker, which stands in the container
    around the quote, or one that goes on with a paragraph and is taken as it is. -/
theorem exists_of_mem_quotedLines {afterEmpty : Bool} {v : Line}
    (h : v ∈ quotedLines place afterEmpty ls) :
    ∃ l ∈ ls, (withoutQuoteMarker l = some v ∧ place.margin ≤ l.indent) ∨
      (¬l.isEmpty ∧ v = { l with indent := -1 }) := by
  induction ls generalizing afterEmpty with
  | nil => exact absurd h List.not_mem_nil
  | cons l ls ih =>
    have hlater {afterEmpty : Bool} (h : v ∈ quotedLines place afterEmpty ls) :
        ∃ l' ∈ l :: ls, (withoutQuoteMarker l' = some v ∧ place.margin ≤ l'.indent) ∨
          (¬l'.isEmpty ∧ v = { l' with indent := -1 }) := by
      obtain ⟨l', hl', hseen⟩ := ih h
      exact ⟨l', List.mem_cons_of_mem _ hl', hseen⟩
    rw [quotedLines] at h
    split at h
    · exact absurd h List.not_mem_nil
    · rename_i hempty
      split at h
      · rename_i first hfirst
        split at hfirst
        · cases hfirst
        · rename_i hlt
          rcases List.mem_cons.1 h with rfl | h
          · exact ⟨l, List.mem_cons_self, .inl ⟨hfirst, Int.not_lt.1 hlt⟩⟩
          · exact hlater h
      · split at h
        · exact absurd h List.not_mem_nil
        · rcases List.mem_cons.1 h with rfl | h
          · exact ⟨l, List.mem_cons_self, .inr ⟨hempty, rfl⟩⟩
          · exact hlater h

/-- What a quote leaves of a line is an end of it. -/
theorem exists_append_of_mem_quotedLines {afterEmpty : Bool} {v : Line}
    (h : v ∈ quotedLines place afterEmpty ls) :
    ∃ l ∈ ls, l.number = v.number ∧
      ∃ x, (∀ c ∈ x, Text.isSpaceOrTab c ∨ c = '>') ∧ l.text = x ++ v.text := by
  obtain ⟨l, hl, ⟨hfirst, -⟩ | ⟨-, rfl⟩⟩ := exists_of_mem_quotedLines h
  · exact ⟨l, hl, (number_of_withoutQuoteMarker hfirst).symm, append_of_withoutQuoteMarker hfirst⟩
  · exact ⟨l, hl, rfl, [], fun _ hc => absurd hc List.not_mem_nil, rfl⟩

/-- A line of a quote that is no mere continuation of a paragraph has a marker, and stands in
    the container around the quote. -/
theorem exists_marked_of_mem_quotedLines {afterEmpty : Bool} {v : Line}
    (h : v ∈ quotedLines place afterEmpty ls) (hv : v.isEmpty ∨ 0 ≤ v.indent) :
    ∃ l ∈ ls, withoutQuoteMarker l = some v ∧ place.margin ≤ l.indent := by
  obtain ⟨l, hl, hmarked | ⟨hempty, rfl⟩⟩ := exists_of_mem_quotedLines h
  · exact ⟨l, hl, hmarked⟩
  · exact absurd (hv.resolve_left hempty) (show ¬(0 : Int) ≤ -1 by decide)

theorem exists_of_mem_quote {afterEmpty : Bool} {v : Line}
    (hfirst : withoutQuoteMarker l = some first)
    (h : v ∈ first :: quotedLines place afterEmpty ls) :
    ∃ l' ∈ l :: ls, l'.number = v.number ∧
      ∃ x, (∀ c ∈ x, Text.isSpaceOrTab c ∨ c = '>') ∧ l'.text = x ++ v.text := by
  rcases List.mem_cons.1 h with rfl | h
  · exact ⟨l, List.mem_cons_self, (number_of_withoutQuoteMarker hfirst).symm,
      append_of_withoutQuoteMarker hfirst⟩
  · obtain ⟨l', hl', hseen⟩ := exists_append_of_mem_quotedLines h
    exact ⟨l', List.mem_cons_of_mem _ hl', hseen⟩

/-- The first line of an item is what is left of a line of the document. -/
theorem append_of_ofText? (h : ItemMarker.ofText? l.content = some marker) :
    ∃ x, (∀ c ∈ x, ¬IsFenceChar c) ∧ l.text = x ++ (itemStart l marker).1.text := by
  obtain ⟨mark, hstarts, -⟩ := ItemMarker.exists_append h
  obtain ⟨d, hd, htext⟩ := l.exists_blanks_append
  have hblanks {t : Text} (ht : Blanks t) : ∀ c ∈ t, ¬IsFenceChar c := fun c hc hfence =>
    hfence.not_mem_of_blanks ht hc
  refine ⟨d ++ mark ++ marker.rest.takeWhile Text.isSpaceOrTab, fun c hc => ?_, ?_⟩
  · rw [List.mem_append, List.mem_append] at hc
    exact hc.elim (fun hc => hc.elim (hblanks hd c) fun hc => (hstarts.isMark c hc).not_isFenceChar)
      (hblanks (blanks_takeWhile _) c)
  · rw [htext, hstarts.eq, itemStart, List.append_assoc, List.append_assoc,
      List.takeWhile_append_dropWhile]

/-- The opening line of a fence. -/
theorem Holds.opening (h : Holds place ls f) :
    (∃ d n, IsFenceChar d ∧ 3 ≤ n ∧ f.markup = List.replicate n d ∧ Fence.IsInfo d f.info) ∧
      ∃ l ∈ ls, l.number = f.start ∧
        ∃ x, (∀ c ∈ x, ¬IsFenceChar c) ∧ l.text = x ++ (f.markup ++ f.info) := by
  induction h with
  | @fence place l ls markup info _ hopening =>
    obtain ⟨-, hcontent, hfence⟩ := Fence.opening?_eq_some_iff.1 hopening
    obtain ⟨d, hd, htext⟩ := l.exists_blanks_append
    exact ⟨hfence, l, List.mem_cons_self, rfl, d,
      fun c hc hfence => hfence.not_mem_of_blanks hd hc, hcontent ▸ htext⟩
  | @quote place l first ls f _ _ hfirst _ ih =>
    obtain ⟨hfence, v, hv, hnumber, x, hx, htext⟩ := ih
    obtain ⟨l', hl', hnumber', y, hy, htext'⟩ := exists_of_mem_quote hfirst hv
    refine ⟨hfence, l', hl', hnumber'.trans hnumber, y ++ x, fun c hc hfence => ?_, ?_⟩
    · exact (List.mem_append.1 hc).elim (hfence.not_mem_of_quotes hy) (hx c · hfence)
    · rw [htext', htext, List.append_assoc]
  | @item place l ls marker f _ _ hmarker _ ih =>
    obtain ⟨hfence, v, hv, hnumber, x, hx, htext⟩ := ih
    rcases List.mem_cons.1 hv with rfl | hv
    · obtain ⟨y, hy, htext'⟩ := append_of_ofText? hmarker
      refine ⟨hfence, l, List.mem_cons_self, hnumber, y ++ x, fun c hc => ?_, ?_⟩
      · exact (List.mem_append.1 hc).elim (hy c) (hx c)
      · rw [htext', htext, List.append_assoc]
    · exact ⟨hfence, v, List.mem_cons_of_mem _ hv, hnumber, x, hx, htext⟩
  | later _ ih =>
    obtain ⟨hfence, v, hv, hseen⟩ := ih
    exact ⟨hfence, v, List.mem_cons_of_mem _ hv, hseen⟩

/-- A closed fence has an opening and a closing line. -/
theorem Holds.start_add_two_le (h : Holds place ls f) (hclosed : f.isClosed) :
    f.start + 2 ≤ f.stop := by
  induction h with
  | @fence place l ls markup info _ _ =>
    rw [Fence.ofLines] at hclosed ⊢
    dsimp only at hclosed ⊢
    rw [if_pos hclosed]
    omega
  | quote _ _ _ _ ih => exact ih hclosed
  | item _ _ _ _ ih => exact ih hclosed
  | later _ ih => exact ih hclosed

/-- What the line that closes a fence shows after the markers of quotes around it: a run of
    the fence character at least as long as the markup, and blanks. -/
def Closing (markup : Text) (t : Text) : Prop :=
  ∃ d n k s, markup = List.replicate n d ∧ n ≤ k ∧ t = List.replicate k d ++ s ∧ Blanks s

theorem exists_append_of_closing {d : Char} {n : Nat} {t : Text} (hn : 0 < n)
    (h : Closing (List.replicate n d) t) :
    ∃ k s, n ≤ k ∧ t = List.replicate k d ++ s ∧ Blanks s := by
  obtain ⟨e, m, k, s, hmarkup, hmk, ht, hs⟩ := h
  have hlength := congrArg List.length hmarkup
  rw [List.length_replicate, List.length_replicate] at hlength
  obtain ⟨n, rfl⟩ : ∃ j, n = j + 1 := ⟨n - 1, by omega⟩
  rw [← hlength, List.replicate_succ, List.replicate_succ] at hmarkup
  rw [← (List.cons.inj hmarkup).1] at ht
  exact ⟨k, s, by omega, ht, hs⟩

/-- The closing line of a closed fence. No marker of a list item stands before it, since
    such an item would have started after the fence did. -/
theorem Holds.closing (h : Holds place ls f) (hn : Numbered n ls) (hclosed : f.isClosed) :
    ∃ l ∈ ls, l.number + 1 = f.stop ∧
      ∃ x t, (∀ c ∈ x, Text.isSpaceOrTab c ∨ c = '>') ∧ l.text = x ++ t ∧
        Closing f.markup t := by
  induction h generalizing n with
  | @fence place l ls markup info _ hopening =>
    obtain ⟨-, -, d, k, hd, hk, rfl, -⟩ := Fence.opening?_eq_some_iff.1 hopening
    have hbody : Fence.bodyLines place.margin (List.replicate k d) ls =
        ((Fence.bodyLines place.margin (List.replicate k d) ls).1, true) :=
      Prod.ext rfl hclosed
    obtain ⟨c, r, hls, -, hcloses⟩ := Fence.exists_closing_of_bodyLines hbody
    obtain ⟨-, j, t, hj, hcontent, ht⟩ := (Fence.closes_iff hd (by omega)).1 hcloses
    obtain ⟨x, hx, htext⟩ := c.exists_blanks_append
    refine ⟨c, List.mem_cons_of_mem _ (hls ▸ List.mem_append_right _ List.mem_cons_self), ?_, x,
      _, fun e he => .inl (hx e he), htext, d, k, j, t, rfl, hj, hcontent, ht⟩
    have hnumbers := hn.2
    rw [hls, numbered_append] at hnumbers
    rw [Fence.ofLines, hbody, hnumbers.2.1, hn.1]
    dsimp only
    rw [if_pos rfl]
    omega
  | @quote place l first ls f _ _ hfirst h ih =>
    have hlines : Numbered n (first :: quotedLines place first.isEmpty ls) :=
      ⟨(number_of_withoutQuoteMarker hfirst).trans hn.1, hn.2.quotedLines _ _⟩
    obtain ⟨v, hv, hnumber, x, t, hx, htext, ht⟩ := ih hlines hclosed
    obtain ⟨l', hl', hnumber', y, hy, htext'⟩ := exists_of_mem_quote hfirst hv
    refine ⟨l', hl', by rw [hnumber', hnumber], y ++ x, t, fun c hc => ?_, ?_, ht⟩
    · exact (List.mem_append.1 hc).elim (hy c) (hx c)
    · rw [htext', htext, List.append_assoc]
  | @item place l ls marker f _ _ _ h ih =>
    have hlines : Numbered n ((itemStart l marker).1 :: ls) := ⟨hn.1, hn.2⟩
    obtain ⟨v, hv, hnumber, hseen⟩ := ih hlines hclosed
    rcases List.mem_cons.1 hv with rfl | hv
    · -- The first line of the item opens no later than the fence, so it does not close it.
      have hstart := (h.bounds hlines).1
      have hstop := h.start_add_two_le hclosed
      have := hlines.1
      omega
    · exact ⟨v, List.mem_cons_of_mem _ hv, hnumber, hseen⟩
  | later _ ih =>
    obtain ⟨v, hv, hseen⟩ := ih hn.2 hclosed
    exact ⟨v, List.mem_cons_of_mem _ hv, hseen⟩

/-- A fence ends after its body and its closing line. -/
theorem Holds.stop_eq (h : Holds place ls f) :
    f.stop = f.start + 1 + f.body.length + if f.isClosed then 1 else 0 := by
  induction h with
  | @fence place l ls markup info _ _ =>
    rw [Fence.ofLines]
    dsimp only
    rw [List.length_map]
    omega
  | quote _ _ _ _ ih => exact ih
  | item _ _ _ _ ih => exact ih
  | later _ ih => exact ih

/-- What is left of a text without the blanks before a column. -/
theorem exists_dropColumnsFrom (shift width column : Int) (t : Text) :
    ∃ d r n, Blanks d ∧ t = d ++ r ∧ dropColumnsFrom shift width column t = Text.spaces n ++ r := by
  induction t generalizing column with
  | nil => exact ⟨[], [], _, blanks_nil, rfl, (List.append_nil _).symm⟩
  | cons c t ih =>
    rw [dropColumnsFrom]
    split
    · rename_i hblank
      obtain ⟨d, r, n, hd, rfl, heq⟩ := ih (nextColumn shift column c)
      exact ⟨c :: d, r, n, blanks_cons.2 ⟨(Bool.and_eq_true .. ▸ hblank).2, hd⟩, rfl, heq⟩
    · exact ⟨[], c :: t, _, blanks_nil, rfl, rfl⟩

/-- A body line of a fence is what is left of a line of the document: the markers of the quotes
    around the fence and blanks go, and spaces may come in their place. -/
def Left (line t : Text) : Prop :=
  ∃ x y n, (∀ c ∈ x, Text.isSpaceOrTab c ∨ c = '>') ∧ t = x ++ y ∧ line = Text.spaces n ++ y

theorem Left.append {x line t : Text} (h : Left line t)
    (hx : ∀ c ∈ x, Text.isSpaceOrTab c ∨ c = '>') : Left line (x ++ t) := by
  obtain ⟨x', y, n, hx', rfl, hline⟩ := h
  exact ⟨x ++ x', y, n, fun c hc => (List.mem_append.1 hc).elim (hx c) (hx' c),
    (List.append_assoc ..).symm, hline⟩

/-- The body lines of a fence. -/
theorem Holds.body (h : Holds place ls f) (hn : Numbered n ls) {j : Nat} {line : Text}
    (hline : f.body[j]? = some line) :
    ∃ l ∈ ls, l.number = f.start + 1 + j ∧ Left line l.text := by
  induction h generalizing n with
  | @fence place l ls markup info _ _ =>
    obtain ⟨r, hls, -⟩ := Fence.exists_append_of_bodyLines place.margin markup ls
    have hbody : ((Fence.bodyLines place.margin markup ls).1.map (·.dropColumns l.indent))[j]? =
        some line := hline
    rw [List.getElem?_map] at hbody
    obtain ⟨b, hb, rfl⟩ := Option.map_eq_some_iff.1 hbody
    obtain ⟨d, rest, k, hd, htext, hdrop⟩ := exists_dropColumnsFrom b.base l.indent 0 b.text
    refine ⟨b, List.mem_cons_of_mem _ (hls ▸ List.mem_append_left r (List.mem_of_getElem? hb)), ?_,
      d, rest, k, fun c hc => .inl (hd c hc), htext, hdrop⟩
    have hnumbers := hn.2
    rw [hls, numbered_append] at hnumbers
    rw [hnumbers.1.of_getElem? hb, ← hn.1]
    rfl
  | @quote place l first ls f _ _ hfirst h ih =>
    have hlines : Numbered n (first :: quotedLines place first.isEmpty ls) :=
      ⟨(number_of_withoutQuoteMarker hfirst).trans hn.1, hn.2.quotedLines _ _⟩
    obtain ⟨v, hv, hnumber, hleft⟩ := ih hlines hline
    obtain ⟨l', hl', hnumber', y, hy, htext'⟩ := exists_of_mem_quote hfirst hv
    exact ⟨l', hl', by rw [hnumber', hnumber], htext' ▸ hleft.append hy⟩
  | @item place l ls marker f _ _ _ h ih =>
    have hlines : Numbered n ((itemStart l marker).1 :: ls) := ⟨hn.1, hn.2⟩
    obtain ⟨v, hv, hnumber, hleft⟩ := ih hlines hline
    rcases List.mem_cons.1 hv with rfl | hv
    · -- The first line of the item opens no later than the fence, so it is none of the body.
      have hstart := (h.bounds hlines).1
      have := hlines.1
      omega
    · exact ⟨v, List.mem_cons_of_mem _ hv, hnumber, hleft⟩
  | later _ ih =>
    obtain ⟨v, hv, hseen⟩ := ih hn.2 hline
    exact ⟨v, List.mem_cons_of_mem _ hv, hseen⟩

/-- A line without some of its blanks is a plain line, if the line is. -/
theorem isLine_dropColumnsFrom {shift width column : Int} {t : Text} (ht : t.IsLine) :
    (dropColumnsFrom shift width column t).IsLine := by
  have hspaces (n : Nat) : (Text.spaces n).IsLine := fun c hc => by
    rw [List.eq_of_mem_replicate hc]
    decide
  induction t generalizing column with
  | nil => exact hspaces _
  | cons c t ih =>
    rw [dropColumnsFrom]
    split
    · exact ih fun e he => ht e (List.mem_cons_of_mem _ he)
    · exact Text.isLine_append.2 ⟨hspaces _, ht⟩

theorem Fence.mem_of_mem_bodyLines {margin : Fence.Margin} {markup : Text} {b : Line}
    (h : b ∈ (Fence.bodyLines margin markup ls).1) : b ∈ ls := by
  induction ls with
  | nil => exact absurd h List.not_mem_nil
  | cons l ls ih =>
    rw [Fence.bodyLines] at h
    split at h
    · exact absurd h List.not_mem_nil
    · split at h
      · exact absurd h List.not_mem_nil
      · rcases List.mem_cons.1 h with rfl | h
        · exact List.mem_cons_self
        · exact List.mem_cons_of_mem _ (ih h)

/-- The body lines of a fence are plain lines. -/
theorem Holds.isLine_body (h : Holds place ls f) (hls : ∀ l ∈ ls, l.text.IsLine) :
    ∀ line ∈ f.body, line.IsLine := by
  induction h with
  | @fence place l ls markup info _ _ =>
    intro line hline
    obtain ⟨b, hb, rfl⟩ := List.mem_map.1 hline
    exact isLine_dropColumnsFrom (hls b (List.mem_cons_of_mem _ (Fence.mem_of_mem_bodyLines hb)))
  | quote _ _ hfirst _ ih =>
    refine ih fun v hv => ?_
    obtain ⟨l', hl', -, x, -, htext⟩ := exists_of_mem_quote hfirst hv
    exact (Text.isLine_append.1 (htext ▸ hls l' hl')).2
  | item _ _ hmarker _ ih =>
    refine ih (List.forall_mem_cons.2 ⟨?_, fun v hv => hls v (List.mem_cons_of_mem _ hv)⟩)
    obtain ⟨x, -, htext⟩ := append_of_ofText? hmarker
    exact (Text.isLine_append.1 (htext ▸ hls _ List.mem_cons_self)).2
  | later _ ih => exact ih fun l hl => hls l (List.mem_cons_of_mem _ hl)

/-! ## The margins of a fence -/

/-- The last line of a fence is the one that closes it, or its last body line, or there is only
    the one that opens it. It does not leave the container. -/
theorem exists_last_ofLines (hn : Numbered n (l :: ls)) (hle : place.margin ≤ l.indent)
    (markup info : Text) : ∃ v ∈ l :: ls,
      v.number + 1 = (Fence.ofLines place.margin l markup info ls).1.stop ∧
        (v.isEmpty ∨ place.margin ≤ v.indent) := by
  have hnumbers := hn.2
  obtain ⟨r, hls, hbody, ⟨hclosed, c, r', rfl, hends, -⟩ | ⟨hopen, -⟩⟩ :=
    Fence.exists_append_of_bodyLines place.margin markup ls
  · rw [hls, numbered_append] at hnumbers
    refine ⟨c, List.mem_cons_of_mem _ (hls ▸ List.mem_append_right _ List.mem_cons_self), ?_,
      Fence.isEmpty_or_le_of_stays hends⟩
    rw [Fence.stop_ofLines, hnumbers.2.1, hn.1, hclosed, if_pos rfl]
    omega
  · rw [Fence.stop_ofLines, hopen, if_neg Bool.false_ne_true, Nat.add_zero]
    generalize (Fence.bodyLines place.margin markup ls).1 = body at hls hbody
    rcases List.eq_nil_or_concat body with rfl | ⟨w, b, rfl⟩
    · exact ⟨l, List.mem_cons_self, rfl, .inr hle⟩
    · rw [List.concat_eq_append] at hls hbody ⊢
      have hb : b ∈ w ++ [b] := List.mem_append_right _ (List.mem_singleton_self b)
      rw [hls, List.append_assoc, List.singleton_append, numbered_append] at hnumbers
      refine ⟨b, List.mem_cons_of_mem _ (hls ▸ List.mem_append_left _ hb), ?_,
        Fence.isEmpty_or_le_of_stays (hbody b hb)⟩
      rw [hnumbers.2.1, hn.1, List.length_append, List.length_singleton]
      omega

/-- The first and the last line of a fence stand in the container of the fence, and so in every
    container around it; an empty line stands in an item wherever it begins. -/
theorem Holds.margin_le (h : Holds place ls f) (hn : Numbered n ls) (hmargin : 0 ≤ place.margin) :
    (∃ v ∈ ls, v.number = f.start ∧ place.margin ≤ v.indent) ∧
      ∃ v ∈ ls, v.number + 1 = f.stop ∧ (v.isEmpty ∨ place.margin ≤ v.indent) := by
  induction h generalizing n with
  | @fence place l ls markup info hle _ =>
    exact ⟨⟨l, List.mem_cons_self, rfl, hle⟩, exists_last_ofLines hn hle markup info⟩
  | @quote place l first ls f hle _ hfirst h ih =>
    have hlines : Numbered n (first :: quotedLines place first.isEmpty ls) :=
      ⟨(number_of_withoutQuoteMarker hfirst).trans hn.1, hn.2.quotedLines _ _⟩
    -- Lines that stand in a container inside the quote have its marker.
    have hseen {v : Line} (hv : v ∈ first :: quotedLines place first.isEmpty ls)
        (hindent : v.isEmpty ∨ 0 ≤ v.indent) : ∃ l' ∈ l :: ls, l'.number = v.number ∧
          place.margin ≤ l'.indent := by
      rcases List.mem_cons.1 hv with rfl | hv
      · exact ⟨l, List.mem_cons_self, (number_of_withoutQuoteMarker hfirst).symm, hle⟩
      · obtain ⟨l', hl', hmarked, hle'⟩ := exists_marked_of_mem_quotedLines hv hindent
        exact ⟨l', List.mem_cons_of_mem _ hl', (number_of_withoutQuoteMarker hmarked).symm, hle'⟩
    obtain ⟨⟨v, hv, hnumber, hindent⟩, u, hu, hlast, huindent⟩ := ih hlines (Int.le_refl _)
    obtain ⟨l', hl', hnumber', hle'⟩ := hseen hv (.inr hindent)
    obtain ⟨u', hu', hlast', hule'⟩ := hseen hu huindent
    exact ⟨⟨l', hl', hnumber'.trans hnumber, hle'⟩, u', hu', by rw [hlast', hlast], .inr hule'⟩
  | @item place l ls marker f hle _ _ _ ih =>
    have hmargin' : place.margin ≤ (itemStart l marker).2 :=
      Int.le_trans hle (le_itemStart l marker)
    obtain ⟨⟨v, hv, hnumber, hindent⟩, u, hu, hlast, huindent⟩ := ih (n := n) ⟨hn.1, hn.2⟩
      (Int.le_trans hmargin hmargin')
    constructor
    · rcases List.mem_cons.1 hv with rfl | hv
      · exact ⟨l, List.mem_cons_self, hnumber, hle⟩
      · exact ⟨v, List.mem_cons_of_mem _ hv, hnumber, Int.le_trans hmargin' hindent⟩
    · rcases List.mem_cons.1 hu with rfl | hu
      · exact ⟨l, List.mem_cons_self, hlast, .inr hle⟩
      · exact ⟨u, List.mem_cons_of_mem _ hu, hlast, huindent.imp_right (Int.le_trans hmargin')⟩
  | later _ ih =>
    obtain ⟨⟨v, hv, hseen⟩, u, hu, hlast⟩ := ih hn.2 hmargin
    exact ⟨⟨v, List.mem_cons_of_mem _ hv, hseen⟩, u, List.mem_cons_of_mem _ hu, hlast⟩

end Markdown

end Transclude
