import Transclude.Proofs.Markdown.Edit

/-!
# Lists that hold a fence

The item that holds the fence starts before the fence or with its opening line. In either
document it starts with the same marker, and so its content begins at the same column. The
items before it end before the fence does anything, those after it are read from lines that
only moved.

* `Site.Heads`: the lines of both documents with which a list starts;
* `Site.Later`: a fence that comes after some lines more;
* `Site.Correct.replaced_items`: exchanging a fence exchanges what the list holds.
-/

namespace Transclude

namespace Markdown

variable {inner : Place → List Line → Reading} {place : Place} {k n : Nat} {s : Site}
  {e : Exchange} {exact : Prop} {x : Text} {l l' : Line} {ls ls' : List Line}
  {marker marker' : ItemMarker} {r r' : Reading}

/-! ## Where a list starts -/

namespace Site

/-- The opening lines start a list item, and `y` stands between its marker and the fence. -/
structure Marked (s : Site) (e : Exchange) (x : Text) (marker : ItemMarker) (y : Text) : Prop where
  exists_mark : ∃ mark, (∀ c ∈ mark, IsMark c) ∧ mark ≠ [] ∧ solid x = mark ++ y ∧
    mark.length = marker.width
  rest : marker.rest = y ++ (e.markup ++ e.info)
  same : SameItem s.opening s.opening' marker (y ++ (e.markup' ++ e.info))

theorem mem_markup_append (e : Exchange) : e.fence ∈ e.markup ++ e.info :=
  List.mem_append_left _ (List.mem_replicate.2 ⟨by have := e.size_le; omega, rfl⟩)

theorem mem_markup'_append (e : Exchange) : e.fence ∈ e.markup' ++ e.info :=
  List.mem_append_left _ (List.mem_replicate.2 ⟨by have := e.size_le'; omega, rfl⟩)

/-- If the opening line starts a list item, so does what it is exchanged for. -/
theorem Correct.exists_marked (h : s.Correct e exact k x)
    (hmarker : ItemMarker.ofText? s.opening.content = some marker) :
    ∃ y, s.Marked e x marker y := by
  obtain ⟨mark, y, hstarts, hx, hrest, hmap⟩ := h.opens.exists_mark hmarker
  -- A marker needs a blank after it. As a fence does not start with one, the blank is in `y`.
  have hfollow : ItemMarker.canFollow (y ++ (e.markup' ++ e.info)) := by
    have := hstarts.canFollow
    rw [hrest] at this
    cases y with
    | nil =>
      obtain ⟨d, t, hd, ht⟩ := e.startsFence
      rw [List.nil_append, ht, ItemMarker.canFollow, hd.isSpaceOrTab] at this
      cases this
    | cons c y => exact this
  have hcontent' : s.opening'.content = mark ++ (y ++ (e.markup' ++ e.info)) := by
    rw [content_append h.opening.text' e.startsFence', hx, List.append_assoc]
  obtain ⟨hnumber, hbullet⟩ := hmap _ hfollow
  refine ⟨y, ⟨mark, hstarts.isMark, hstarts.ne_nil, hx, hstarts.length⟩, hrest,
    h.opening.indent, hmarker,
    hcontent' ▸ hnumber, hcontent' ▸ hbullet, e.fence, e.isFenceChar, ?_, ?_⟩
  · exact hrest ▸ List.mem_append_right _ (mem_markup_append e)
  · exact List.mem_append_right _ (mem_markup'_append e)

/-- The first lines of a site in both documents, if they start a list item. -/
inductive Heads (s : Site) (e : Exchange) (x : Text) :
    (l l' : Line) → (marker marker' : ItemMarker) → Prop where
  | before {l : Line} {w : List Line} {marker : ItemMarker} (hbefore : s.before = l :: w)
      (hmarker : ItemMarker.ofText? l.content = some marker) : Heads s e x l l marker marker
  | opening {marker : ItemMarker} {y : Text} (hbefore : s.before = [])
      (h : s.Marked e x marker y) :
      Heads s e x s.opening s.opening' marker (marker.withRest (y ++ (e.markup' ++ e.info)))

/-- A line that starts a list item parts the documents. -/
theorem Heads.parts (h : s.Heads e x l l' marker marker') (hnonneg : 0 ≤ l.indent) {m : Int}
    (hle : m ≤ l.indent) (hindented : Fence.isIndented m l = false) :
    Parts m s.before s.opening s.opening' := by
  cases h with
  | before hbefore hmarker =>
    rw [hbefore]
    exact .stop (cuts_of_ofText? hnonneg hle hmarker hindented)
      (withoutQuoteMarker_of_ofText? hmarker)
  | opening hbefore h =>
    rw [hbefore]
    exact .stopHere (h.same.hides hnonneg hle hindented)
      (withoutQuoteMarker_of_ofText? h.same.ofText?)
      (withoutQuoteMarker_of_ofText? h.same.ofText?')

/-- What is left of a document after the fence and some lines more. -/
theorem lines_drop {extra : Nat} (hlines : s.lines = l :: ls) :
    ls.drop (s.before.length + s.old.length + extra) = s.after.drop extra := by
  rw [← List.drop_succ_cons (a := l), ← hlines, lines,
    show s.before.length + s.old.length + extra + 1 =
      s.before.length + (s.old.length + extra + 1) by omega, List.drop_length_add_append,
    List.drop_succ_cons, List.drop_length_add_append]

theorem lines'_drop {extra : Nat} (hlines : s.lines' = l :: ls) :
    ls.drop (s.before.length + s.new.length + extra) = s.after'.drop extra := by
  rw [← List.drop_succ_cons (a := l), ← hlines, lines',
    show s.before.length + s.new.length + extra + 1 =
      s.before.length + (s.new.length + extra + 1) by omega, List.drop_length_add_append,
    List.drop_succ_cons, List.drop_length_add_append]

/-- The lines of an item that starts with the opening line. -/
theorem inItem_lines (h : s.before = []) (o o' : Line) :
    (s.inItem o o').lines = o :: (s.old ++ s.after) ∧
      (s.inItem o o').lines' = o' :: (s.new ++ s.after') := by
  rw [lines, lines', inItem, h]
  exact ⟨rfl, rfl⟩

/-- An item starts with two empty lines in both documents or in none. -/
theorem Correct.isEmpty_head? (h : s.Correct e exact k x) (w : List Line) (rest rest' : List Line) :
    (w ++ s.opening' :: rest').head?.map Line.isEmpty =
      (w ++ s.opening :: rest).head?.map Line.isEmpty := by
  cases w with
  | nil =>
    rw [List.nil_append, List.nil_append, List.head?_cons, List.head?_cons, Option.map_some,
      Option.map_some, h.opening.isEmpty e.startsFence, h.opening.symm.isEmpty e.startsFence']
  | cons => rfl

/-- Where the content of an item begins depends on the marker and on the first line. -/
theorem itemStart_snd_eq (hempty : (itemStart l marker).1.isEmpty = false)
    (hempty' : (itemStart l' marker').1.isEmpty = false)
    (hcolumn : (itemStart l' marker').1.indent = (itemStart l marker).1.indent)
    (hindent : l'.indent = l.indent) (hwidth : marker'.width = marker.width) :
    (itemStart l' marker').2 = (itemStart l marker).2 := by
  rw [isEmpty_itemStart, solid] at hempty hempty'
  rw [itemStart, itemStart] at hcolumn ⊢
  dsimp only at hcolumn ⊢
  rw [hempty, hempty', hcolumn, hindent, hwidth]

theorem itemContent_of_isEmpty (h : (itemStart l marker).1.isEmpty = false) :
    itemContent inner place l marker ls =
      inner { margin := (itemStart l marker).2, outer := some place.margin }
        ((itemStart l marker).1 :: ls) := by
  rw [itemContent]
  dsimp only
  rw [h, Bool.false_and, if_neg Bool.false_ne_true]

/-- The list item that holds the fence. -/
theorem Correct.replaced_itemContent (hinner : Sound inner) (h : s.Correct e exact k x)
    (hn : Numbered n s.lines) (hmargin : 0 ≤ place.margin) (hle : place.margin ≤ l.indent)
    (hheads : s.Heads e x l l' marker marker') (hlines : s.lines = l :: ls)
    (hlines' : s.lines' = l' :: ls') (hfinds : s.Finds e (itemContent inner place l marker ls)) :
    s.Replaced e exact (s.before.length + s.old.length + 1) (s.before.length + s.new.length + 1)
      (itemContent inner place l marker ls) (itemContent inner place l' marker' ls') := by
  have hnonneg : (0 : Int) ≤ (itemStart l marker).2 :=
    Int.le_trans hmargin (Int.le_trans hle (le_itemStart l marker))
  cases hheads with
  | @before _ w _ hbefore hmarker =>
    rw [lines, hbefore, List.cons_append] at hlines
    rw [lines', hbefore, List.cons_append] at hlines'
    obtain rfl := (List.cons.inj hlines).2
    obtain rfl := (List.cons.inj hlines').2
    have hhead := h.isEmpty_head? w (s.old ++ s.after) (s.new ++ s.after')
    rw [itemContent] at hfinds
    rw [itemContent, itemContent, hhead]
    dsimp only at hfinds ⊢
    split
    · rename_i hempty
      rw [if_pos hempty] at hfinds
      obtain ⟨f, hf, -⟩ := hfinds
      exact absurd hf List.not_mem_nil
    · rename_i hempty
      rw [if_neg hempty] at hfinds
      have htail : Numbered n (s.tail ((itemStart l marker).1 :: w)).lines := by
        rw [lines, hbefore] at hn
        exact ⟨hn.1, hn.2⟩
      have := (hinner.edits (h.tail ((itemStart l marker).1 :: w)) hnonneg htail hfinds).2
      rwa [hbefore]
  | @opening _ y hbefore hmarked =>
    -- The marker stands in the opening line, and the fence is exchanged inside the item.
    obtain ⟨⟨mark, hmark, hne, hx, hwidth⟩, hrest, -⟩ := hmarked
    have hitem := h.inItem hmark hne hx hrest (rfl : (marker.withRest _).rest = _) hwidth rfl
    have hempty := hitem.opening.isEmpty e.startsFence
    have hempty' := hitem.opening.symm.isEmpty e.startsFence'
    have hstart := itemStart_snd_eq hempty hempty' hitem.opening.indent h.opening.indent rfl
    rw [itemContent_of_isEmpty hempty] at hfinds
    rw [itemContent_of_isEmpty hempty, itemContent_of_isEmpty hempty', hstart]
    rw [lines, hbefore, List.nil_append] at hlines
    rw [lines', hbefore, List.nil_append] at hlines'
    obtain rfl := (List.cons.inj hlines).2
    obtain rfl := (List.cons.inj hlines').2
    obtain ⟨hinside, hinside'⟩ := inItem_lines hbefore (itemStart s.opening marker).1
      (itemStart s.opening' (marker.withRest (y ++ (e.markup' ++ e.info)))).1
    rw [← hinside] at hfinds
    rw [← hinside, ← hinside']
    refine (hinner.edits (n := n) hitem hnonneg ?_ hfinds).2
    rw [lines, hbefore] at hn
    rw [hinside]
    exact ⟨hn.1, hn.2⟩

/-- A list does not go on with a line that its container does not go on with. -/
theorem nextMarker?_of_stops (h : Stops ls) (hmargin : 0 ≤ place.margin) :
    ∀ next ∈ ls.head?, nextMarker? place marker next = none := by
  intro next hnext
  rw [Markdown.nextMarker?, decide_eq_true (Int.lt_of_lt_of_le (h next hnext).2 hmargin)]
  rfl

theorem items_of_stops {d : Nat} (hmargin : 0 ≤ place.margin)
    (hd : (itemContent inner place l marker ls).2 - 1 = d) (h : Stops (ls.drop d)) :
    items inner place l marker ls = ((itemContent inner place l marker ls).1, d) := by
  rw [items_eq, hd]
  split
  · rfl
  · rename_i next rest hdrop
    rw [nextMarker?_of_stops h hmargin next (by rw [hdrop]; rfl)]

/-- A list goes on after its first item in the same way in both documents, if the lines after the
    item have only moved. -/
theorem exists_items {down down' d d' : Nat} (hinner : Moves inner) (hmargin : 0 ≤ place.margin)
    (hnext : ∀ next, nextMarker? place marker' next = nextMarker? place marker next)
    (hd : (itemContent inner place l marker ls).2 - 1 = d)
    (hd' : (itemContent inner place l' marker' ls').2 - 1 = d')
    (h : Continues down down' (ls.drop d) (ls'.drop d')) : ∃ (fs : List Fence) (taken : Nat),
      items inner place l marker ls =
          ((itemContent inner place l marker ls).1 ++ fs.map (Fence.shift down), d + taken) ∧
        items inner place l' marker' ls' =
          ((itemContent inner place l' marker' ls').1 ++ fs.map (Fence.shift down'), d' + taken) ∧
        (Stops (ls.drop d) → taken = 0) := by
  have hends (found : List Fence) (down n : Nat) :
      (found, n) = (found ++ [].map (Fence.shift down), n + 0) := by
    rw [List.map_nil, List.append_nil, Nat.add_zero]
  generalize hrest : ls.drop d = rest at h ⊢
  generalize hrest' : ls'.drop d' = rest' at h
  cases h with
  | stopped hstops hstops' =>
    rw [items_of_stops hmargin hd (hrest ▸ hstops), items_of_stops hmargin hd' (hrest' ▸ hstops')]
    exact ⟨[], 0, hends .., hends .., fun _ => rfl⟩
  | moved rest =>
    -- The lines are the same, so the next item starts in both or in none.
    rw [items_eq, items_eq, hd, hd', hrest, hrest']
    cases rest with
    | nil => exact ⟨[], 0, hends .., hends .., fun _ => rfl⟩
    | cons next rest =>
      have hshift (down : Nat) : nextMarker? place marker (next.shift down) =
          nextMarker? place marker next := rfl
      rw [List.map_cons, List.map_cons]
      dsimp only
      rw [hnext, hshift, hshift]
      cases hmarker : nextMarker? place marker next with
      | none => exact ⟨[], 0, hends .., hends .., fun _ => rfl⟩
      | some marker₂ =>
        dsimp only
        rw [items_shift hinner, items_shift hinner]
        refine ⟨(items inner place next marker₂ rest).1, 1 + (items inner place next marker₂ rest).2,
          Prod.ext rfl (Nat.add_assoc ..), Prod.ext rfl (Nat.add_assoc ..), fun hstops => ?_⟩
        -- Such a list would go on with a line that no container goes on with.
        have hnone : nextMarker? place marker (next.shift down) = none :=
          nextMarker?_of_stops hstops hmargin _ rfl
        rw [hshift, hmarker] at hnone
        exact nomatch hnone

/-- A list goes on after the item that holds the fence as it did before. -/
theorem Replaced.items (hinner : Sound inner) (hmargin : 0 ≤ place.margin)
    (hcontinues : Continues s.down s.down' s.after s.after')
    (hheads : s.Heads e x l l' marker marker') (hlines : s.lines = l :: ls)
    (hlines' : s.lines' = l' :: ls')
    (h : s.Replaced e exact (s.before.length + s.old.length + 1)
      (s.before.length + s.new.length + 1) (itemContent inner place l marker ls)
      (itemContent inner place l' marker' ls')) :
    s.Replaced e exact (s.before.length + s.old.length) (s.before.length + s.new.length)
      (items inner place l marker ls) (items inner place l' marker' ls') := by
  have hnext (next : Line) : nextMarker? place marker' next = nextMarker? place marker next := by
    cases hheads <;> rfl
  obtain ⟨before, after, extra, f, f', hf, hitem, hitem', hextra⟩ := h
  have htaken : (itemContent inner place l marker ls).2 - 1 =
      s.before.length + s.old.length + extra := by
    rw [hitem]
    dsimp only
    omega
  have htaken' : (itemContent inner place l' marker' ls').2 - 1 =
      s.before.length + s.new.length + extra := by
    rw [hitem']
    dsimp only
    omega
  have hdrop := hcontinues.drop hextra
  rw [← lines_drop hlines, ← lines'_drop hlines'] at hdrop
  obtain ⟨more, taken, hitems, hitems', hstops⟩ :=
    exists_items hinner.moves hmargin hnext htaken htaken' hdrop
  rw [hitems, hitems', hitem, hitem']
  refine hf.replaced_append before after more (extra + taken) (by omega) (by omega) fun hafter => ?_
  have hzero := hextra hafter
  rw [lines_drop hlines, hzero, List.drop_zero] at hstops
  rw [hzero, hstops hafter]

/-- If the one document starts with a list item, so does the other. -/
theorem Correct.exists_heads (h : s.Correct e exact k x) (hlines : s.lines = l :: ls)
    (hmarker : ItemMarker.ofText? l.content = some marker) :
    ∃ l' ls' marker', s.lines' = l' :: ls' ∧ s.Heads e x l l' marker marker' := by
  cases hbefore : s.before with
  | nil =>
    rw [lines, hbefore] at hlines
    obtain rfl := (List.cons.inj hlines).1
    obtain ⟨y, hmarked⟩ := h.exists_marked hmarker
    exact ⟨_, _, _, by rw [lines', hbefore, List.nil_append], .opening hbefore hmarked⟩
  | cons l₀ w =>
    rw [lines, hbefore] at hlines
    obtain rfl := (List.cons.inj hlines).1
    exact ⟨_, _, _, by rw [lines', hbefore, List.cons_append], .before hbefore hmarker⟩

theorem Heads.nextMarker? (h : s.Heads e x l l' marker marker') {before : ItemMarker}
    (hnext : nextMarker? place before l = some marker) :
    Markdown.nextMarker? place before l' = some marker' := by
  cases h with
  | before => exact hnext
  | opening _ h => rw [h.same.nextMarker?, hnext, Option.map_some]

theorem Heads.listMarker? (h : s.Heads e x l l' marker marker')
    (hmarker : place.listMarker? l = some marker) : place.listMarker? l' = some marker' := by
  cases h with
  | before => exact hmarker
  | opening _ h => rw [h.same.listMarker?, hmarker, Option.map_some]

theorem Heads.endsList (h : s.Heads e x l l' marker marker') (hends : place.endsList l = false) :
    place.endsList l' = false := by
  cases h with
  | before => exact hends
  | opening _ h => exact h.same.startsItem'.endsList place

/-- The fence comes after the first line and `d` lines more. -/
structure Later (s : Site) (d : Nat) (l : Line) (w ls ls' : List Line) : Prop where
  before : s.before = l :: w
  le : d ≤ w.length
  lines : ls = w ++ s.opening :: (s.old ++ s.after)
  lines' : ls' = w ++ s.opening' :: (s.new ++ s.after')

theorem exists_later {d : Nat} (hn : Numbered n s.lines) (hlines : s.lines = l :: ls)
    (hlines' : s.lines' = l' :: ls') (hd : n + 1 + d ≤ s.opening.number) :
    ∃ w, s.Later d l w ls ls' := by
  rw [number_opening hn] at hd
  rcases head_cases hlines hlines' with ⟨hbefore, -⟩ | ⟨w, hbefore, hls, -, hls'⟩
  · rw [hbefore, List.length_nil] at hd
    omega
  · rw [hbefore, List.length_cons] at hd
    exact ⟨w, hbefore, by omega, hls, hls'⟩

namespace Later

variable {d : Nat} {w : List Line}

theorem drop (h : s.Later d l w ls ls') : (s.tail (w.drop d)).lines = ls.drop d := by
  rw [h.lines, List.drop_append_of_le_length h.le]
  rfl

theorem drop' (h : s.Later d l w ls ls') : (s.tail (w.drop d)).lines' = ls'.drop d := by
  rw [h.lines', List.drop_append_of_le_length h.le]
  rfl

theorem length_lt (h : s.Later d l w ls ls') :
    (s.tail (w.drop d)).before.length < s.before.length := by
  rw [h.before, tail, List.length_drop, List.length_cons]
  omega

end Later

/-- An item that ends before the fence is the same in both documents. -/
theorem Later.itemContent_eq {w : List Line} (hinner : Sound inner)
    (h : s.Later ((itemContent inner place l marker ls).2 - 1) l w ls ls')
    (hparts : Parts place.margin (w.drop ((itemContent inner place l marker ls).2 - 1))
      s.opening s.opening') (hle : place.margin ≤ l.indent) :
    itemContent inner place l marker ls' = itemContent inner place l marker ls := by
  obtain ⟨d, hd⟩ : ∃ d, (itemContent inner place l marker ls).2 - 1 = d := ⟨_, rfl⟩
  have hsplit (r : List Line) : w ++ r = w.take d ++ (w.drop d ++ r) := by
    rw [← List.append_assoc, List.take_append_drop]
  rw [hd] at h hparts
  rw [h.lines, hsplit] at hd ⊢
  rw [h.lines', hsplit]
  refine itemContent_local hinner.isLocal hparts place.inside_margin hle ?_
  exact Nat.le_of_eq (by rw [hd, List.length_take, Nat.min_eq_left h.le])

/-- What is held from the first line on, if the fence comes after `d` lines more. -/
theorem Replaced.of_later {c d t t' : Nat} {w : List Line} (hlater : s.Later d l w ls ls')
    (h : (s.tail (w.drop d)).Replaced e exact ((w.drop d).length + s.old.length + c)
      ((w.drop d).length + s.new.length + c) r r') (found : List Fence) (ht : t = d + 1 + r.2)
    (ht' : t' = d + 1 + r'.2) :
    s.Replaced e exact (s.before.length + s.old.length + c) (s.before.length + s.new.length + c)
      (found ++ r.1, t) (found ++ r'.1, t') := by
  obtain ⟨before, after, extra, f, f', hf, rfl, rfl, hextra⟩ := h
  have hle := hlater.le
  have hbefore := congrArg List.length hlater.before
  rw [List.length_cons] at hbefore
  rw [List.length_drop] at ht ht'
  dsimp only at ht ht'
  refine ⟨found ++ before, after, extra, f, f', hf, ?_, ?_, hextra⟩ <;>
  · rw [List.append_assoc]
    refine Prod.ext rfl ?_
    dsimp only
    omega

theorem Heads.eq_of_before {w : List Line} (h : s.Heads e x l l' marker marker')
    (hbefore : s.before = l :: w) : l = l' ∧ marker = marker' := by
  cases h with
  | before => exact ⟨rfl, rfl⟩
  | opening hnil => exact nomatch hnil.symm.trans hbefore

/-- The list that holds the fence. -/
theorem Correct.replaced_items (hinner : Sound inner) {n : Nat} {s : Site}
    {l l' : Line} {ls ls' : List Line} {marker marker' : ItemMarker} (h : s.Correct e exact k x)
    (hn : Numbered n s.lines) (hmargin : 0 ≤ place.margin) (hle : place.margin ≤ l.indent)
    (hheads : s.Heads e x l l' marker marker') (hlines : s.lines = l :: ls)
    (hlines' : s.lines' = l' :: ls') (hfinds : s.Finds e (items inner place l marker ls)) :
    s.Replaced e exact (s.before.length + s.old.length) (s.before.length + s.new.length)
      (items inner place l marker ls) (items inner place l' marker' ls') := by
  obtain ⟨f, hf, hstart, hstop⟩ := hfinds
  rcases mem_items hf with hitem | ⟨next, rest, marker₂, hdrop, hnext, hmore⟩
  · exact (h.replaced_itemContent hinner hn hmargin hle hheads hlines hlines'
      ⟨f, hitem, hstart, hstop⟩).items hinner hmargin h.continues hheads hlines hlines'
  · -- The fence is in a later item, and the first one ends before it in both documents.
    have hnumbers : Numbered n (l :: ls) := hlines ▸ hn
    have hrest := hnumbers.2.drop ((itemContent inner place l marker ls).2 - 1)
    rw [hdrop] at hrest
    have hbounds := (ordered_items hinner.keepsOrder hrest).bounds hmore
    obtain ⟨w, hlater⟩ := exists_later hn hlines hlines' (hstart ▸ hbounds.1)
    obtain ⟨rfl, rfl⟩ := hheads.eq_of_before hlater.before
    have htail := hlater.drop.trans hdrop
    obtain ⟨next', rest', marker₃, htail', hheads'⟩ :=
      (h.tail _).exists_heads htail (ofText?_of_nextMarker? hnext)
    have hle' := le_indent_of_nextMarker? hnext
    have hparts := hheads'.parts (Int.le_trans hmargin hle') hle'
      (isIndented_of_nextMarker? hnext)
    have hcontent := hlater.itemContent_eq hinner hparts hle
    have hlt := hlater.length_lt
    have hreplaced := (h.tail _).replaced_items hinner (htail ▸ hrest) hmargin hle' hheads'
      htail htail' ⟨f, hmore, hstart, hstop⟩
    have hdrop' := hlater.drop'.symm.trans htail'
    rw [← hcontent] at hdrop'
    rw [items_eq inner place l marker ls, items_eq inner place l marker ls', hdrop, hdrop']
    dsimp only
    rw [hnext, hheads'.nextMarker? hnext, hcontent]
    exact Replaced.of_later (c := 0) hlater hreplaced _ rfl rfl
termination_by s.before.length

end Site

end Markdown

end Transclude
