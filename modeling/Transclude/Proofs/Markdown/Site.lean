import Transclude.Proofs.Lists
import Transclude.Proofs.Markdown.Opening
import Transclude.Proofs.Markdown.Shift

/-!
# Two documents that differ in one fence

Where the body of a fence is replaced, the document keeps the lines before the fence and,
moved up or down, those after it; the opening line and, if there is one, the closing line keep
what stands before their runs of fence characters, which may become longer; and the body lines
are carried by the lead. Going into a quote or a list item, one finds the same picture again.

A fence without a closing line ends with its container, and so does the new one. Behind a
quote that ends like this the lines need not be the same: whether a line without a marker is
still seen in the quote depends on whether the line before it is empty. Either way the line
belongs to no container inside the quote.

* `Exchange`: the new body and the fences around the old and the new one;
* `Continues`: the lines after the old and the new fence;
* `Site`: the lines of both documents;
* `Site.Correct`: how the fence is exchanged there;
* `Site.Correct.exists_quoted`, `Site.Correct.inItem`: the same inside a quote and a list item.
-/

namespace Transclude

namespace Markdown

variable {k n : Nat} {l l' p : Line} {x y r r' : Text} {place : Place}

/-! ## Lines with the same beginning -/

/-- Lines that stand in the same place and begin with the same text. -/
structure Twin (x r r' : Text) (l l' : Line) : Prop where
  text : l.text = x ++ r
  text' : l'.text = x ++ r'
  indent : l'.indent = l.indent
  base : l'.base = l.base

namespace Twin

theorem symm (h : Twin x r r' l l') : Twin x r' r l' l :=
  ⟨h.text', h.text, h.indent.symm, h.base.symm⟩

theorem isEmpty (h : Twin x r r' l l') (hr : StartsFence r) : l.isEmpty = false := by
  obtain ⟨d, t, -, hrd⟩ := id hr
  have hcontent := content_append h.text hr
  cases hx : solid x with
  | nil =>
    rw [hx, hrd] at hcontent
    exact isEmpty_of_content hcontent
  | cons c z =>
    rw [hx] at hcontent
    exact isEmpty_of_content hcontent

/-- A line that starts a quote before the fence has the marker in what stands before it. -/
theorem exists_quote (h : Twin x r r' l l') (hr : StartsFence r)
    (hp : withoutQuoteMarker l = some p) : ∃ y, solid x = '>' :: y := by
  obtain ⟨t, ht⟩ := content_of_withoutQuoteMarker hp
  rw [content_append h.text hr] at ht
  cases hx : solid x with
  | nil =>
    obtain ⟨d, s, hd, hrd⟩ := hr
    rw [hx, hrd] at ht
    exact absurd (List.cons.inj ht).1 hd.ne_quote
  | cons c y =>
    rw [hx] at ht
    exact ⟨y, by rw [(List.cons.inj ht).1]⟩

/-- The lines inside a quote. -/
theorem intoQuote (h : Twin x r r' l l') (hr : StartsFence r) (hr' : StartsFence r') (y : Text) :
    Twin (afterMarker l.base (l.indent + 1) y).1 r r' (l.intoQuote y r) (l'.intoQuote y r') := by
  have hafter : afterMarker l'.base (l'.indent + 1) y = afterMarker l.base (l.indent + 1) y := by
    rw [h.base, h.indent]
  refine ⟨rfl, ?_, ?_, ?_⟩
  · rw [Line.intoQuote, hafter]
    rfl
  · rw [Line.intoQuote, Line.intoQuote, hafter, Line.inside, Line.inside]
    dsimp only
    rw [h.base, contentColumn_append_fence hr hr']
  · rw [Line.intoQuote, Line.intoQuote, hafter]
    rfl

end Twin

/-! ## After the fence -/

/-- No sequence goes on with these lines: there are none, or the first of them only continues a
    paragraph outside. -/
def Stops (ls : List Line) : Prop :=
  ∀ l ∈ ls.head?, l.isEmpty = false ∧ l.indent < 0

/-- How two documents go on after a fence: with the same lines, `down` and `down'` lines further
    down, or not at all in any container around the fence. -/
inductive Continues (down down' : Nat) : List Line → List Line → Prop where
  | moved (ls : List Line) :
      Continues down down' (ls.map (Line.shift down)) (ls.map (Line.shift down'))
  | stopped {ls ls' : List Line} (h : Stops ls) (h' : Stops ls') : Continues down down' ls ls'

theorem stops_nil : Stops [] := nofun

theorem Stops.quotedLines {ls : List Line} (h : Stops ls) (hmargin : 0 ≤ place.margin)
    (afterEmpty : Bool) : Stops (quotedLines place afterEmpty ls) := by
  cases ls with
  | nil => exact stops_nil
  | cons l ls =>
    obtain ⟨hempty, hindent⟩ := h l rfl
    rw [Markdown.quotedLines, hempty, if_neg Bool.false_ne_true,
      if_pos (Int.lt_of_lt_of_le hindent hmargin)]
    dsimp only
    split
    · exact stops_nil
    · intro v hv
      rw [← Option.some.inj hv]
      exact ⟨hempty, show (-1 : Int) < 0 by decide⟩

namespace Continues

variable {down down' : Nat} {ls ls' : List Line}

theorem drop (h : Continues down down' ls ls') {extra : Nat} (hstops : Stops ls → extra = 0) :
    Continues down down' (ls.drop extra) (ls'.drop extra) := by
  cases h with
  | moved ls =>
    rw [← List.map_drop, ← List.map_drop]
    exact .moved _
  | stopped h h' =>
    rw [hstops h]
    exact .stopped h h'

/-- A quote that is open before these lines goes on with them in both documents, or in none. -/
theorem quotedLines (h : Continues down down' ls ls') (hmargin : 0 ≤ place.margin)
    (afterEmpty afterEmpty' : Bool) : Continues down down'
      (Markdown.quotedLines place afterEmpty ls) (Markdown.quotedLines place afterEmpty' ls') := by
  cases h with
  | moved ls =>
    rw [quotedLines_shift, quotedLines_shift]
    cases ls with
    | nil => exact .moved []
    | cons l ls =>
      rw [Markdown.quotedLines, Markdown.quotedLines]
      by_cases hempty : l.isEmpty
      · rw [if_pos hempty, if_pos hempty]
        exact .moved []
      · rw [if_neg hempty, if_neg hempty]
        split
        · exact .moved _
        · -- Without a marker the first line is at most a continuation of a paragraph, in one
          -- document perhaps and not in the other. No sequence in the quote goes on with it.
          have hlazy (afterEmpty : Bool) (down : Nat) : Stops (List.map (Line.shift down)
              (if (afterEmpty || place.cutsOff l) = true then []
                else { l with indent := -1 } :: Markdown.quotedLines place afterEmpty ls)) := by
            split
            · exact stops_nil
            · intro v hv
              rw [← Option.some.inj hv]
              exact ⟨Bool.eq_false_iff.2 hempty, show (-1 : Int) < 0 by decide⟩
          exact .stopped (hlazy afterEmpty down) (hlazy afterEmpty' down')
  | stopped h h' => exact .stopped (h.quotedLines hmargin _) (h'.quotedLines hmargin _)

/-- A fence goes up to the end of its container in both documents. -/
theorem endsContainer (h : Continues down down' ls ls') {margin : Int} (hmargin : 0 ≤ margin)
    (hends : ∀ c ∈ ls.head?, Fence.endsContainer margin c) :
    ∀ c ∈ ls'.head?, Fence.endsContainer margin c := by
  cases h with
  | moved ls =>
    cases ls with
    | nil => exact hends
    | cons l ls =>
      intro c hc
      rw [← Option.some.inj hc]
      exact hends (l.shift down) rfl
  | stopped _ h' =>
    intro c hc
    obtain ⟨hempty, hindent⟩ := h' c hc
    rw [Fence.endsContainer, hempty]
    exact decide_eq_true (Int.lt_of_lt_of_le hindent hmargin)

end Continues

/-! ## Sites -/

/-- A fence, and what it is exchanged for: a new body, and a run of fence characters that
    no body line closes. -/
structure Exchange where
  fence : Char
  isFenceChar : IsFenceChar fence
  /-- The length of the old markup. -/
  size : Nat
  /-- The length of the new markup. -/
  size' : Nat
  size_le : 3 ≤ size
  size_le' : 3 ≤ size'
  info : Text
  isInfo : Fence.IsInfo fence info
  /-- The lines of the new body. -/
  body : List Text
  runs : ∀ line ∈ body, ((solid line).takeWhile (· = fence)).length < size'
  /-- Whether the last line of the fence is kept. It closes the fence, or looks like it. -/
  isClosed : Bool

namespace Exchange

variable (e : Exchange)

/-- The old markup. -/
def markup : Text :=
  List.replicate e.size e.fence

/-- The new markup. -/
def markup' : Text :=
  List.replicate e.size' e.fence

theorem startsFence_replicate {d : Char} {t : Text} (hd : IsFenceChar d) (hn : 0 < n) :
    StartsFence (List.replicate n d ++ t) := by
  obtain ⟨n, rfl⟩ : ∃ k, n = k + 1 := ⟨n - 1, by omega⟩
  exact ⟨d, _, hd, by rw [List.replicate_succ, List.cons_append]⟩

theorem startsFence : StartsFence (e.markup ++ e.info) :=
  startsFence_replicate e.isFenceChar (by have := e.size_le; omega)

theorem startsFence' : StartsFence (e.markup' ++ e.info) :=
  startsFence_replicate e.isFenceChar (by have := e.size_le'; omega)

/-- The last lines of the old and the new fence, which close the one and the other alike. -/
def Closings (c c' : Line) : Prop :=
  ∃ z q q', (∀ c ∈ z, Text.isSpaceOrTab c ∨ c = '>') ∧ StartsFence q ∧ StartsFence q' ∧
    (Closing e.markup q → Closing e.markup' q') ∧ Twin z q q' c c'

/-- The last lines inside a quote. -/
theorem Closings.intoQuote {e : Exchange} {c c' : Line} (h : e.Closings c c')
    (hp : withoutQuoteMarker c = some p) :
    c'.indent = c.indent ∧ ∃ p', withoutQuoteMarker c' = some p' ∧ e.Closings p p' := by
  obtain ⟨z, q, q', hz, hq, hq', hcloses, htwin⟩ := h
  obtain ⟨y, hy⟩ := htwin.exists_quote hq hp
  have hinto := htwin.intoQuote hq hq' y
  rw [withoutQuoteMarker_intoQuote htwin.text hq hy] at hp
  rw [Option.some.inj hp] at hinto
  exact ⟨htwin.indent, _, withoutQuoteMarker_intoQuote htwin.text' hq' hy, _, q, q',
    fun c hc => hz c (Opens.mem_of_mem_afterMarker hy hc), hq, hq', hcloses, hinto⟩

/-- The lines after the opening lines of the old and the new fence: body lines, of which the new
    ones are kept by their containers, and the last lines. -/
inductive Refills (e : Exchange) (exact : Prop) (k : Nat) (o : Line) (x : Text) :
    (isClosed : Bool) → (old new : List Line) → Prop where
  | unclosed {old new : List Line} (hbody : List.Forall₂ (Kept exact k o x) e.body new) :
      Refills e exact k o x false old new
  | closed {old new : List Line} {c c' : Line}
      (hbody : List.Forall₂ (Kept exact k o x) e.body new) (hclosing : e.Closings c c') :
      Refills e exact k o x true (old ++ [c]) (new ++ [c'])

theorem Refills.imp {e : Exchange} {exact : Prop} {k k' : Nat} {o o' : Line} {isClosed : Bool}
    {old new : List Line} (h : e.Refills exact k o x isClosed old new)
    (hbody : ∀ line ∈ e.body, ∀ b, Kept exact k o x line b → Kept exact k' o' y line b) :
    e.Refills exact k' o' y isClosed old new := by
  have himp {new : List Line} (h : List.Forall₂ (Kept exact k o x) e.body new) :
      List.Forall₂ (Kept exact k' o' y) e.body new :=
    ((List.forall₂_and_left ..).2 ⟨fun _ hline => hline, h⟩).imp fun line b hb =>
      hbody line hb.1 b hb.2
  cases h with
  | unclosed h => exact .unclosed (himp h)
  | closed h hclosing => exact .closed (himp h) hclosing

/-- The new body lines fit behind what stands before the fence, or it matters only that they
    stay in their containers. -/
def Suits (exact : Prop) (x : Text) : Prop :=
  (∀ line ∈ e.body, Agrees x line) ∨ ¬exact ∧ Loose x

theorem Suits.of_append {e : Exchange} {exact : Prop} (h : e.Suits exact (y ++ x)) :
    e.Suits exact x :=
  h.imp (fun h line hline => (h line hline).of_append) (And.imp_right Loose.of_append)

theorem Suits.solid {e : Exchange} {exact : Prop} (h : e.Suits exact x) :
    e.Suits exact (solid x) := by
  obtain ⟨y, -, hx⟩ := exists_blanks_solid x
  rw [hx] at h
  exact h.of_append

theorem Suits.afterMarker {e : Exchange} {exact : Prop} (base column : Int)
    (h : e.Suits exact ('>' :: y)) : e.Suits exact (afterMarker base column y).1 := by
  have hy : e.Suits exact y := Suits.of_append (y := ['>']) h
  rcases afterMarker_cases base column y with heq | ⟨c, -, heq⟩
  · rwa [heq]
  · rw [heq] at hy
    exact Suits.of_append (y := [c]) hy

end Exchange

/-- The lines of two documents that differ in one fence only. -/
structure Site where
  /-- The lines before the fence. -/
  before : List Line
  opening : Line
  opening' : Line
  /-- The further lines of the old and the new fence. -/
  old : List Line
  new : List Line
  /-- The lines after the old and the new fence. -/
  after : List Line
  after' : List Line
  /-- By how much the lines after the fence are further down in either document. -/
  down : Nat
  down' : Nat

namespace Site

/-- The lines of the one document. -/
def lines (s : Site) : List Line :=
  s.before ++ s.opening :: (s.old ++ s.after)

/-- The lines of the other document. -/
def lines' (s : Site) : List Line :=
  s.before ++ s.opening' :: (s.new ++ s.after')

/-- Both documents start with their opening lines, or with a line that they share. -/
theorem head_cases {s : Site} {ls ls' : List Line} (hlines : s.lines = l :: ls)
    (hlines' : s.lines' = l' :: ls') :
    (s.before = [] ∧ l = s.opening ∧ ls = s.old ++ s.after ∧ l' = s.opening' ∧
        ls' = s.new ++ s.after') ∨
      ∃ w, s.before = l :: w ∧ ls = w ++ s.opening :: (s.old ++ s.after) ∧ l = l' ∧
        ls' = w ++ s.opening' :: (s.new ++ s.after') := by
  rw [lines] at hlines
  rw [lines'] at hlines'
  cases hbefore : s.before with
  | nil =>
    rw [hbefore] at hlines hlines'
    obtain ⟨rfl, rfl⟩ := List.cons.inj hlines
    obtain ⟨rfl, rfl⟩ := List.cons.inj hlines'
    exact .inl ⟨rfl, rfl, rfl, rfl, rfl⟩
  | cons l₀ w =>
    rw [hbefore] at hlines hlines'
    obtain ⟨rfl, rfl⟩ := List.cons.inj hlines
    obtain ⟨rfl, rfl⟩ := List.cons.inj hlines'
    exact .inr ⟨w, rfl, rfl, rfl, rfl⟩

/-- How the fence is exchanged: `x` stands before it in the opening lines, and tab stops
    matter up to the quote marker number `k` there. If `exact`, the new body is to be found as it
    was written. -/
structure Correct (s : Site) (e : Exchange) (exact : Prop) (k : Nat) (x : Text) : Prop where
  opens : Opens k s.opening x (e.markup ++ e.info)
  opening : Twin x (e.markup ++ e.info) (e.markup' ++ e.info) s.opening s.opening'
  number : s.opening'.number = s.opening.number
  suits : e.Suits exact x
  refills : e.Refills exact k s.opening x e.isClosed s.old s.new
  continues : Continues s.down s.down' s.after s.after'

/-- The site without the first of the lines before the fence. -/
def tail (s : Site) (w : List Line) : Site :=
  { s with before := w }

/-- The site as a list item sees it that starts with the opening line. -/
def inItem (s : Site) (l l' : Line) : Site :=
  { s with opening := l, opening' := l' }

variable {s : Site} {e : Exchange} {exact : Prop}

theorem Correct.tail (h : s.Correct e exact k x) (w : List Line) :
    (s.tail w).Correct e exact k x :=
  ⟨h.opens, h.opening, h.number, h.suits, h.refills, h.continues⟩

/-! ## In a list item -/

/-- What the opening lines show after the marker of a list item. -/
theorem Correct.inItem (h : s.Correct e exact k x) {mark : Text} {marker marker' : ItemMarker}
    (hmark : ∀ c ∈ mark, IsMark c) (hne : mark ≠ []) (hx : solid x = mark ++ y)
    (hrest : marker.rest = y ++ (e.markup ++ e.info))
    (hrest' : marker'.rest = y ++ (e.markup' ++ e.info)) (hwidth : mark.length = marker.width)
    (hwidth' : marker'.width = marker.width) :
    (s.inItem (itemStart s.opening marker).1 (itemStart s.opening' marker').1).Correct e exact k
      (solid y) := by
  have hcolumn : contentColumn s.opening'.base (s.opening'.indent + marker'.width) marker'.rest =
      contentColumn s.opening.base (s.opening.indent + marker.width) marker.rest := by
    rw [hrest, hrest', contentColumn_append_fence e.startsFence e.startsFence', h.opening.base,
      h.opening.indent, hwidth']
  refine ⟨h.opens.inItem hx hrest, ⟨?_, ?_, hcolumn, h.opening.base⟩, h.number, ?_, ?_,
    h.continues⟩
  · show solid marker.rest = _
    rw [hrest, solid_append e.startsFence]
  · show solid marker'.rest = _
    rw [hrest', solid_append e.startsFence']
  · have hsuits := h.suits.solid
    rw [hx] at hsuits
    exact hsuits.of_append.solid
  · exact h.refills.imp fun _ _ _ hb =>
      hb.item e.startsFence h.opens.tabs.solid hmark hne hx hrest hwidth

/-! ## In a quote -/

theorem number_opening (hn : Numbered n s.lines) : s.opening.number = n + s.before.length :=
  (numbered_append.1 hn).2.1

/-- Lines with markers belong to a quote that is open before them. -/
theorem quotedLines_append_of_forall (afterEmpty : Bool) {ls : List Line}
    (h : ∀ b ∈ ls, ∃ p, withoutQuoteMarker b = some p ∧ place.margin ≤ b.indent) :
    ∃ afterEmpty', ∀ rest, quotedLines place afterEmpty (ls ++ rest) =
      ls.map quoted ++ quotedLines place afterEmpty' rest := by
  induction ls generalizing afterEmpty with
  | nil => exact ⟨afterEmpty, fun _ => rfl⟩
  | cons b ls ih =>
    obtain ⟨p, hp, hle⟩ := h b List.mem_cons_self
    obtain ⟨afterEmpty', hrest⟩ := ih p.isEmpty fun b hb => h b (List.mem_cons_of_mem _ hb)
    refine ⟨afterEmpty', fun rest => ?_⟩
    rw [List.cons_append, quotedLines_of_withoutQuoteMarker hp hle, hrest, List.map_cons,
      quoted_eq hp, List.cons_append]

/-- What a quote makes of a site. -/
structure Quotes (place : Place) (afterEmpty : Bool) (s v : Site) : Prop where
  lines : quotedLines place afterEmpty s.lines = v.lines
  lines' : quotedLines place afterEmpty s.lines' = v.lines'
  before : v.before = s.before.map quoted
  opening : withoutQuoteMarker s.opening = some v.opening
  opening' : withoutQuoteMarker s.opening' = some v.opening'
  old : v.old.length = s.old.length
  new : v.new.length = s.new.length
  stops : Stops s.after → Stops v.after
  down : v.down = s.down
  down' : v.down' = s.down'

/-- A body line inside a quote. -/
theorem Correct.kept_intoQuote (h : s.Correct e exact k x) (hx : solid x = '>' :: y) {line : Text}
    (hline : line ∈ e.body) {b : Line} (hb : Kept exact k s.opening x line b) :
    ∃ p, withoutQuoteMarker b = some p ∧ b.indent = s.opening.indent ∧
      Kept exact (k - 1) (s.opening.intoQuote y (e.markup ++ e.info))
        (afterMarker s.opening.base (s.opening.indent + 1) y).1 line p := by
  have hsuits := h.suits.solid
  rw [hx] at hsuits
  exact hb.quoted e.startsFence h.opens.base h.opens.tabs.solid hx
    (hsuits.imp_left fun hagrees => hagrees line hline)

/-- The new lines after the opening line inside a quote that the old ones belong to. -/
theorem Correct.refills_intoQuote (h : s.Correct e exact k x) (hx : solid x = '>' :: y)
    (hle : place.margin ≤ s.opening.indent) (hlast : ∀ c ∈ s.old.getLast?,
      ∃ p, withoutQuoteMarker c = some p ∧ place.margin ≤ c.indent) :
    (∀ b ∈ s.new, ∃ p, withoutQuoteMarker b = some p ∧ place.margin ≤ b.indent) ∧
      e.Refills exact (k - 1) (s.opening.intoQuote y (e.markup ++ e.info))
        (afterMarker s.opening.base (s.opening.indent + 1) y).1 e.isClosed (s.old.map quoted)
        (s.new.map quoted) := by
  have hbody {new : List Line} (hnew : List.Forall₂ (Kept exact k s.opening x) e.body new) :
      (∀ b ∈ new, ∃ p, withoutQuoteMarker b = some p ∧ place.margin ≤ b.indent) ∧
        List.Forall₂ (Kept exact (k - 1) (s.opening.intoQuote y (e.markup ++ e.info))
          (afterMarker s.opening.base (s.opening.indent + 1) y).1) e.body (new.map quoted) := by
    have hinto := ((List.forall₂_and_left ..).2 ⟨fun _ hline => hline, hnew⟩).imp
      fun line b hb => h.kept_intoQuote hx hb.1 hb.2
    refine ⟨fun b hb => ?_, ?_⟩
    · obtain ⟨line, -, p, hp, hindent, -⟩ := exists_of_forall₂ hinto hb
      exact ⟨p, hp, hindent ▸ hle⟩
    · rw [List.forall₂_map_right_iff]
      refine hinto.imp fun line b ⟨p, hp, _, hkept⟩ => ?_
      rwa [quoted_eq hp]
  have hrefills := h.refills
  generalize e.isClosed = isClosed at hrefills ⊢
  generalize s.old = old at hrefills hlast ⊢
  generalize s.new = new at hrefills ⊢
  cases hrefills with
  | unclosed hnew => exact ⟨(hbody hnew).1, .unclosed (hbody hnew).2⟩
  | @closed old new c c' hnew hclosing =>
    obtain ⟨p, hp, hcle⟩ := hlast c List.getLast?_concat
    obtain ⟨hindent, p', hp', hclosing'⟩ := hclosing.intoQuote hp
    rw [List.map_append, List.map_append, List.map_singleton, List.map_singleton, quoted_eq hp,
      quoted_eq hp']
    refine ⟨?_, .closed (hbody hnew).2 hclosing'⟩
    rw [List.forall_mem_append, List.forall_mem_singleton]
    exact ⟨(hbody hnew).1, p', hp', hindent ▸ hcle⟩

/-- The old lines inside a quote that holds the fence: all of the fence belongs to the quote. -/
theorem exists_quotedLines_lines (hn : Numbered n s.lines) {afterEmpty : Bool} {f : Fence}
    (hf : Holds { place with margin := 0 } (quotedLines place afterEmpty s.lines) f)
    (hstart : f.start = s.opening.number) (hstop : f.stop = s.opening.number + 1 + s.old.length) :
    (∃ o, withoutQuoteMarker s.opening = some o ∧ place.margin ≤ s.opening.indent) ∧
      (∃ afterBefore, ∀ rest, quotedLines place afterEmpty (s.before ++ rest) =
        s.before.map quoted ++ quotedLines place afterBefore rest) ∧
      (∀ c ∈ s.old.getLast?, ∃ p, withoutQuoteMarker c = some p ∧ place.margin ≤ c.indent) ∧
      ∃ afterOld, quotedLines place afterEmpty s.lines = s.before.map quoted ++
        quoted s.opening :: (s.old.map quoted ++ quotedLines place afterOld s.after) := by
  obtain ⟨⟨u, hu, hun, huindent⟩, w, hw, hwn, hwindent⟩ :=
    hf.margin_le (hn.quotedLines _ _) (Int.le_refl _)
  -- The quote goes on up to the opening line, and then up to the last line of the fence.
  obtain ⟨o, ho, hole, afterBefore, hbefore⟩ :=
    exists_quotedLines_append hn hu (hun.trans hstart) (.inr huindent)
  obtain ⟨pre, c, hpre⟩ : ∃ pre c, s.opening :: s.old = pre ++ [c] :=
    ⟨_, _, (List.dropLast_append_getLast (List.cons_ne_nil s.opening s.old)).symm⟩
  have hsplit : s.lines = (s.before ++ pre) ++ c :: s.after := by
    rw [lines, ← List.cons_append, hpre, List.append_assoc, List.append_assoc]
    rfl
  have hlength : s.old.length = pre.length := by
    have := congrArg List.length hpre
    rw [List.length_cons, List.length_append, List.length_singleton] at this
    exact Nat.succ.inj this
  have hopening := number_opening hn
  rw [hsplit] at hn hw
  have hc := (numbered_append.1 hn).2.1
  rw [List.length_append] at hc
  obtain ⟨p, hp, hple, afterPre, hall⟩ :=
    exists_quotedLines_append hn hw (by omega) hwindent
  refine ⟨⟨o, ho, hole⟩, ⟨afterBefore, hbefore⟩, fun d hd => ?_, p.isEmpty, ?_⟩
  · have hlast : (s.opening :: s.old).getLast? = some d := by
      rw [List.getLast?_cons, hd]
      rfl
    rw [hpre, List.getLast?_concat] at hlast
    rw [← Option.some.inj hlast]
    exact ⟨p, hp, hple⟩
  · have hmap : s.before.map quoted ++ quoted s.opening :: (s.old.map quoted ++
        quotedLines place p.isEmpty s.after) = (s.before ++ pre).map quoted ++
          quoted c :: quotedLines place p.isEmpty s.after := by
      rw [← List.cons_append, ← List.map_cons, hpre, List.map_append, List.map_append,
        List.append_assoc, List.append_assoc]
      rfl
    rw [hsplit, hall, quotedLines_of_withoutQuoteMarker hp hple, hmap, quoted_eq hp]

/-- A quote that holds the fence shows the same picture again. -/
theorem Correct.exists_quoted (h : s.Correct e exact k x) (hn : Numbered n s.lines)
    (hmargin : 0 ≤ place.margin) {afterEmpty : Bool} {f : Fence}
    (hf : Holds { place with margin := 0 } (quotedLines place afterEmpty s.lines) f)
    (hstart : f.start = s.opening.number) (hstop : f.stop = s.opening.number + 1 + s.old.length) :
    ∃ v x', v.Correct e exact (k - 1) x' ∧ Quotes place afterEmpty s v := by
  obtain ⟨⟨o, ho, hole⟩, ⟨afterBefore, hbefore⟩, hlast, afterOld, hlines⟩ :=
    exists_quotedLines_lines hn hf hstart hstop
  obtain ⟨y, hy, rfl⟩ := h.opens.exists_quote ho
  -- In the other document the quote goes on as well: the new lines have its marker.
  obtain ⟨hmarkers, hrefills⟩ := h.refills_intoQuote hy hole hlast
  have hopening' := withoutQuoteMarker_intoQuote h.opening.text' e.startsFence' hy
  obtain ⟨afterNew, hnew⟩ := quotedLines_append_of_forall
    (s.opening'.intoQuote y (e.markup' ++ e.info)).isEmpty hmarkers
  refine ⟨⟨s.before.map quoted, s.opening.intoQuote y (e.markup ++ e.info),
    s.opening'.intoQuote y (e.markup' ++ e.info), s.old.map quoted, s.new.map quoted,
    quotedLines place afterOld s.after, quotedLines place afterNew s.after', s.down, s.down'⟩, _,
    ⟨h.opens.intoQuote hy, h.opening.intoQuote e.startsFence e.startsFence' y, h.number, ?_,
      hrefills, h.continues.quotedLines hmargin _ _⟩,
    ⟨?_, ?_, rfl, ho, hopening', List.length_map _, List.length_map _,
      fun hstops => hstops.quotedLines hmargin _, rfl, rfl⟩⟩
  · have hsuits := h.suits.solid
    rw [hy] at hsuits
    exact hsuits.afterMarker _ _
  · rw [hlines, quoted_eq ho]
    rfl
  · rw [lines', lines', hbefore,
      quotedLines_of_withoutQuoteMarker hopening' (h.opening.indent ▸ hole), hnew]

end Site

end Markdown

end Transclude
