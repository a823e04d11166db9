import Transclude.Proofs.Markdown.Carry
import Transclude.Proofs.Markdown.Local

/-!
# Body lines as containers leave them

While the opening line of a fence goes through the containers around it, each of them takes
its marker off, and from a body line it takes as many columns. What is left of the body line
is, after blanks that reach up to the content of the opening line, the part of the lead that
belongs to the containers still to come, and the line itself.

A quote marker right before the fence may take a blank off a body line and none off the opening
line. The body line is then worn, but no container is to come that could miss the blank.

* `Carried`: a body line as the containers so far have left it;
* `Carried.quoted`, `Carried.item`: a further quote and a further list item;
* `Carried.dropColumns`: the fence takes off the rest, which leaves the line;
* `Worn`, `Kept`: a body line that stays in its containers at least.
-/

namespace Transclude

namespace Markdown

variable {k n : Nat} {o b : Line} {x y r line mark : Text} {d : Char} {marker : ItemMarker}

/-- The text from its first character on that is no blank. -/
def solid (x : Text) : Text :=
  x.dropWhile Text.isSpaceOrTab

theorem exists_blanks_solid (x : Text) : ∃ y, Blanks y ∧ x = y ++ solid x :=
  ⟨_, blanks_takeWhile x, (List.takeWhile_append_dropWhile ..).symm⟩

theorem solid_of_head (h : Text.isSpaceOrTab d = false) : solid (d :: x) = d :: x :=
  List.dropWhile_cons_of_neg (by rw [h]; exact Bool.false_ne_true)

/-- A text that begins with a fence character. -/
def StartsFence (r : Text) : Prop :=
  ∃ d t, IsFenceChar d ∧ r = d :: t

theorem StartsFence.head? (hr : StartsFence r) : (r.head?).any Text.isSpaceOrTab = false := by
  obtain ⟨d, t, hd, rfl⟩ := hr
  rw [List.head?_cons, Option.any_some, hd.isSpaceOrTab]

theorem StartsFence.solid (hr : StartsFence r) : solid r = r := by
  obtain ⟨d, t, hd, rfl⟩ := hr
  exact solid_of_head hd.isSpaceOrTab

/-- What stands before a fence goes on with the fence. -/
theorem solid_append (hr : StartsFence r) : solid (x ++ r) = solid x ++ r := by
  induction x with
  | nil => exact hr.solid
  | cons c x ih =>
    rw [List.cons_append, solid, solid, List.dropWhile_cons, List.dropWhile_cons]
    split
    · exact ih
    · rfl

theorem solid_solid (x : Text) : solid (solid x) = solid x := by
  induction x with
  | nil => rfl
  | cons c x ih =>
    by_cases hc : Text.isSpaceOrTab c
    · rw [show solid (c :: x) = solid x from List.dropWhile_cons_of_pos hc, ih]
    · rw [Bool.not_eq_true] at hc
      rw [solid_of_head hc, solid_of_head hc]

theorem contentColumn_solid_append {shift column : Int} (hr : StartsFence r) :
    contentColumn shift column (solid x ++ r) = column := by
  rw [← solid_append hr]
  cases hx : solid (x ++ r) with
  | nil => rfl
  | cons c t =>
    refine contentColumn_of_not_blank (Bool.eq_false_iff.2 fun hc => ?_)
    have := solid_solid (x ++ r)
    rw [hx, show solid (c :: t) = solid t from List.dropWhile_cons_of_pos hc] at this
    have hlength := congrArg List.length this
    have hle := (List.dropWhile_suffix Text.isSpaceOrTab (l := t)).length_le
    rw [List.length_cons, solid] at hlength
    omega

/-- The column of the content depends on what stands before the fence, unless that is where
    the content begins. -/
theorem contentColumn_append_fence {shift column : Int} {r' : Text} (hr : StartsFence r)
    (hr' : StartsFence r') :
    contentColumn shift column (x ++ r') = contentColumn shift column (x ++ r) := by
  obtain ⟨y, hy, hx⟩ := exists_blanks_solid x
  rw [hx, List.append_assoc, List.append_assoc, contentColumn_append hy, contentColumn_append hy,
    contentColumn_solid_append hr, contentColumn_solid_append hr']

theorem content_append (ho : o.text = x ++ r) (hr : StartsFence r) :
    o.content = solid x ++ r := by
  rw [Line.content, ho]
  exact solid_append hr

/-! ## What is left of a body line -/

/-- What is left of a body line `line` while there is still something to be seen of it, or of
    the lead in front of it: `x` is what stands before the fence in the opening line `o`, and
    tab stops matter up to the quote marker number `k`. -/
structure Shown (k : Nat) (o : Line) (x line : Text) (b : Line) : Prop where
  ne_nil : carry (solid x) line ≠ []
  base : b.base = o.base
  exists_blanks : ∃ y shift, Blanks y ∧ b.text = y ++ carry (solid x) line ∧
    contentColumn shift 0 y = o.indent ∧ contentColumn o.base 0 y = o.indent ∧
    b.indent = contentColumn shift 0 b.text ∧ (0 < k → shift = o.base)

/-- A body line as the containers so far have left it. -/
structure Carried (k : Nat) (o : Line) (x line : Text) (b : Line) : Prop where
  isEnded : solid line = [] → b.isEnded
  shown : (carry (solid x) line = [] ∧ b.text = []) ∨ Shown k o x line b

theorem not_quote_mem_of_blanks (hy : Blanks y) : '>' ∉ y := fun h =>
  absurd (hy '>' h) (by decide)

theorem carry_nil_of_append (h : carry (y ++ x) line = []) : carry x line = [] := by
  rw [carry_eq_nil_iff, List.mem_append, not_or] at h
  exact carry_eq_nil_iff.2 ⟨h.1, h.2.2⟩

theorem carry_solid_eq_nil (h : carry x line = []) : carry (solid x) line = [] := by
  obtain ⟨y, -, hx⟩ := exists_blanks_solid x
  rw [hx] at h
  exact carry_nil_of_append h

/-- A line that consists of a body line behind what stands before the fence. -/
theorem carried_of_carry (shift : Int) (hr : StartsFence r) (hended : solid line = [] → b.isEnded)
    (htext : b.text = carry x line) (hbase : b.base = o.base)
    (hindent : o.indent = contentColumn shift 0 (x ++ r))
    (hbindent : b.indent = contentColumn shift 0 b.text)
    (hshift : shift = o.base ∨ k = 0 ∧ '\t' ∉ x) : Carried k o x line b := by
  obtain ⟨y, hy, hx⟩ := exists_blanks_solid x
  have hquote := not_quote_mem_of_blanks hy
  refine ⟨hended, ?_⟩
  by_cases hne : carry (solid x) line = []
  · -- Nothing but blanks would stand before an empty line, and these are not written.
    refine .inl ⟨hne, htext.trans ?_⟩
    rw [carry_eq_nil_iff] at hne ⊢
    rw [hx, List.mem_append, not_or]
    exact ⟨hne.1, hquote, hne.2⟩
  · have hcarry : carry x line = y ++ carry (solid x) line := by
      have := carry_append hquote hne
      rwa [← hx, map_leadChar_of_blanks hy] at this
    have hcolumn : contentColumn shift 0 y = o.indent := by
      rw [hindent, hx, List.append_assoc, contentColumn_append hy, contentColumn_solid_append hr]
    refine .inr ⟨hne, hbase, y, shift, hy, htext.trans hcarry, hcolumn, ?_, hbindent, ?_⟩
    · rcases hshift with rfl | ⟨-, htab⟩
      · exact hcolumn
      · rw [← hcolumn]
        refine contentColumn_of_not_mem fun hmem => htab ?_
        rw [hx]
        exact List.mem_append_left _ hmem
    · exact fun hk => hshift.resolve_right fun hzero => absurd hzero.1 (Nat.ne_of_gt hk)

/-! ## Containers -/

/-- The opening line of a fence inside a quote. -/
def Line.intoQuote (o : Line) (y r : Text) : Line :=
  o.inside ((afterMarker o.base (o.indent + 1) y).1 ++ r, (afterMarker o.base (o.indent + 1) y).2)

theorem withoutQuoteMarker_intoQuote (ho : o.text = x ++ r) (hr : StartsFence r)
    (hx : solid x = '>' :: y) : withoutQuoteMarker o = some (o.intoQuote y r) := by
  have hcontent : o.content = '>' :: (y ++ r) := by
    rw [content_append ho hr, hx, List.cons_append]
  rw [withoutQuoteMarker_eq hcontent, afterMarker_append hr.head?]
  rfl

/-- A quote marker takes nothing off, or one blank. -/
theorem afterMarker_cases (base column : Int) (y : Text) :
    (afterMarker base column y).1 = y ∨
      ∃ c, Text.isSpaceOrTab c ∧ y = c :: (afterMarker base column y).1 := by
  unfold afterMarker
  split
  · exact .inr ⟨' ', rfl, rfl⟩
  · split
    · exact .inr ⟨'\t', rfl, rfl⟩
    · exact .inl rfl
  · exact .inl rfl

theorem tabsUpTo_afterMarker (base column : Int) (h : TabsUpTo k y) :
    TabsUpTo k (afterMarker base column y).1 := by
  rcases afterMarker_cases base column y with hy | ⟨c, -, hy⟩
  · rwa [hy]
  · rw [hy] at h
    exact TabsUpTo.of_append (y := [c]) h

theorem TabsUpTo.solid (h : TabsUpTo k x) : TabsUpTo k (solid x) := by
  obtain ⟨y, -, hx⟩ := exists_blanks_solid x
  rw [hx] at h
  exact h.of_append

/-- Blanks before a quote marker do not matter for the blank after it. -/
theorem agrees_solid : Agrees (solid x) line ↔ Agrees x line := by
  obtain ⟨y, hy, hx⟩ := exists_blanks_solid x
  constructor
  · intro h
    rw [hx]
    exact agrees_append_of_not_mem (not_quote_mem_of_blanks hy) h
  · intro h
    rw [hx] at h
    exact h.of_append

theorem agrees_afterMarker (base column : Int) :
    Agrees (afterMarker base column y).1 line ↔ Agrees y line := by
  rcases afterMarker_cases base column y with hy | ⟨c, hc, hy⟩
  · rw [hy]
  · constructor
    · intro h
      rw [hy]
      exact ⟨fun hquote => absurd (hquote ▸ hc) (by decide), h⟩
    · intro h
      rw [hy] at h
      exact h.2

/-- The marker leaves of a body line that fits what it leaves of the opening line, with the
    line after it. -/
theorem afterMarker_carry_fst (base column : Int)
    (hhead : ((carry y line).head?).any Text.isSpaceOrTab → (y.head?).any Text.isSpaceOrTab) :
    (afterMarker base column (carry y line)).1 = carry (afterMarker base column y).1 line := by
  by_cases hne : carry y line = []
  · rw [hne]
    refine Eq.symm (carry_eq_nil_iff.2 ?_)
    rw [carry_eq_nil_iff] at hne
    refine ⟨hne.1, fun hmem => hne.2 ?_⟩
    rcases afterMarker_cases base column y with hy | ⟨c, -, hy⟩
    · rwa [hy] at hmem
    · rw [hy]
      exact List.mem_cons_of_mem _ hmem
  · rw [afterMarker_carry base column hne hhead]

/-- While a quote marker stands before the fence, a body line has it, too. -/
theorem Carried.content_quote (hb : Carried k o x line b) (hx : solid x = '>' :: y) :
    b.content = '>' :: carry y line ∧ b.indent = o.indent ∧ b.base = o.base := by
  rcases hb.shown with ⟨hnil, -⟩ | ⟨-, hbase, z, shift, hz, htext, hindent, -, hbindent, -⟩
  · rw [hx, carry_quote] at hnil
    exact nomatch hnil
  · rw [hx, carry_quote] at htext
    refine ⟨?_, ?_, hbase⟩
    · rw [Line.content_eq hz htext]
      exact solid_of_head (by decide)
    · rw [hbindent, htext, contentColumn_append hz, hindent]
      exact contentColumn_of_not_blank (by decide)

/-- What a quote marker leaves of a body line, if it takes off what it takes off the opening
    line. -/
theorem carried_intoQuote {p : Line} (hr : StartsFence r) (hbase : 1 < k → o.base = 0)
    (htabs : TabsUpTo (k - 1) (afterMarker o.base (o.indent + 1) y).1)
    (hended : solid line = [] → p.isEnded)
    (htext : p.text = carry (afterMarker o.base (o.indent + 1) y).1 line)
    (hpbase : p.base = (o.intoQuote y r).base)
    (hindent : p.indent = contentColumn (o.base + (o.intoQuote y r).base) 0 p.text) :
    Carried (k - 1) (o.intoQuote y r) (afterMarker o.base (o.indent + 1) y).1 line p := by
  refine carried_of_carry (o.base + (o.intoQuote y r).base) hr hended htext hpbase rfl hindent ?_
  by_cases hk : 1 < k
  · rw [hbase hk, Int.zero_add]
    exact .inl rfl
  · have hzero : k - 1 = 0 := by omega
    rw [hzero] at htabs
    exact .inr ⟨hzero, htabs⟩

/-- A body line inside a quote. -/
theorem Carried.quoted (hb : Carried k o x line b) (hr : StartsFence r)
    (hbase : 1 < k → o.base = 0) (htabs : TabsUpTo k (solid x)) (hx : solid x = '>' :: y)
    (hhead : ((carry y line).head?).any Text.isSpaceOrTab → (y.head?).any Text.isSpaceOrTab) :
    ∃ p, withoutQuoteMarker b = some p ∧ b.indent = o.indent ∧
      Carried (k - 1) (o.intoQuote y r) (afterMarker o.base (o.indent + 1) y).1 line p := by
  obtain ⟨hcontent, hequal, hbbase⟩ := hb.content_quote hx
  have hleft := afterMarker_carry_fst o.base (o.indent + 1) hhead
  rw [hx] at htabs
  refine ⟨_, withoutQuoteMarker_eq hcontent, hequal, ?_⟩
  rw [hbbase, hequal]
  by_cases hne : carry y line = []
  · -- Nothing is left of an empty line after its last quote marker.
    rw [hne] at hleft ⊢
    exact ⟨hb.isEnded, .inl ⟨carry_solid_eq_nil hleft.symm, rfl⟩⟩
  · have hafter := afterMarker_carry o.base (o.indent + 1) hne hhead
    refine carried_intoQuote hr hbase (tabsUpTo_afterMarker _ _ htabs.of_quote) hb.isEnded hleft
      ?_ ?_
    · rw [hafter]
      rfl
    · rw [hafter, Line.inside, hbbase]
      rfl

/-- The first line of a list item, and the body lines beside it. -/
theorem Carried.item (hb : Carried k o x line b) (hr : StartsFence r)
    (htabs : TabsUpTo k (solid x)) (hmark : ∀ c ∈ mark, IsMark c) (hx : solid x = mark ++ y)
    (hrest : marker.rest = y ++ r) (hwidth : mark.length = marker.width) :
    Carried k (itemStart o marker).1 (solid y) line b := by
  obtain ⟨z, hz, hy⟩ := exists_blanks_solid y
  have hquote : '>' ∉ mark ++ z := fun hmem => by
    rcases List.mem_append.1 hmem with hmem | hmem
    · exact (hmark _ hmem).ne_quote rfl
    · exact not_quote_mem_of_blanks hz hmem
  have hx' : solid x = (mark ++ z) ++ solid y := by rw [hx, List.append_assoc, ← hy]
  refine ⟨hb.isEnded, ?_⟩
  by_cases hne : carry (solid y) line = []
  · refine .inl ⟨by rwa [solid_solid], ?_⟩
    rcases hb.shown with ⟨-, htext⟩ | hshown
    · exact htext
    · refine absurd ?_ hshown.ne_nil
      rw [carry_eq_nil_iff] at hne ⊢
      rw [hx', List.mem_append, not_or]
      exact ⟨hne.1, hquote, hne.2⟩
  · -- The spaces that stand for the marker are as wide as it is.
    rcases hb.shown with ⟨hnil, -⟩ | hshown
    · rw [hx'] at hnil
      exact absurd (carry_nil_of_append hnil) hne
    obtain ⟨-, hbbase, w, shift, hw, htext, hindent, hindent', hbindent, hshift⟩ := hshown
    have hlead : (mark ++ z).map leadChar = Text.spaces mark.length ++ z := by
      rw [List.map_append, map_leadChar_of_isMark hmark, map_leadChar_of_blanks hz]
    rw [hx', carry_append hquote hne, hlead] at htext
    have hblanks : Blanks (w ++ (Text.spaces mark.length ++ z)) :=
      hw.append ((blanks_spaces _).append hz)
    have hcolumn (shift : Int) (h : contentColumn shift 0 w = o.indent) :
        contentColumn shift 0 (w ++ (Text.spaces mark.length ++ z)) =
          contentColumn shift (o.indent + marker.width) z := by
      rw [contentColumn_append hw, h, contentColumn_append (blanks_spaces _),
        contentColumn_spaces, hwidth]
    have hitem : (itemStart o marker).1.indent =
        contentColumn o.base (o.indent + marker.width) z := by
      rw [itemStart, hrest, hy, List.append_assoc]
      dsimp only
      rw [contentColumn_append hz, contentColumn_solid_append hr]
    refine .inr ⟨by rwa [solid_solid], hbbase, w ++ (Text.spaces mark.length ++ z), shift,
      hblanks, ?_, ?_, ?_, hbindent, hshift⟩
    · rw [htext, solid_solid]
      exact (List.append_assoc ..).symm
    · rw [hcolumn shift hindent, hitem]
      cases k with
      | zero =>
        refine contentColumn_of_not_mem fun hmem => htabs ?_
        rw [hx']
        exact List.mem_append_left _ (List.mem_append_right _ hmem)
      | succ k => rw [hshift (Nat.succ_pos k)]
    · rw [hitem]
      exact hcolumn o.base hindent'

/-! ## In the fence -/

/-- What is left of a body line when no container is to come: it belongs to the fence, but may
    have lost a blank at its start. -/
structure Worn (o : Line) (x line : Text) (b : Line) : Prop where
  solid : solid x = []
  content : b.content = Markdown.solid line
  le : b.isEmpty = false → o.indent ≤ b.indent
  isEnded : b.isEmpty → b.isEnded

theorem Carried.worn (hb : Carried k o x line b) (hx : solid x = []) : Worn o x line b := by
  rcases hb.shown with ⟨hnil, htext⟩ | ⟨-, -, z, shift, hz, htext, hindent, -, hbindent, -⟩
  · rw [hx] at hnil
    obtain rfl : line = [] := hnil
    have hempty : b.isEmpty := by rw [Line.isEmpty, Line.content, htext]; rfl
    exact ⟨hx, by rw [Line.content, htext]; rfl, fun h => absurd hempty (Bool.eq_false_iff.1 h),
      fun _ => hb.isEnded rfl⟩
  · rw [hx] at htext
    have htext' : b.text = z ++ line := htext
    have hcontent : b.content = solid line := Line.content_eq hz htext'
    refine ⟨hx, hcontent, fun _ => ?_, fun hempty => hb.isEnded ?_⟩
    · have := le_contentColumn shift (contentColumn shift 0 z) line
      rw [← contentColumn_append hz, ← htext', ← hbindent, hindent] at this
      omega
    · rw [Line.isEmpty, hcontent, List.isEmpty_iff] at hempty
      exact hempty

/-- The fence goes on with a body line. -/
theorem Worn.body {margin : Int} (hb : Worn o x line b) (hmargin : margin ≤ o.indent)
    (hd : IsFenceChar d) (hn : 0 < n)
    (hrun : ((Markdown.solid line).takeWhile (· = d)).length < n) :
    Fence.endsContainer margin b = false ∧ Fence.closes margin (List.replicate n d) b = false := by
  constructor
  · rw [Fence.endsContainer]
    split
    · rename_i hempty
      rw [hb.isEnded hempty]
      rfl
    · rename_i hempty
      rw [Bool.not_eq_true] at hempty
      exact decide_eq_false (Int.not_lt.2 (Int.le_trans hmargin (hb.le hempty)))
  · refine Bool.eq_false_iff.2 fun hcloses => ?_
    obtain ⟨-, j, t, hj, htext, ht⟩ := (Fence.closes_iff hd hn).1 hcloses
    have hhead : t.head? ≠ some d := hd.head?_ne_of_blanks ht
    rw [← hb.content, htext, Fence.takeWhile_append hhead, List.length_replicate] at hrun
    omega

/-- The fence itself leaves the body line as it was before it was written. -/
theorem Carried.dropColumns (hb : Carried k o x line b) (hx : solid x = [])
    (hnonneg : 0 ≤ o.indent) : b.dropColumns o.indent = line := by
  rcases hb.shown with ⟨hnil, htext⟩ | ⟨-, hbase, z, shift, hz, htext, -, hindent, -⟩
  · rw [hx] at hnil
    have hline : line = [] := hnil
    rw [Line.dropColumns, htext, hline, dropColumnsFrom, Int.toNat_of_nonpos (by omega)]
    rfl
  · rw [hx] at htext
    have htext' : b.text = z ++ line := htext
    rw [Line.dropColumns, htext', hbase]
    exact dropColumnsFrom_append hz hindent

/-! ## Body lines that stay in their containers -/

/-- A body line as the containers so far have left it, either exactly as it was written or, if
    that does not matter, worn. -/
def Kept (exact : Prop) (k : Nat) (o : Line) (x line : Text) (b : Line) : Prop :=
  Carried k o x line b ∨ ¬exact ∧ Worn o x line b

variable {exact : Prop}

/-- A quote marker right before the fence takes a blank off a body line that starts with one. -/
theorem worn_intoQuote (hb : Carried k o x line b) (hr : StartsFence r) (hx : solid x = ['>']) :
    ∃ p, withoutQuoteMarker b = some p ∧ b.indent = o.indent ∧
      Worn (o.intoQuote [] r) (afterMarker o.base (o.indent + 1) []).1 line p := by
  obtain ⟨hcontent, hequal, -⟩ := hb.content_quote hx
  have hcontent : b.content = '>' :: line := hcontent
  have hzero : (o.intoQuote [] r).indent = 0 := by
    obtain ⟨d, t, hd, rfl⟩ := hr
    exact contentColumn_of_not_blank hd.isSpaceOrTab
  have hsolid : solid (afterMarker b.base (b.indent + 1) line).1 = solid line := by
    rcases afterMarker_cases b.base (b.indent + 1) line with h | ⟨c, hc, h⟩
    · rw [h]
    · exact (List.dropWhile_cons_of_pos hc).symm.trans (congrArg solid h.symm)
  refine ⟨_, withoutQuoteMarker_eq hcontent, hequal, rfl, hsolid, fun _ => ?_, fun hempty => ?_⟩
  · rw [hzero]
    exact le_contentColumn _ _ _
  · refine hb.isEnded (List.isEmpty_iff.1 ?_)
    rw [← hsolid]
    exact hempty

/-- A body line inside a quote. -/
theorem Kept.quoted (hb : Kept exact k o x line b) (hr : StartsFence r)
    (hbase : 1 < k → o.base = 0) (htabs : TabsUpTo k (solid x)) (hx : solid x = '>' :: y)
    (hfits : Agrees ('>' :: y) line ∨ ¬exact ∧ Loose ('>' :: y)) :
    ∃ p, withoutQuoteMarker b = some p ∧ b.indent = o.indent ∧
      Kept exact (k - 1) (o.intoQuote y r) (afterMarker o.base (o.indent + 1) y).1 line p := by
  -- A worn line is met after the last marker only. Otherwise this marker may wear it, and then it
  -- is the last one, since a list marker does not follow it.
  rcases hb with hb | ⟨-, hb⟩
  · by_cases hhead : ((carry y line).head?).any Text.isSpaceOrTab → (y.head?).any Text.isSpaceOrTab
    · obtain ⟨p, hp, hindent, hcarried⟩ := hb.quoted hr hbase htabs hx hhead
      exact ⟨p, hp, hindent, .inl hcarried⟩
    · obtain ⟨hexact, hloose⟩ := hfits.resolve_left fun hagrees => hhead (hagrees.1 rfl)
      cases y with
      | nil =>
        obtain ⟨p, hp, hindent, hworn⟩ := worn_intoQuote hb hr hx
        exact ⟨p, hp, hindent, .inr ⟨hexact, hworn⟩⟩
      | cons c y => exact absurd (isSpaceOrTab_of_carry ((loose_cons.1 hloose).1 rfl)) hhead
  · rw [hb.solid] at hx
    exact nomatch hx

/-- The first line of a list item, and the body lines beside it. -/
theorem Kept.item (hb : Kept exact k o x line b) (hr : StartsFence r)
    (htabs : TabsUpTo k (solid x)) (hmark : ∀ c ∈ mark, IsMark c) (hne : mark ≠ [])
    (hx : solid x = mark ++ y) (hrest : marker.rest = y ++ r)
    (hwidth : mark.length = marker.width) :
    Kept exact k (itemStart o marker).1 (solid y) line b := by
  rcases hb with hb | ⟨-, hb⟩
  · exact .inl (hb.item hr htabs hmark hx hrest hwidth)
  · rw [hb.solid] at hx
    exact absurd (List.append_eq_nil_iff.1 hx.symm).1 hne

theorem Kept.worn (hb : Kept exact k o x line b) (hx : solid x = []) : Worn o x line b :=
  hb.elim (·.worn hx) And.right

end Markdown

end Transclude
