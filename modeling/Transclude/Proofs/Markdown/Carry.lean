import Transclude.Proofs.Markdown.Container
import Transclude.Replacement

/-!
# Body lines in their containers

A body line is written with the lead of its block in front, which repeats what stands before
the fence, the markers of list items replaced by spaces. As the line is read, every
container takes off its share of the lead. For this to leave the line as it was, a quote
marker has to take a blank off the body line only if it takes one off the opening line. It
takes one off more often: a marker that is followed by a list marker, say, is followed by a
space in the lead. So what a body line has to show is that no blank follows a quote marker
that is not followed by one in the opening line, too.

Tabs make columns depend on where the tab stops are, and for these only the columns of one
container are known to the next. A lead with a tab after its second quote marker is
therefore left out.

* `carry`: a body line behind what stands before the fence;
* `Fits`, `Agrees`: the condition on a body line;
* `Spaced`, `Loose`: the leads behind which every body line meets it, or stays in its containers
  at least;
* `afterMarker_carry`: what a quote marker takes off a body line.
-/

namespace Transclude

namespace Markdown

variable {k n : Nat} {o p b l : Line} {x y t r line : Text} {c d : Char} {marker : ItemMarker}
  {base column σ : Int}

/-! ## Leads -/

/-- The character that a lead has for one before the fence. -/
def leadChar (c : Char) : Char :=
  if c = ' ' || c = '\t' || c = '>' then c else ' '

theorem leadOf_eq_map (x : Text) : CodeBlock.leadOf x = x.map leadChar :=
  rfl

theorem leadChar_of_isSpaceOrTab (h : Text.isSpaceOrTab c) : leadChar c = c := by
  rw [Text.isSpaceOrTab, Bool.or_eq_true, decide_eq_true_eq, decide_eq_true_eq] at h
  rcases h with rfl | rfl <;> rfl

theorem leadChar_of_isMark (h : IsMark c) : leadChar c = ' ' := by
  have hblank := h.isSpaceOrTab
  rw [Text.isSpaceOrTab] at hblank
  rw [leadChar, hblank, Bool.false_or, decide_eq_false h.ne_quote]
  rfl

theorem leadChar_eq_space (hc : Text.isSpaceOrTab c = false)
    (h : Text.isSpaceOrTab (leadChar c)) : leadChar c = ' ' := by
  rw [Text.isSpaceOrTab] at hc
  rw [leadChar, hc, Bool.false_or] at h ⊢
  by_cases hquote : c = '>'
  · rw [if_pos (decide_eq_true hquote), hquote] at h
    exact absurd h (by decide)
  · exact if_neg fun h => hquote (of_decide_eq_true h)

theorem map_leadChar_of_blanks (h : Blanks x) : x.map leadChar = x :=
  (List.map_congr_left fun c hc => leadChar_of_isSpaceOrTab (h c hc)).trans (List.map_id' x)

theorem map_leadChar_of_isMark (h : ∀ c ∈ x, IsMark c) : x.map leadChar = Text.spaces x.length := by
  rw [List.map_congr_left fun c hc => leadChar_of_isMark (h c hc), List.map_const']
  rfl

/-- A body line behind what stands before the fence; of an empty line only what goes up to
    the last quote marker is left. -/
def carry : (x line : Text) → Text
  | [], line => line
  | c :: x, line =>
    if (carry x line).isEmpty && c ≠ '>' then [] else leadChar c :: carry x line

theorem carry_eq_nil_iff : carry x line = [] ↔ line = [] ∧ '>' ∉ x := by
  induction x with
  | nil => exact ⟨fun h => ⟨h, List.not_mem_nil⟩, And.left⟩
  | cons c x ih =>
    rw [carry, List.mem_cons, not_or, ← and_assoc, and_right_comm, ← ih]
    split
    · rename_i h
      simp only [Bool.and_eq_true, List.isEmpty_iff, decide_eq_true_eq] at h
      exact ⟨fun _ => ⟨h.1, Ne.symm h.2⟩, fun _ => rfl⟩
    · rename_i h
      refine ⟨nofun, fun ⟨hnil, hne⟩ => absurd ?_ h⟩
      rw [hnil, List.isEmpty_nil, Bool.true_and, decide_eq_true_eq]
      exact Ne.symm hne

theorem carry_cons_of_ne_nil (h : carry (c :: x) line ≠ []) :
    carry (c :: x) line = leadChar c :: carry x line := by
  rw [carry] at h ⊢
  split
  · rename_i hnil
    exact absurd (if_pos hnil) h
  · rfl

theorem carry_quote : carry ('>' :: x) line = '>' :: carry x line := by
  rw [carry, if_neg]
  · rfl
  · simp

/-- Without a quote marker there is nothing to be seen of a lead but what comes after it. -/
theorem carry_append (h : '>' ∉ y) (hne : carry x line ≠ []) :
    carry (y ++ x) line = y.map leadChar ++ carry x line := by
  induction y with
  | nil => rfl
  | cons c y ih =>
    rw [List.mem_cons, not_or] at h
    have hcarry : carry (c :: (y ++ x)) line ≠ [] := fun hnil => by
      rw [carry_eq_nil_iff, List.mem_cons, List.mem_append, not_or, not_or] at hnil
      exact hne (carry_eq_nil_iff.2 ⟨hnil.1, hnil.2.2.2⟩)
    rw [List.cons_append, carry_cons_of_ne_nil hcarry, ih h.2, List.map_cons, List.cons_append]

/-! ## Blanks after quote markers -/

/-- What holds at every quote marker holds at the first character, if it is one, and at every
    later one. -/
theorem forall_quote_cons {P : Nat → Prop} : (∀ i, (c :: x)[i]? = some '>' → P i) ↔
    (c = '>' → P 0) ∧ ∀ i, x[i]? = some '>' → P (i + 1) := by
  constructor
  · exact fun h => ⟨fun hc => h 0 (congrArg some hc), fun i => h (i + 1)⟩
  · rintro ⟨hzero, hsucc⟩ (_ | i) hquote
    · exact hzero (Option.some.inj hquote)
    · exact hsucc i hquote

/-- Wherever a blank follows the place of a quote marker in the body line `t`, one follows
    the marker in what stands before the fence. -/
def Fits (x t : Text) : Prop :=
  ∀ i, x[i]? = some '>' → (t[i + 1]?).any Text.isSpaceOrTab → (x[i + 1]?).any Text.isSpaceOrTab

/-- The same marker by marker, for the body line that `line` becomes. -/
def Agrees : (x line : Text) → Prop
  | [], _ => True
  | c :: x, line =>
    (c = '>' → ((carry x line).head?).any Text.isSpaceOrTab →
      (x.head?).any Text.isSpaceOrTab) ∧ Agrees x line

theorem Agrees.of_append (h : Agrees (y ++ x) line) : Agrees x line := by
  induction y with
  | nil => exact h
  | cons c y ih => exact ih h.2

theorem agrees_append_of_not_mem (hy : '>' ∉ y) (h : Agrees x line) : Agrees (y ++ x) line := by
  induction y with
  | nil => exact h
  | cons c y ih =>
    rw [List.mem_cons, not_or] at hy
    exact ⟨fun hc => absurd hc.symm hy.1, ih hy.2⟩

theorem agrees_of_not_mem (hx : '>' ∉ x) : Agrees x line := by
  have : Agrees (x ++ []) line := agrees_append_of_not_mem hx trivial
  rwa [List.append_nil] at this

theorem fits_cons : Fits (c :: x) (d :: t) ↔
    (c = '>' → (t.head?).any Text.isSpaceOrTab → (x.head?).any Text.isSpaceOrTab) ∧ Fits x t := by
  rw [List.head?_eq_getElem?, List.head?_eq_getElem?]
  exact forall_quote_cons

theorem fits_carry_iff : Fits x (carry x line) ↔ Agrees x line := by
  induction x with
  | nil => exact ⟨fun _ => trivial, fun _ _ hquote => nomatch hquote⟩
  | cons c x ih =>
    by_cases hnil : carry (c :: x) line = []
    · exact ⟨fun _ => agrees_of_not_mem (carry_eq_nil_iff.1 hnil).2,
        fun _ _ _ hblank => by rw [hnil] at hblank; exact nomatch hblank⟩
    · rw [carry_cons_of_ne_nil hnil, fits_cons, ih]
      rfl

/-- A blank or a further quote marker follows every quote marker. -/
def Spaced (x : Text) : Prop :=
  ∀ i, x[i]? = some '>' → (x[i + 1]?).any fun c => Text.isSpaceOrTab c || c = '>'

theorem spaced_nil : Spaced [] := fun _ h => nomatch h

theorem spaced_cons : Spaced (c :: x) ↔
    (c = '>' → (x.head?).any fun c => Text.isSpaceOrTab c || c = '>') ∧ Spaced x := by
  rw [List.head?_eq_getElem?]
  exact forall_quote_cons

/-- Where a blank or a quote marker comes next, a blank is seen in a body line only if it is
    the blank. -/
theorem isSpaceOrTab_of_carry (hd : Text.isSpaceOrTab d || d = '>')
    (hblank : ((carry (d :: x) line).head?).any Text.isSpaceOrTab) : Text.isSpaceOrTab d := by
  rcases Bool.or_eq_true_iff.1 hd with hd | hd
  · exact hd
  · rw [of_decide_eq_true hd, carry_quote] at hblank
    exact nomatch hblank

/-- Behind a lead whose quote markers are spaced, every body line can be written. -/
theorem Spaced.agrees (h : Spaced x) (line : Text) : Agrees x line := by
  induction x with
  | nil => exact trivial
  | cons c x ih =>
    obtain ⟨hnext, hx⟩ := spaced_cons.1 h
    refine ⟨fun hc hblank => ?_, ih hx⟩
    cases x with
    | nil => exact nomatch hnext hc
    | cons d x => exact isSpaceOrTab_of_carry (hnext hc) hblank

/-- Behind any other, a line that starts with a space cannot. -/
theorem spaced_of_agrees (h : Agrees x (' ' :: line)) : Spaced x := by
  induction x with
  | nil => exact spaced_nil
  | cons c x ih =>
    refine spaced_cons.2 ⟨fun hc => ?_, ih h.2⟩
    -- A list marker after the quote marker is a space in the lead, which the quote would take.
    cases x with
    | nil => exact nomatch h.1 hc rfl
    | cons d x =>
      have hne : carry (d :: x) (' ' :: line) ≠ [] := fun hnil =>
        nomatch (carry_eq_nil_iff.1 hnil).1
      have hhead := h.1 hc
      rw [carry_cons_of_ne_nil hne] at hhead
      show (Text.isSpaceOrTab d || decide (d = '>')) = true
      by_cases hquote : d = '>'
      · rw [decide_eq_true hquote, Bool.or_true]
      · rw [Bool.or_eq_true]
        refine .inl (hhead ?_)
        show Text.isSpaceOrTab (leadChar d) = true
        rw [leadChar]
        split
        · rename_i hd
          rw [decide_eq_false hquote, Bool.or_false] at hd
          exact hd
        · rfl

/-- A blank, a further quote marker or the fence follows every quote marker: no list item
    starts right behind one. -/
def Loose (x : Text) : Prop :=
  ∀ i, x[i]? = some '>' → (x[i + 1]?).all fun c => Text.isSpaceOrTab c || c = '>'

theorem loose_nil : Loose [] := fun _ h => nomatch h

theorem loose_cons : Loose (c :: x) ↔
    (c = '>' → (x.head?).all fun c => Text.isSpaceOrTab c || c = '>') ∧ Loose x := by
  rw [List.head?_eq_getElem?]
  exact forall_quote_cons

instance decidableLoose : (x : Text) → Decidable (Loose x)
  | [] => isTrue loose_nil
  | _ :: x =>
    haveI := decidableLoose x
    decidable_of_iff _ loose_cons.symm

theorem Loose.of_append (h : Loose (y ++ x)) : Loose x := by
  induction y with
  | nil => exact h
  | cons c y ih => exact ih (loose_cons.1 h).2

/-- Tabs stand before the quote marker number `k + 1` only. -/
def TabsUpTo : (k : Nat) → Text → Prop
  | 0, x => '\t' ∉ x
  | k + 1, x => ∀ y z, x = y ++ '>' :: z → TabsUpTo k z

theorem tabsUpTo_of_not_mem (h : '\t' ∉ x) : TabsUpTo k x := by
  induction k generalizing x with
  | zero => exact h
  | succ k ih =>
    rintro y z rfl
    exact ih fun hmem => h (List.mem_append_right _ (List.mem_cons_of_mem _ hmem))

theorem TabsUpTo.of_append (h : TabsUpTo k (y ++ x)) : TabsUpTo k x := by
  cases k with
  | zero => exact fun hmem => h (List.mem_append_right y hmem)
  | succ k => exact fun z z' hx => h (y ++ z) z' (by rw [hx, List.append_assoc])

theorem TabsUpTo.of_quote (h : TabsUpTo k ('>' :: x)) : TabsUpTo (k - 1) x := by
  cases k with
  | zero => exact fun hmem => h (List.mem_cons_of_mem _ hmem)
  | succ k => exact h [] x rfl

/-! ## What a quote marker takes -/

/-- The text after a quote marker that ends before `column` without the blank that belongs
    to the marker, and the column from which tab stops are counted in it. -/
def afterMarker (base column : Int) : Text → Text × Int
  | ' ' :: t => (t, column + 1)
  | '\t' :: t => if (base + column) % 4 = 3 then (t, column + 1) else ('\t' :: t, column + 1)
  | t => (t, column)

/-- The line inside a quote, given what the marker leaves of it. -/
def Line.inside (l : Line) (after : Text × Int) : Line :=
  { l with text := after.1, base := after.2, indent := contentColumn (l.base + after.2) 0 after.1 }

theorem withoutQuoteMarker_eq (h : l.content = '>' :: t) :
    withoutQuoteMarker l = some (l.inside (afterMarker l.base (l.indent + 1) t)) := by
  have hcolumn (shift start : Int) (t : Text) :
      contentColumn shift start t - start = contentColumn (shift + start) 0 t := by
    have := contentColumn_add shift 0 start t
    rw [Int.add_zero] at this
    omega
  unfold withoutQuoteMarker
  split
  · rename_i t' hcontent
    obtain rfl : t' = t := by
      rw [h] at hcontent
      exact (List.cons.inj hcontent).2.symm
    dsimp only
    split
    · rw [hcolumn, Int.add_zero]
      rfl
    · rw [afterMarker]
      split
      · rw [hcolumn, Int.add_zero]
        rfl
      · rw [hcolumn, Int.add_assoc, Int.add_comm 1]
        rfl
    · rename_i hspace htab
      rw [hcolumn, afterMarker.eq_3 _ _ _ hspace htab]
      simp only [Int.add_zero]
      rfl
  · rename_i hne
    exact absurd h (hne t)

theorem afterMarker_of_head (h : ¬(t.head?).any Text.isSpaceOrTab) :
    afterMarker base column t = (t, column) := by
  unfold afterMarker
  split
  · exact absurd rfl h
  · exact absurd rfl h
  · rfl

/-- What follows the first character after a marker does not matter for what it takes. -/
theorem afterMarker_append (h : (r.head?).any Text.isSpaceOrTab = false) :
    afterMarker base column (x ++ r) =
      ((afterMarker base column x).1 ++ r, (afterMarker base column x).2) := by
  cases x with
  | nil => exact afterMarker_of_head (by rw [List.nil_append, h]; exact Bool.false_ne_true)
  | cons c x =>
    by_cases hspace : c = ' '
    · rw [hspace]
      rfl
    · by_cases htab : c = '\t'
      · rw [htab, List.cons_append, afterMarker, afterMarker]
        split <;> rfl
      · have hc : ¬((c :: x).head?).any Text.isSpaceOrTab := by
          simp [Text.isSpaceOrTab, hspace, htab]
        rw [afterMarker_of_head hc, List.cons_append,
          afterMarker_of_head (t := c :: (x ++ r)) hc]

/-- The marker takes the same off a body line that fits as off the opening line. -/
theorem afterMarker_carry (base column : Int) (hne : carry x line ≠ [])
    (hhead : ((carry x line).head?).any Text.isSpaceOrTab → (x.head?).any Text.isSpaceOrTab) :
    afterMarker base column (carry x line) =
      (carry (afterMarker base column x).1 line, (afterMarker base column x).2) := by
  cases x with
  | nil =>
    refine afterMarker_of_head fun hblank => ?_
    exact absurd (hhead hblank) Bool.false_ne_true
  | cons c x =>
    have hcarry := carry_cons_of_ne_nil hne
    by_cases hspace : c = ' '
    · rw [hcarry, hspace]
      rfl
    · by_cases htab : c = '\t'
      · -- A tab is taken off both lines or off neither, as the column says.
        rw [hcarry, htab, show leadChar '\t' = '\t' from rfl, afterMarker, afterMarker]
        split
        · rfl
        · rw [← htab, hcarry, htab]
          rfl
      · have hc : ¬((c :: x).head?).any Text.isSpaceOrTab := by
          simp [Text.isSpaceOrTab, hspace, htab]
        rw [afterMarker_of_head hc, afterMarker_of_head fun hblank => hc (hhead hblank)]

end Markdown

end Transclude
