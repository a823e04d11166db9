import Transclude.Proofs.Markdown.Fence
import Transclude.Markdown.Block

/-!
# Markers of containers

Inside a quote a line is what is left of it after the marker, a list item begins with what
is left of its first line. Either way only blanks and the marker are taken off, and a
marker never holds a blank in its middle or a fence character. Whether a text starts with
the marker of a list item depends on the marker and on a blank after it alone, whatever
comes after that.

* `append_of_withoutQuoteMarker`: what a quote takes off a line;
* `ItemMarker.exists_append`: the marker of a list item and what comes after it.
-/

namespace Transclude

namespace Markdown

variable {l first : Line} {t rest : Text} {marker : ItemMarker}

/-- The line is its blanks and its content. -/
theorem Line.exists_blanks_append (l : Line) : ∃ d, Blanks d ∧ l.text = d ++ l.content :=
  ⟨_, blanks_takeWhile l.text, (List.takeWhile_append_dropWhile ..).symm⟩

theorem Line.content_eq {d : Text} (hd : Blanks d) (h : l.text = d ++ t) :
    l.content = t.dropWhile Text.isSpaceOrTab := by
  rw [content, h, dropWhile_append hd]

/-! ## Block quotes -/

/-- What a quote takes off a line: blanks, the marker and perhaps a blank. -/
theorem append_of_withoutQuoteMarker (h : withoutQuoteMarker l = some first) :
    ∃ x, (∀ c ∈ x, Text.isSpaceOrTab c ∨ c = '>') ∧ l.text = x ++ first.text := by
  obtain ⟨d, hd, htext⟩ := l.exists_blanks_append
  have hmarker : ∀ c ∈ d ++ ['>'], Text.isSpaceOrTab c ∨ c = '>' := fun c hc =>
    (List.mem_append.1 hc).elim (fun hc => .inl (hd c hc)) fun hc => .inr (List.mem_singleton.1 hc)
  have hblank {b : Char} (hb : Text.isSpaceOrTab b) :
      ∀ c ∈ d ++ ['>', b], Text.isSpaceOrTab c ∨ c = '>' := fun c hc => by
    rw [List.append_cons, List.mem_append, List.mem_singleton] at hc
    exact hc.elim (hmarker c) fun hc => .inl (hc ▸ hb)
  unfold withoutQuoteMarker at h
  split at h
  · rename_i t hcontent
    rw [hcontent] at htext
    dsimp only at h
    split at h
    · rename_i rest
      rw [← Option.some.inj h]
      exact ⟨d ++ ['>', ' '], hblank rfl, by rw [htext, List.append_assoc]; rfl⟩
    · rename_i rest
      split at h
      · rw [← Option.some.inj h]
        exact ⟨d ++ ['>', '\t'], hblank rfl, by rw [htext, List.append_assoc]; rfl⟩
      · rw [← Option.some.inj h]
        exact ⟨d ++ ['>'], hmarker, by rw [htext, List.append_assoc]; rfl⟩
    · rw [← Option.some.inj h]
      exact ⟨d ++ ['>'], hmarker, by rw [htext, List.append_assoc]; rfl⟩
  · exact nomatch h

/-! ## List items -/

/-- The characters of which the markers of list items consist. -/
structure IsMark (c : Char) : Prop where
  isSpaceOrTab : Text.isSpaceOrTab c = false
  ne_quote : c ≠ '>'
  ne_tag : c ≠ '<'
  ne_heading : c ≠ '#'
  not_isFenceChar : ¬IsFenceChar c

namespace ItemMarker

/-- The marker with another text after it. -/
def withRest (marker : ItemMarker) (rest : Text) : ItemMarker :=
  { marker with rest }

/-- A text that starts with the marker of a list item. -/
structure Starts (marker : ItemMarker) (mark t : Text) : Prop where
  eq : t = mark ++ marker.rest
  length : mark.length = marker.width
  ne_nil : mark ≠ []
  isMark : ∀ c ∈ mark, IsMark c
  canFollow : canFollow marker.rest

theorem isMark_of_isDigit {c : Char} (h : c.isDigit) : IsMark c := by
  refine ⟨Bool.eq_false_iff.2 fun hblank => ?_, ?_, ?_, ?_, ?_⟩
  · rw [Text.isSpaceOrTab, Bool.or_eq_true, decide_eq_true_eq, decide_eq_true_eq] at hblank
    rcases hblank with rfl | rfl <;> revert h <;> decide
  all_goals
    first
      | rintro rfl
        revert h
        decide
      | rintro (rfl | rfl) <;> revert h <;> decide

theorem isMark_of_bullet {c : Char} (h : c = '*' ∨ c = '-' ∨ c = '+') :
    IsMark c ∧ c.isDigit = false := by
  rcases h with rfl | rfl | rfl <;>
    exact ⟨⟨by decide, by decide, by decide, by decide,
      by rintro (h | h) <;> revert h <;> decide⟩, by decide⟩

theorem isMark_of_delimiter {c : Char} (h : c = '.' ∨ c = ')') :
    IsMark c ∧ c.isDigit = false := by
  rcases h with rfl | rfl <;>
    exact ⟨⟨by decide, by decide, by decide, by decide,
      by rintro (h | h) <;> revert h <;> decide⟩, by decide⟩

theorem number?_of_not_isDigit {c : Char} (h : c.isDigit = false) : number? (c :: t) = none := by
  rw [number?, List.takeWhile_cons_of_neg (by rw [h]; exact Bool.false_ne_true)]
  rfl

theorem bullet?_of_isDigit {c : Char} (h : c.isDigit) : bullet? (c :: t) = none := by
  rw [bullet?, if_neg]
  intro hbullet
  simp only [Bool.and_eq_true, Bool.or_eq_true, decide_eq_true_eq, or_assoc] at hbullet
  have := (isMark_of_bullet hbullet.1).2
  rw [h] at this
  cases this

/-- A number and its delimiter. -/
theorem number?_eq_some (h : number? t = some marker) :
    ∃ mark, marker.Starts mark t ∧ (∀ rest, bullet? (mark ++ rest) = none) ∧
      ∀ rest, canFollow rest → number? (mark ++ rest) = some (marker.withRest rest) := by
  unfold number? at h
  dsimp only at h
  split at h
  · exact nomatch h
  · rename_i hdigits
    split at h
    · exact nomatch h
    · rename_i c rest hdrop
      split at h
      · rename_i hc
        simp only [Bool.and_eq_true, Bool.or_eq_true, decide_eq_true_eq] at hc
        have hdelimiter := isMark_of_delimiter hc.1
        have hall := (Text.isRun_takeWhile Char.isDigit t).all
        have ht := List.prefix_iff_eq_append.1 (List.takeWhile_prefix Char.isDigit (l := t))
        rw [hdrop] at ht
        -- From here on the digits and the delimiter are all that matters of the text.
        generalize t.takeWhile Char.isDigit = digits at h hdigits hall ht
        obtain ⟨d, digits, rfl⟩ : ∃ d digits', digits = d :: digits' := by
          cases digits with
          | nil => exact absurd rfl hdigits
          | cons d digits => exact ⟨d, digits, rfl⟩
        have happend (rest : Text) : (d :: digits ++ [c]) ++ rest = (d :: digits) ++ c :: rest := by
          rw [List.append_assoc, List.singleton_append]
        rw [← Option.some.inj h]
        refine ⟨d :: digits ++ [c], ⟨?_, ?_, List.cons_ne_nil _ _, ?_, hc.2⟩, fun rest => ?_,
          fun rest hrest => ?_⟩
        · rw [happend, ht]
        · rw [List.length_append, List.length_singleton]
        · intro e he
          rw [List.mem_append, List.mem_singleton] at he
          exact he.elim (fun he => isMark_of_isDigit (hall e he)) fun he => he ▸ hdelimiter.1
        · rw [happend, List.cons_append, bullet?_of_isDigit (hall d List.mem_cons_self)]
        · have hrun : Text.IsRun Char.isDigit (d :: digits) (c :: rest) :=
            ⟨hall, fun _ he => Option.some.inj he ▸ hdelimiter.2⟩
          rw [happend, number?, hrun.takeWhile_eq]
          rw [if_neg hdigits, List.drop_left]
          dsimp only
          rw [if_pos]
          · rfl
          · simp only [Bool.and_eq_true, Bool.or_eq_true, decide_eq_true_eq]
            exact ⟨hc.1, hrest⟩
      · exact nomatch h

/-- A bullet. -/
theorem bullet?_eq_some (h : bullet? t = some marker) :
    ∃ mark, marker.Starts mark t ∧ (∀ rest, number? (mark ++ rest) = none) ∧
      ∀ rest, canFollow rest → bullet? (mark ++ rest) = some (marker.withRest rest) := by
  unfold bullet? at h
  split at h
  · cases h
  · rename_i c rest
    split at h
    · rename_i hc
      simp only [Bool.and_eq_true, Bool.or_eq_true, decide_eq_true_eq, or_assoc] at hc
      have hbullet := isMark_of_bullet hc.1
      rw [← Option.some.inj h]
      refine ⟨[c], ⟨rfl, rfl, List.cons_ne_nil _ _, ?_, hc.2⟩, fun rest => ?_,
        fun rest hrest => ?_⟩
      · intro e he
        rw [List.mem_singleton.1 he]
        exact hbullet.1
      · rw [List.singleton_append, number?_of_not_isDigit hbullet.2]
      · rw [List.singleton_append, bullet?, if_pos]
        · rfl
        · simp only [Bool.and_eq_true, Bool.or_eq_true, decide_eq_true_eq, or_assoc]
          exact ⟨hc.1, hrest⟩
    · cases h

/-- The marker of a list item and what comes after it, for which another text can stand. -/
theorem exists_append (h : ofText? t = some marker) :
    ∃ mark, marker.Starts mark t ∧ ∀ rest, canFollow rest →
      number? (mark ++ rest) = (number? t).map (·.withRest rest) ∧
        bullet? (mark ++ rest) = (bullet? t).map (·.withRest rest) := by
  rw [ofText?] at h
  split at h
  · rename_i marker' hnumber
    rw [Option.some.inj h] at hnumber
    obtain ⟨mark, hstarts, hbullet, happend⟩ := number?_eq_some hnumber
    refine ⟨mark, hstarts, fun rest hrest => ⟨?_, ?_⟩⟩
    · rw [happend rest hrest, hnumber, Option.map_some]
    · rw [hbullet, hstarts.eq, hbullet, Option.map_none]
  · -- A bullet is no digit, so what starts with one is no number, whatever comes after it.
    rename_i hnumber
    obtain ⟨mark, hstarts, hnone, happend⟩ := bullet?_eq_some h
    refine ⟨mark, hstarts, fun rest hrest => ⟨?_, ?_⟩⟩
    · rw [hnone, hnumber, Option.map_none]
    · rw [happend rest hrest, h, Option.map_some]

/-- A line that goes on with a list starts one. -/
theorem ofText?_of_continuing? {before : ItemMarker} (h : before.continuing? t = some marker) :
    ofText? t = some marker := by
  rw [continuing?, Option.filter_eq_some_iff] at h
  split at h
  · rw [ofText?, h.1]
  · obtain ⟨mark, hstarts, hnone, -⟩ := bullet?_eq_some h.1
    rw [ofText?, hstarts.eq, hnone, ← hstarts.eq]
    exact h.1

end ItemMarker

end Markdown

end Transclude
