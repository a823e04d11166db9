import Transclude.Proofs.Markdown.Column
import Transclude.Proofs.Text.Runs
import Transclude.Markdown.Fence

/-!
# Opening and closing a fence

A line that opens a fence has as its content a run of the fence character, the markup, and
an info text that does not go on with the run; a line that closes the fence has a run that
is at least as long, and blanks. How far a fence goes is then decided by the first line that
ends its container or closes it.

* `Fence.opening?_eq_some_iff`, `Fence.closes_iff`: the lines that open and close a fence;
* `Fence.bodyLines_append`, `Fence.exists_append_of_bodyLines`: how far a fence goes.
-/

namespace Transclude

namespace Markdown

/-- The characters of which fences consist. -/
def IsFenceChar (c : Char) : Prop :=
  c = backtick ∨ c = '~'

instance (c : Char) : Decidable (IsFenceChar c) :=
  inferInstanceAs (Decidable (_ ∨ _))

namespace IsFenceChar

variable {c : Char} {t : Text}

theorem isSpaceOrTab (h : IsFenceChar c) : Text.isSpaceOrTab c = false := by
  rcases h with rfl | rfl <;> decide

theorem ne_quote (h : IsFenceChar c) : c ≠ '>' := by
  rcases h with rfl | rfl <;> decide

theorem not_mem_of_blanks (h : IsFenceChar c) (ht : Blanks t) : c ∉ t := fun hmem => by
  have := ht c hmem
  rw [h.isSpaceOrTab] at this
  exact nomatch this

/-- Blanks do not go on with a run of fence characters. -/
theorem head?_ne_of_blanks (h : IsFenceChar c) (ht : Blanks t) : t.head? ≠ some c := fun hhead =>
  h.not_mem_of_blanks ht (List.mem_of_mem_head? hhead)

theorem not_mem_of_quotes (h : IsFenceChar c) (ht : ∀ e ∈ t, Text.isSpaceOrTab e ∨ e = '>') :
    c ∉ t := fun hmem => by
  rcases ht c hmem with hblank | hquote
  · rw [h.isSpaceOrTab] at hblank
    exact nomatch hblank
  · exact h.ne_quote hquote

end IsFenceChar

namespace Fence

variable {margin : Margin} {l c c' : Line} {ls old r : List Line} {markup info t : Text}
  {d : Char} {n : Nat}

/-- What can follow the fence characters of an opening line. -/
structure IsInfo (d : Char) (info : Text) : Prop where
  head? : info.head? ≠ some d
  not_mem : d = backtick → backtick ∉ info

theorem isRun_replicate (h : t.head? ≠ some d) :
    Text.IsRun (· = d) (List.replicate n d) t where
  all _ hc := decide_eq_true (List.eq_of_mem_replicate hc)
  stop _ hc := decide_eq_false fun hd => h (hd ▸ hc)

theorem takeWhile_append (h : t.head? ≠ some d) :
    (List.replicate n d ++ t).takeWhile (· = d) = List.replicate n d :=
  (isRun_replicate h).takeWhile_eq

theorem dropWhile_append (h : t.head? ≠ some d) :
    (List.replicate n d ++ t).dropWhile (· = d) = t :=
  (isRun_replicate h).dropWhile_eq

theorem takeWhile_eq_replicate (d : Char) (t : Text) :
    t.takeWhile (· = d) = List.replicate (t.takeWhile (· = d)).length d :=
  List.eq_replicate_iff.2 ⟨rfl, fun c hc =>
    of_decide_eq_true ((Text.isRun_takeWhile (· = d) t).all c hc)⟩

theorem head?_dropWhile (d : Char) (t : Text) : (t.dropWhile (· = d)).head? ≠ some d := fun h =>
  of_decide_eq_false ((Text.isRun_takeWhile (· = d) t).stop d h) rfl

/-- The lines that open a fence. -/
theorem opening?_eq_some_iff :
    opening? margin l = some (markup, info) ↔
      isIndented margin l = false ∧ l.content = markup ++ info ∧
        ∃ d n, IsFenceChar d ∧ 3 ≤ n ∧ markup = List.replicate n d ∧ IsInfo d info := by
  constructor
  · intro h
    rw [opening?] at h
    split at h
    · exact nomatch h
    · rename_i hindented
      rw [Bool.not_eq_true] at hindented
      split at h
      · exact nomatch h
      · rename_i d t hcontent
        dsimp only at h
        split at h
        · rename_i hfence
          obtain ⟨rfl, rfl⟩ := Prod.mk.inj (Option.some.inj h)
          simp only [Bool.and_eq_true, Bool.or_eq_true, decide_eq_true_eq, Bool.not_eq_true',
            List.elem_eq_mem, decide_eq_false_iff_not] at hfence
          refine ⟨hindented, ?_, d, _, ?_, hfence.2, ?_, head?_dropWhile d t, ?_⟩
          · rw [hcontent, List.cons_append, List.takeWhile_append_dropWhile]
          · exact hfence.1.imp And.left id
          · rw [List.length_cons, List.replicate_succ, ← takeWhile_eq_replicate]
          · rintro rfl
            exact hfence.1.elim And.right fun h => absurd h (by decide)
        · exact nomatch h
  · rintro ⟨hindented, hcontent, d, n, hd, hn, rfl, hinfo⟩
    obtain ⟨n, rfl⟩ : ∃ k, n = k + 1 := ⟨n - 1, by omega⟩
    rw [List.replicate_succ, List.cons_append] at hcontent
    rw [opening?, hindented, if_neg Bool.false_ne_true, hcontent]
    dsimp only
    rw [takeWhile_append hinfo.head?, dropWhile_append hinfo.head?, ← List.replicate_succ,
      if_pos]
    simp only [Bool.and_eq_true, Bool.or_eq_true, decide_eq_true_eq, Bool.not_eq_true',
      List.elem_eq_mem, decide_eq_false_iff_not, List.length_replicate]
    refine ⟨?_, hn⟩
    rcases hd with hd | hd
    · exact .inl ⟨hd, hinfo.not_mem hd⟩
    · exact .inr hd

/-- The lines that close a fence. -/
theorem closes_iff (hd : IsFenceChar d) (hn : 0 < n) :
    closes margin (List.replicate n d) l ↔
      isIndented margin l = false ∧
        ∃ k t, n ≤ k ∧ l.content = List.replicate k d ++ t ∧ Blanks t := by
  obtain ⟨n, rfl⟩ : ∃ k, n = k + 1 := ⟨n - 1, by omega⟩
  simp only [closes, List.replicate_succ, List.length_cons, List.length_replicate,
    Bool.and_eq_true, Bool.not_eq_true', decide_eq_true_eq, and_assoc]
  refine and_congr_right fun _ => ⟨fun h => ?_, ?_⟩
  · obtain ⟨hlength, hall⟩ := h
    refine ⟨_, _, hlength, ?_, fun e he => List.all_eq_true.1 hall e he⟩
    rw [← takeWhile_eq_replicate, List.takeWhile_append_dropWhile]
  · rintro ⟨k, t, hk, hcontent, ht⟩
    have hhead : t.head? ≠ some d := hd.head?_ne_of_blanks ht
    rw [hcontent, takeWhile_append hhead, dropWhile_append hhead, List.length_replicate]
    exact ⟨hk, List.all_eq_true.2 ht⟩

/-! ## How far a fence goes -/

/-- A line that does not end the container of the fence is empty or stands in the container. -/
theorem isEmpty_or_le_of_stays (h : endsContainer margin c = false) :
    c.isEmpty ∨ margin ≤ c.indent := by
  rw [endsContainer] at h
  split at h
  · rename_i hempty
    exact .inl hempty
  · exact .inr (Int.not_lt.1 (of_decide_eq_false h))

/-- A fence goes on with lines that belong to its container and do not close it. -/
theorem bodyLines_append (hbody : ∀ b ∈ old, endsContainer margin b = false ∧
      closes margin markup b = false) (r : List Line) :
    bodyLines margin markup (old ++ r) =
      (old ++ (bodyLines margin markup r).1, (bodyLines margin markup r).2) := by
  induction old with
  | nil => rfl
  | cons b old ih =>
    obtain ⟨hb, hbcloses⟩ := hbody b List.mem_cons_self
    rw [List.cons_append, bodyLines, hb, hbcloses, if_neg Bool.false_ne_true,
      if_neg Bool.false_ne_true, ih fun b hb => hbody b (List.mem_cons_of_mem _ hb)]
    rfl

theorem bodyLines_of_closes (hends : endsContainer margin c = false)
    (hcloses : closes margin markup c) : bodyLines margin markup (c :: r) = ([], true) := by
  rw [bodyLines, hends, if_neg Bool.false_ne_true, if_pos hcloses]

theorem bodyLines_of_ends (h : ∀ c ∈ r.head?, endsContainer margin c) :
    bodyLines margin markup r = ([], false) := by
  cases r with
  | nil => rfl
  | cons c r => rw [bodyLines, if_pos (h c rfl)]

/-- The body lines belong to the container of the fence. After them comes the line that closes
    the fence, or the container ends. -/
theorem exists_append_of_bodyLines (margin : Margin) (markup : Text) (ls : List Line) :
    ∃ r, ls = (bodyLines margin markup ls).1 ++ r ∧
      (∀ b ∈ (bodyLines margin markup ls).1, endsContainer margin b = false) ∧
        (((bodyLines margin markup ls).2 = true ∧ ∃ c r', r = c :: r' ∧
            endsContainer margin c = false ∧ closes margin markup c) ∨
          ((bodyLines margin markup ls).2 = false ∧ ∀ c ∈ r.head?, endsContainer margin c)) := by
  induction ls with
  | nil => exact ⟨[], rfl, fun _ hb => absurd hb List.not_mem_nil, .inr ⟨rfl, nofun⟩⟩
  | cons l ls ih =>
    rw [bodyLines]
    split
    · rename_i hends
      exact ⟨l :: ls, rfl, fun _ hb => absurd hb List.not_mem_nil,
        .inr ⟨rfl, fun c hc => Option.some.inj hc ▸ hends⟩⟩
    · rename_i hends
      rw [Bool.not_eq_true] at hends
      split
      · rename_i hcloses
        exact ⟨l :: ls, rfl, fun _ hb => absurd hb List.not_mem_nil,
          .inl ⟨rfl, l, ls, rfl, hends, hcloses⟩⟩
      · obtain ⟨r, hls, hbody, hr⟩ := ih
        exact ⟨r, congrArg (l :: ·) hls, List.forall_mem_cons.2 ⟨hends, hbody⟩, hr⟩

/-- The body of a closed fence comes before a line that closes it. -/
theorem exists_closing_of_bodyLines (h : bodyLines margin markup ls = (old, true)) :
    ∃ c r, ls = old ++ c :: r ∧ endsContainer margin c = false ∧ closes margin markup c := by
  obtain ⟨r, hls, -, ⟨-, c, r', rfl, hc⟩ | ⟨hopen, -⟩⟩ :=
    exists_append_of_bodyLines margin markup ls
  · rw [h] at hls
    exact ⟨c, r', hls, hc⟩
  · rw [h] at hopen
    exact nomatch hopen

theorem stop_ofLines (margin : Margin) (l : Line) (markup info : Text) (ls : List Line) :
    (ofLines margin l markup info ls).1.stop = l.number + 1 +
      ((bodyLines margin markup ls).1.length + if (bodyLines margin markup ls).2 then 1 else 0) :=
  rfl

/-- The line after the body of a closed fence closes it. -/
theorem closes_of_bodyLines {lines : List Line}
    (h : bodyLines margin markup (old ++ c :: r) = (lines, true))
    (hlength : lines.length = old.length) :
    endsContainer margin c = false ∧ closes margin markup c := by
  obtain ⟨c', r', heq, hc'⟩ := exists_closing_of_bodyLines h
  obtain ⟨-, hc⟩ := List.append_inj heq hlength.symm
  rw [(List.cons.inj hc).1]
  exact hc'

/-- The body lines and the closing line are among the lines a fence is read from. -/
theorem length_bodyLines_le (margin : Margin) (markup : Text) (ls : List Line) :
    (bodyLines margin markup ls).1.length +
      (if (bodyLines margin markup ls).2 then 1 else 0) ≤ ls.length := by
  induction ls with
  | nil => exact Nat.le_refl _
  | cons l ls ih =>
    rw [bodyLines]
    split
    · exact Nat.zero_le _
    · split
      · simp only [List.length_nil, List.length_cons, if_true]
        omega
      · simp only [List.length_cons]
        omega

end Fence

end Markdown

end Transclude
