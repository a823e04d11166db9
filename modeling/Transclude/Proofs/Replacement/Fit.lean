import Mathlib.Order.Bounds.Defs
import Transclude.Replacement

/-!
# The shortest fence that a body cannot close

A body cannot close a fence that it does not hold. The runs of a character that a text holds are
those up to the longest one, so the fence becomes one character longer than the longest run of
the body, and stays as it is if it is that long already. This is the shortest fence that is
possible: every shorter run is shorter than the markup or occurs in the body.

The longest run is found in one scan, which counts the characters of the run that the text behind
it ends with, and starts anew at every other character. A run that the next character makes
longer ends the text up to there, so the count at the end and the longest run so far need each
other (`Replacement.Scanned`).

* `Replacement.Scanned.step`, `Replacement.Scanned.infix_append_iff`: the scan, character by
  character;
* `Replacement.replicate_infix_iff`: the runs that a text holds;
* `Replacement.fitSize_le_iff`: the lengths that a new fence may have;
* `Replacement.fit_shortest`: the new fence is the shortest of these.
-/

namespace Transclude

namespace Replacement

variable {c d : Char} {n k longest run : Nat} {s v : Text}

/-! ## The scan -/

/-- A run that ends with the last character of a text. -/
theorem replicate_suffix_concat_iff :
    List.replicate (k + 1) c <:+ s ++ [d] ↔ d = c ∧ List.replicate k c <:+ s := by
  rw [List.suffix_concat_iff, List.replicate_succ']
  constructor
  · rintro (hnil | ⟨t, happend, hsuffix⟩)
    · exact absurd hnil (List.append_ne_nil_of_right_ne_nil _ (List.cons_ne_nil c []))
    · obtain ⟨hrun, hlast⟩ := List.append_inj' happend rfl
      exact ⟨(List.cons.inj hlast).1.symm, hrun ▸ hsuffix⟩
  · rintro ⟨rfl, hsuffix⟩
    exact .inr ⟨_, rfl, hsuffix⟩

/-- What a scan knows about the text `s` behind it: how long the run of `c` at its end is, and
    how long its longest one. -/
structure Scanned (c : Char) (s : Text) (longest run : Nat) : Prop where
  suffix_iff : ∀ k, List.replicate k c <:+ s ↔ k ≤ run
  infix_iff : ∀ k, List.replicate k c <:+: s ↔ k ≤ longest

theorem scanned_nil (c : Char) : Scanned c [] 0 0 where
  suffix_iff k := by rw [List.suffix_nil, List.replicate_eq_nil_iff, Nat.le_zero]
  infix_iff k := by rw [List.infix_nil, List.replicate_eq_nil_iff, Nat.le_zero]

theorem Scanned.step (h : Scanned c s longest run) (d : Char) :
    Scanned c (s ++ [d]) (max longest (if d = c then run + 1 else 0))
      (if d = c then run + 1 else 0) := by
  have hsuffix : ∀ k, List.replicate k c <:+ s ++ [d] ↔ k ≤ if d = c then run + 1 else 0 := by
    intro k
    cases k with
    | zero => exact iff_of_true List.nil_suffix (Nat.zero_le _)
    | succ k =>
      rw [replicate_suffix_concat_iff, h.suffix_iff]
      split
      · rename_i heq
        rw [and_iff_right heq, Nat.add_le_add_iff_right]
      · rename_i hne
        exact iff_of_false (fun hk => hne hk.1) (Nat.not_succ_le_zero k)
  -- A run of the longer text lies in the shorter one, or it is at the end.
  refine ⟨hsuffix, fun k => ?_⟩
  rw [List.infix_concat_iff, hsuffix, h.infix_iff]
  split <;> omega

/-- The scan goes on through `t`: its result is the longest run of the whole text. -/
theorem Scanned.infix_append_iff (h : Scanned c s longest run) (t : Text) :
    List.replicate k c <:+: s ++ t ↔ k ≤ longestRunFrom c longest run t := by
  induction t generalizing s longest run with
  | nil => rw [List.append_nil, h.infix_iff, longestRunFrom]
  | cons d t ih => rw [List.append_cons, ih (h.step d), longestRunFrom]

/-- A text holds the runs up to its longest one. -/
theorem replicate_infix_iff : List.replicate k c <:+: v ↔ k ≤ longestRun c v :=
  (scanned_nil c).infix_append_iff v

/-! ## The new fence -/

/-- The length of the new fence. -/
def fitSize (c : Char) (n : Nat) (v : Text) : Nat :=
  if longestRun c v < n then n else longestRun c v + 1

/-- A fence may have every length from that of the new one on, and no other: it must not be
    shorter than the markup, and the body must not hold it. -/
theorem fitSize_le_iff : fitSize c n v ≤ k ↔ n ≤ k ∧ ¬List.replicate k c <:+: v := by
  rw [replicate_infix_iff, fitSize]
  split <;> omega

theorem le_fitSize (c : Char) (n : Nat) (v : Text) : n ≤ fitSize c n v :=
  (fitSize_le_iff.1 (Nat.le_refl _)).1

theorem fitSize_pos (hn : 0 < n) : 0 < fitSize c n v :=
  Nat.lt_of_lt_of_le hn (le_fitSize c n v)

/-- The new body does not hold the new fence. -/
theorem not_occurs_fitSize (c : Char) (n : Nat) (v : Text) :
    ¬List.replicate (fitSize c n v) c <:+: v :=
  (fitSize_le_iff.1 (Nat.le_refl _)).2

/-- No run in the new body reaches the length of the new fence. -/
theorem lt_fitSize_of_run (h : List.replicate k c <:+: v) : k < fitSize c n v :=
  Nat.lt_of_not_le fun hle => (fitSize_le_iff.1 hle).2 h

/-- A fence that the body does not hold need not become longer. -/
theorem fitSize_eq_self (h : ¬List.replicate n c <:+: v) : fitSize c n v = n :=
  Nat.le_antisymm (fitSize_le_iff.2 ⟨Nat.le_refl n, h⟩) (le_fitSize c n v)

theorem fitSize_fitSize (c : Char) (n : Nat) (v : Text) :
    fitSize c (fitSize c n v) v = fitSize c n v :=
  fitSize_eq_self (not_occurs_fitSize c n v)

theorem fit_eq (hn : 0 < n) (v : Text) :
    fit (List.replicate n c) v = .ok (List.replicate (fitSize c n v) c) := by
  obtain ⟨n, rfl⟩ : ∃ j, n = j + 1 := ⟨n - 1, by omega⟩
  show Except.ok (if longestRun c v < (List.replicate (n + 1) c).length then
    List.replicate (n + 1) c else List.replicate (longestRun c v + 1) c) = _
  rw [List.length_replicate, fitSize]
  split <;> rfl

/-- The new fence is the shortest run of its character that is at least as long as the markup
    and that the body does not hold: the markup itself, if the body does not hold that. Fitted to
    the same body again, it stays as it is. -/
theorem fit_shortest (hn : 0 < n) (v : Text) : ∃ m,
    fit (List.replicate n c) v = .ok (List.replicate m c) ∧
      IsLeast {k | n ≤ k ∧ ¬List.replicate k c <:+: v} m ∧
      (¬List.replicate n c <:+: v → List.replicate m c = List.replicate n c) ∧
      fit (List.replicate m c) v = .ok (List.replicate m c) := by
  have hleast : IsLeast {k | n ≤ k ∧ ¬List.replicate k c <:+: v} (fitSize c n v) :=
    ⟨⟨le_fitSize c n v, not_occurs_fitSize c n v⟩, fun _ hk => fitSize_le_iff.2 hk⟩
  refine ⟨fitSize c n v, fit_eq hn v, hleast, fun h => ?_, ?_⟩
  · rw [fitSize_eq_self h]
  · rw [fit_eq (fitSize_pos hn), fitSize_fitSize]

/-- The longest run stands at the end of the body, behind a shorter one at its start; and a body
    whose runs are all shorter than the markup. -/
theorem fit_shortest_of_two_bodies :
    let long : Text := "~~~~a~\n~~~~~".toList
    let short : Text := "~~\n~".toList
    fit "~~~".toList long = .ok "~~~~~~".toList ∧
      IsLeast {k | 3 ≤ k ∧ ¬List.replicate k '~' <:+: long} 6 ∧
      fit "~~~~~~".toList long = .ok "~~~~~~".toList ∧
      ¬"~~~".toList <:+: short ∧ fit "~~~".toList short = .ok "~~~".toList := by
  intro long short
  have hpos : 0 < 3 := by decide
  obtain ⟨m, hfit, hleast, -, hagain⟩ := fit_shortest (c := '~') hpos long
  obtain ⟨m', hfit', -, hsame, -⟩ := fit_shortest (c := '~') hpos short
  have hsize : fit "~~~".toList long = .ok (List.replicate 6 '~') := rfl
  have hm : m = 6 := (List.replicate_inj.1 (Except.ok.inj (hfit.symm.trans hsize))).1
  have hnot : ¬"~~~".toList <:+: short := by decide
  subst hm
  exact ⟨hsize, hleast, hagain, hnot, hfit'.trans (congrArg _ (hsame hnot))⟩

end Replacement

end Transclude
