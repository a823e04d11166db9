import Transclude.Proofs.Frame

/-!
# The lines of a document with new bodies

Giving code blocks new bodies is a walk down the lines of a document. The lines between two
blocks stay as they are, and so do all lines of a block that gets no new body. Of any other block
the opening line stays, and the closing line if there is one; in place of the lines between them
come those of the new body, each behind the lead. The fences become longer if the new body holds
a run of their character that could close them.

The walk goes by the positions of the blocks. That the lines at the position of a block are its
own is another matter (`CodeBlock.Placed`).

* `CodeBlock.Becomes`, `CodeBlock.Rewrites`: one step of the walk, and the walk;
* `CodeBlock.Rewrites.eq_rewritten`, `CodeBlock.exists_rewrites`: where it leads, and that it can
  be taken;
* `CodeBlock.replace_patches_eq_ok_iff`: replacing the bodies of blocks is this walk.
-/

namespace Transclude

open Replacement (rewritten valueLines)

variable {t t' v : Text} {v? : Option Text} {b : CodeBlock} {n : Nat}
  {ls ls' own own' : List Text} {qs : List (CodeBlock × Option Text)}

namespace CodeBlock

/-! ## The walk -/

/-- A body line behind the lead; of an empty line the lead is left without white space at
    its end. -/
def behind (lead line : Text) : Text :=
  if line.isEmpty then Text.trimEnd Text.isBlank lead else lead ++ line

/-- What becomes of the lines of a code block that gets a new body, or none. -/
inductive Becomes (b : CodeBlock) : Option Text → List Text → List Text → Prop where
  /-- A block that gets no new body keeps all of its lines. -/
  | kept (own : List Text) : Becomes b none own own
  /-- The lines of a new body come between the opening line and the closing one. -/
  | filled {opening : Text} {old : List Text} {closing : Option Text} {v : Text}
    (hclosing : closing.isSome = b.isClosed) :
    Becomes b (some v) (opening :: (old ++ closing.toList))
      ((b.patch v).newOpening opening ::
        ((valueLines v).map (behind b.lead) ++ (closing.map (b.patch v).newClosing).toList))

/-- What becomes of the lines of a document from line `n` on, of which these are the blocks, each
    with its new body if it gets one. -/
inductive Rewrites : Nat → List (CodeBlock × Option Text) → List Text → List Text → Prop where
  /-- After the last block nothing changes. -/
  | rest (n : Nat) (ls : List Text) : Rewrites n [] ls ls
  /-- Nothing changes down to the next block. -/
  | block {n : Nat} {b : CodeBlock} {v? : Option Text} {qs : List (CodeBlock × Option Text)}
    {gap own own' ls ls' : List Text} (hstart : b.startLine = n + gap.length)
    (hstop : b.endLine = b.startLine + own.length) (hown : b.Becomes v? own own')
    (hrest : Rewrites b.endLine qs ls ls') :
    Rewrites n ((b, v?) :: qs) (gap ++ (own ++ ls)) (gap ++ (own' ++ ls'))

theorem bodyLines_eq_map_behind (lead v : Text) :
    Replacement.bodyLines lead v = (valueLines v).map (behind lead) := by
  rw [Replacement.bodyLines, valueLines]
  split <;> rfl

/-! ## Where it leads -/

theorem Becomes.eq_rewritten (h : b.Becomes (some v) own own')
    (hstop : b.endLine = b.startLine + own.length) (ps : List Patch) :
    rewritten (b.patch v :: ps) b.startLine own = own' := by
  cases h with
  | filled hclosing =>
    rw [← bodyLines_eq_map_behind]
    exact Patch.rewritten_own ps rfl hclosing (congrArg Nat.cast hstop)

/-- The blocks of the walk lie ahead. -/
theorem Rewrites.le_startLine (h : Rewrites n qs ls ls') : ∀ q ∈ qs, n ≤ q.1.startLine := by
  induction h with
  | rest => exact fun q hq => absurd hq List.not_mem_nil
  | block hstart hstop _ _ ih =>
    rw [List.forall_mem_cons]
    exact ⟨by dsimp only; omega, fun q hq => by have := ih q hq; omega⟩

/-- No patch covers a line before its block. -/
theorem not_covers_of_lt {j : Nat} (h : ∀ q ∈ qs, j < q.1.startLine) :
    ∀ p ∈ patches qs, ¬p.Covers j := by
  rintro p hp ⟨hle, -⟩
  obtain ⟨q, hq, v, -, rfl⟩ := exists_of_mem_patches hp
  exact absurd (Int.ofNat_le.1 hle) (Nat.not_le.2 (h q hq))

/-- Lines before all blocks stay as they are. -/
theorem rewritten_before (h : ∀ q ∈ qs, n + ls.length ≤ q.1.startLine) :
    rewritten (patches qs) n ls = ls :=
  Replacement.rewritten_of_not_covers fun _ _ hlt =>
    not_covers_of_lt fun q hq => Nat.lt_of_lt_of_le hlt (h q hq)

/-- There is only one way to walk. -/
theorem Rewrites.eq_rewritten (h : Rewrites n qs ls ls') :
    ls' = rewritten (patches qs) n ls := by
  induction h with
  | rest n ls => exact (Replacement.rewritten_nil n ls).symm
  | @block n b v? qs gap own own' ls ls' hstart hstop hown hrest ih =>
    have hahead := hrest.le_startLine
    have hgap : rewritten (patches ((b, v?) :: qs)) n gap = gap :=
      rewritten_before (List.forall_mem_cons.2 ⟨hstart.ge, fun q hq => by
        have := hahead q hq
        omega⟩)
    rw [Replacement.rewritten_append, Replacement.rewritten_append, hgap, ← hstart, ← hstop]
    congr 1
    cases v? with
    | none =>
      cases hown
      show _ = rewritten (patches qs) b.startLine own ++ rewritten (patches qs) b.endLine ls
      rw [rewritten_before (hstop ▸ hahead), ← ih]
    | some v =>
      show _ = rewritten (b.patch v :: patches qs) b.startLine own ++
        rewritten (b.patch v :: patches qs) b.endLine ls
      rw [hown.eq_rewritten hstop, ih]
      congr 1
      -- The patch of the block does not reach the lines after it.
      refine Replacement.rewritten_congr fun j hle _ line =>
        (Replacement.image_cons_of_not_covers (fun ⟨_, hlt⟩ => ?_) line).symm
      exact absurd (Int.ofNat_lt.1 hlt) (Nat.not_lt.2 hle)

/-! ## That it can be taken -/

/-- The lines from line `n` on, around those of a block that stands there. -/
theorem Stands.exists_becomes (h : b.Stands (n + ls.length)) (hle : n ≤ b.startLine)
    (v? : Option Text) : ∃ gap own own' rest, ls = gap ++ (own ++ rest) ∧
      b.startLine = n + gap.length ∧ b.endLine = b.startLine + own.length ∧
      b.Becomes v? own own' := by
  obtain ⟨gap, opening, old, closing, after, hlines, hclosing, hstart, hstop⟩ :=
    ((h.patch []).up (Int.ofNat_le.2 hle)).exists_own
  have hstart : (b.startLine : Int) - n = gap.length := hstart
  have hstop : (b.endLine : Int) - n = gap.length + (opening :: (old ++ closing.toList)).length :=
    hstop
  cases v? with
  | none => exact ⟨gap, _, _, after, hlines, by omega, by omega, .kept _⟩
  | some v => exact ⟨gap, _, _, after, hlines, by omega, by omega, .filled hclosing⟩

/-- Blocks that stand one below the other can get new bodies. -/
theorem exists_rewrites (hstands : ∀ q ∈ qs, q.1.Stands (n + ls.length))
    (hbelow : (qs.map Prod.fst).Pairwise fun b c => b.endLine ≤ c.startLine)
    (hle : ∀ q ∈ qs, n ≤ q.1.startLine) : ∃ ls', Rewrites n qs ls ls' := by
  induction qs generalizing n ls with
  | nil => exact ⟨ls, .rest n ls⟩
  | cons q qs ih =>
    obtain ⟨b, v?⟩ := q
    rw [List.forall_mem_cons] at hstands hle
    rw [List.map_cons, List.pairwise_cons] at hbelow
    dsimp only at hstands hle hbelow
    obtain ⟨gap, own, own', rest, rfl, hstart, hstop, hown⟩ :=
      hstands.1.exists_becomes hle.1 v?
    have hlength : n + (gap ++ (own ++ rest)).length = b.endLine + rest.length := by
      rw [List.length_append, List.length_append]
      omega
    obtain ⟨rest', hrest⟩ := ih (hlength ▸ hstands.2) hbelow.2 fun q hq =>
      hbelow.1 q.1 (List.mem_map_of_mem hq)
    exact ⟨_, .block hstart hstop hown hrest⟩

/-! ## Replacing bodies -/

/-- Giving code blocks of a document new bodies is the walk down its lines. -/
theorem replace_patches_eq_ok_iff (hfind : find t = .ok (qs.map Prod.fst)) :
    Replacement.replace t (patches qs) = .ok t' ↔
      ∃ ls, Rewrites 0 qs (Text.lines t) ls ∧ t' = Text.unlines ls := by
  rw [replace_patches hfind]
  constructor
  · intro h
    have hstands : ∀ q ∈ qs, q.1.Stands (0 + (Text.lines t).length) := fun q hq => by
      rw [Nat.zero_add]
      exact stands_of_find hfind q.1 (List.mem_map_of_mem hq)
    obtain ⟨ls, hls⟩ :=
      exists_rewrites hstands (pairwise_of_find hfind) fun _ _ => Nat.zero_le _
    exact ⟨ls, hls, by rw [hls.eq_rewritten, Except.ok.inj h]⟩
  · rintro ⟨ls, hls, rfl⟩
    rw [hls.eq_rewritten]

end CodeBlock

end Transclude
