import Mathlib.Logic.Basic
import Transclude.Proofs.LineRange
import Transclude.Proofs.Metadata
import Transclude.Directive
import Transclude.Sandbox

/-!
# Writing directives

Every path and every range that can be written at all can be written as a directive: a
backslash goes before each space of the path, and the range follows after a `#`. The path
may hold number signs, backslashes and what looks like a range. The range that was written
holds no `#`, so the last `#` of the token is the one before it, and a backslash that stands
before a space of the path is doubled by the one that is put in, of which reading takes out
exactly the second.

* `Directive.ofToken_write`: a written token is read back as it was meant;
* `Sandbox.unescapeSpaces_escapeSpaces`: escaped spaces are read back;
* `Directive.ofMetadata_write`: a directive among other tokens is found and read back.
-/

namespace Transclude

namespace Sandbox

/-! ## Paths -/

/-- The text with a backslash before each of its spaces. -/
def escapeSpaces : Text → Text
  | [] => []
  | c :: t => if c = ' ' then '\\' :: ' ' :: escapeSpaces t else c :: escapeSpaces t

variable {t u : Text}

theorem escapeSpaces_ne_nil (h : t ≠ []) : escapeSpaces t ≠ [] := by
  cases t with
  | nil => exact absurd rfl h
  | cons c t =>
    rw [escapeSpaces]
    split <;> exact List.cons_ne_nil _ _

/-- An escaped text does not start with a space. -/
theorem head?_escapeSpaces (t : Text) : (escapeSpaces t).head? ≠ some ' ' := by
  cases t with
  | nil => exact fun h => nomatch h
  | cons c t =>
    rw [escapeSpaces]
    split
    · exact fun h => absurd (Option.some.inj h) (by decide)
    · rename_i hc
      exact fun h => hc (Option.some.inj h)

/-- A character goes as it is, unless it is a backslash before a space. -/
theorem unescapeSpaces_cons {c : Char} (h : u.head? ≠ some ' ') :
    unescapeSpaces (c :: u) = c :: unescapeSpaces u := by
  rw [unescapeSpaces]
  rintro rest - rfl
  exact h rfl

/-- Escaped spaces are read back, whatever stands before them. -/
theorem unescapeSpaces_escapeSpaces (t : Text) : unescapeSpaces (escapeSpaces t) = t := by
  induction t with
  | nil => rfl
  | cons c t ih =>
    rw [escapeSpaces]
    split
    · rename_i hc
      rw [unescapeSpaces, ih, hc]
    · rw [unescapeSpaces_cons (head?_escapeSpaces t), ih]

/-- Escaped text has its backslashes. -/
theorem escapedAfter_escapeSpaces (before : Char) (t : Text) :
    Metadata.EscapedAfter before (escapeSpaces t) := by
  induction t generalizing before with
  | nil => trivial
  | cons c t ih =>
    rw [escapeSpaces]
    split
    · exact ⟨fun h => absurd h (by decide), fun _ => rfl, ih ' '⟩
    · rename_i hc
      exact ⟨fun h => absurd h hc, ih c⟩

/-- A text without spaces that an escaped text starts with is one that the text starts
    with. -/
theorem isPrefixOf_escapeSpaces {word : Text} (hword : ' ' ∉ word) (hback : '\\' ∉ word)
    (h : word.isPrefixOf (escapeSpaces t)) : word <+: t := by
  induction word generalizing t with
  | nil => exact List.nil_prefix
  | cons w word ih =>
    rw [List.mem_cons, not_or] at hword hback
    cases t with
    | nil => exact absurd h (by simp [escapeSpaces])
    | cons c t =>
      rw [escapeSpaces] at h
      split at h
      · -- An escaped space starts with a backslash, which the word does not hold.
        rw [List.isPrefixOf, Bool.and_eq_true, beq_iff_eq] at h
        exact absurd h.1.symm hback.1
      · rw [List.isPrefixOf, Bool.and_eq_true, beq_iff_eq] at h
        rw [h.1]
        exact (List.cons_prefix_cons).2 ⟨rfl, ih hword.2 hback.2 h.2⟩

/-- An escaped path means the path, unless the path starts with the root token. -/
theorem expand_escapeSpaces {rootToken : Text} (hspace : ' ' ∉ rootToken)
    (hback : '\\' ∉ rootToken) (root : Text) (h : ¬ rootToken <+: t) :
    expand rootToken root (escapeSpaces t) = t := by
  rw [expand, substituteRoot, if_neg, unescapeSpaces_escapeSpaces]
  exact fun hprefix => h (isPrefixOf_escapeSpaces hspace hback hprefix)

end Sandbox

namespace Directive

/-! ## Tokens -/

/-- The token that writes a path and a range. -/
def write (key path : Text) (range : LineRange) : Text :=
  key ++ Sandbox.escapeSpaces path ++ '#' :: range.render

/-- Every range can be written but one with a last line and neither a first line nor a dash,
    and no number can be written that has too many digits. -/
structure Writable (range : LineRange) : Prop where
  start_or_dash : range.last.isSome → range.first.isSome ∨ range.dash
  length_first : ∀ n ∈ range.first, (Text.ofNat n).length ≤ Text.numeralLimit
  length_last : ∀ n ∈ range.last, (Text.ofNat n).length ≤ Text.numeralLimit

variable {path key before after : Text} {range : LineRange}

theorem splitAtLastHash_of_not_mem (h : '#' ∉ after) : splitAtLastHash after = none := by
  induction after with
  | nil => rfl
  | cons c after ih =>
    rw [List.mem_cons, not_or] at h
    rw [splitAtLastHash, ih h.2]
    exact if_neg (Ne.symm h.1)

/-- The last `#` is the one after which none comes. -/
theorem splitAtLastHash_append (before : Text) (h : '#' ∉ after) :
    splitAtLastHash (before ++ '#' :: after) = some (before, after) := by
  induction before with
  | nil => rw [List.nil_append, splitAtLastHash, splitAtLastHash_of_not_mem h]; rfl
  | cons c before ih => rw [List.cons_append, splitAtLastHash, ih]

/-- What a written range consists of. -/
theorem mem_render {c : Char} (h : c ∈ range.render) : c = 'L' ∨ c = '-' ∨ c.isDigit = true := by
  have hbound : ∀ last, c ∈ LineRange.renderBound last → c = 'L' ∨ c.isDigit = true := by
    rintro (_ | n) hc
    · exact absurd hc List.not_mem_nil
    · exact (List.mem_cons.1 hc).imp_right Text.isDigit_of_mem_ofNat
  rw [LineRange.render, List.mem_append, List.mem_append] at h
  rcases h with (h | h) | h
  · exact (hbound _ h).imp_right .inr
  · split at h
    · exact .inr (.inl (List.mem_singleton.1 h))
    · exact absurd h List.not_mem_nil
  · exact (hbound _ h).imp_right .inr

theorem not_mem_render {c : Char} (hL : c ≠ 'L') (hdash : c ≠ '-') (hdigit : c.isDigit = false) :
    c ∉ range.render := by
  intro h
  rcases mem_render h with h | h | h
  · exact hL h
  · exact hdash h
  · rw [hdigit] at h
    exact Bool.false_ne_true h

/-- A written token is read back: its path with the backslashes, and its range. -/
theorem ofToken_write (hpath : path ≠ []) (hrange : Writable range) (key : Text)
    (selection : Selection) :
    ofToken key (write key path range) selection =
      .ok ⟨Sandbox.escapeSpaces path, Span.ofRange range, selection, write key path range⟩ := by
  have hscan := LineRange.scan_render hrange.start_or_dash hrange.length_first hrange.length_last
  have hbody : bodyParts (Sandbox.escapeSpaces path ++ '#' :: range.render) =
      .ok (Sandbox.escapeSpaces path, Span.ofRange range) := by
    rw [bodyParts, splitAtLastHash_append _ (not_mem_render (by decide) (by decide) (by decide))]
    simp only [hscan]
  have hne : (Sandbox.escapeSpaces path).isEmpty = false :=
    List.isEmpty_eq_false_iff.2 (Sandbox.escapeSpaces_ne_nil hpath)
  have hparts : tokenParts key (write key path range) =
      .ok (Sandbox.escapeSpaces path, Span.ofRange range) := by
    rw [tokenParts, write, List.append_assoc, List.drop_left, hbody]
    simp only [hne, Bool.false_eq_true, if_false]
  rw [ofToken, hparts]

/-! ## Metadata -/

/-- A written token has no space that ends it. -/
theorem isEscaped_write (hkey : ' ' ∉ key) : Metadata.IsEscaped (write key path range) := by
  have hrange : ' ' ∉ '#' :: range.render :=
    List.not_mem_cons_of_ne_of_not_mem (by decide)
      (not_mem_render (by decide) (by decide) (by decide))
  rw [Metadata.IsEscaped, write, List.append_assoc]
  exact (Metadata.escapedAfter_of_not_mem _ hkey).append
    ((Sandbox.escapedAfter_escapeSpaces _ path).append (Metadata.escapedAfter_of_not_mem _ hrange))

theorem not_endsInBackslash_write : ¬ Metadata.EndsInBackslash (write key path range) := by
  have hrange : '\\' ∉ '#' :: range.render :=
    List.not_mem_cons_of_ne_of_not_mem (by decide)
      (not_mem_render (by decide) (by decide) (by decide))
  intro h
  rw [Metadata.EndsInBackslash, write, List.getLast?_append,
    List.getLast?_eq_some_getLast (List.cons_ne_nil _ _), Option.some_or] at h
  exact hrange (Option.some.inj h ▸ List.getLast_mem _)

/-- A token among others that has the key and comes first of those that have it is the one
    that is found. -/
theorem find?_append_cons {token : Text} {pre post : List Text}
    (hpre : ∀ t ∈ pre, ¬ key <+: t) (htoken : key <+: token) :
    (pre ++ token :: post).find? (key.isPrefixOf ·) = some token := by
  have hnone : pre.find? (key.isPrefixOf ·) = none :=
    List.find?_eq_none.2 fun t ht => by
      rw [List.isPrefixOf_iff_prefix]
      exact hpre t ht
  rw [List.find?_append, hnone, Option.none_or,
    List.find?_cons_of_pos (List.isPrefixOf_iff_prefix.2 htoken)]

/-- The directive in metadata is the one that the token with the key writes. -/
theorem ofMetadata_of_find? {grammar : Grammar} {metadata token : Text} {directive : Directive}
    (hfind : (Metadata.tokens metadata).find? (grammar.fileKey.isPrefixOf ·) = some token)
    (hread : ofToken grammar.fileKey token
      (if grammar.inlineFlag ∈ Metadata.tokens metadata then .sections else .lines) =
        .ok directive) :
    ofMetadata grammar metadata = .ok (some directive) := by
  unfold ofMetadata
  simp only [hfind, hread]

/-- A directive that is written among other tokens is found and read back as it was meant,
    and its path means the path that was written, unless that starts with the root token.
    The other tokens are escaped and do not end in a backslash, and none of those before it
    starts with the file key. -/
theorem ofMetadata_write {pre post : List Text} (hpath : path ≠ []) (hrange : Writable range)
    (hescaped : ∀ t ∈ pre ++ post, Metadata.IsEscaped t ∧ ¬ Metadata.EndsInBackslash t)
    (hpre : ∀ t ∈ pre, ¬ ({} : Grammar).fileKey <+: t) :
    ofMetadata {} (Text.join ' ' (pre ++ [write ({} : Grammar).fileKey path range] ++ post)) =
        .ok (some {
          path := Sandbox.escapeSpaces path
          span := {
            first := range.first.map Int.ofNat
            isOpen := range.dash || range.first.isNone
            last := range.last.map Int.ofNat }
          selection := if ({} : Grammar).inlineFlag ∈ pre ++ post then .sections else .lines
          token := write ({} : Grammar).fileKey path range }) ∧
      (¬ ({} : Grammar).rootToken <+: path → ∀ root,
        Sandbox.expand ({} : Grammar).rootToken root (Sandbox.escapeSpaces path) = path) := by
  have htoken : ({} : Grammar).fileKey <+: write ({} : Grammar).fileKey path range := by
    rw [write, List.append_assoc]
    exact List.prefix_append _ _
  -- The flag does not start with the key, so the written token is not taken for it.
  have hne : ({} : Grammar).inlineFlag ≠ write ({} : Grammar).fileKey path range :=
    fun h => absurd (h ▸ htoken) (by decide)
  have htokens : Metadata.tokens
      (Text.join ' ' (pre ++ [write ({} : Grammar).fileKey path range] ++ post)) =
        pre ++ write ({} : Grammar).fileKey path range :: post := by
    rw [List.append_assoc, List.singleton_append]
    have hall : ∀ t ∈ pre ++ write ({} : Grammar).fileKey path range :: post,
        Metadata.IsEscaped t ∧ ¬ Metadata.EndsInBackslash t := by
      intro t ht
      rw [List.mem_append, List.mem_cons] at ht
      rcases ht with ht | rfl | ht
      · exact hescaped t (List.mem_append_left _ ht)
      · exact ⟨isEscaped_write (by decide), not_endsInBackslash_write⟩
      · exact hescaped t (List.mem_append_right _ ht)
    exact Metadata.tokens_join (List.append_ne_nil_of_right_ne_nil _ (List.cons_ne_nil _ _))
      (fun t ht => (hall t ht).1) fun t ht => (hall t (List.dropLast_subset _ ht)).2
  have hinline : ({} : Grammar).inlineFlag ∈ pre ++ write ({} : Grammar).fileKey path range :: post ↔
      ({} : Grammar).inlineFlag ∈ pre ++ post := by
    rw [List.mem_append, List.mem_cons, List.mem_append, or_iff_right hne]
  refine ⟨?_, fun h root => Sandbox.expand_escapeSpaces (by decide) (by decide) root h⟩
  refine ofMetadata_of_find? (by rw [htokens, find?_append_cons hpre htoken]) ?_
  rw [ofToken_write hpath hrange, htokens, if_congr hinline rfl rfl, Span.ofRange]

/-- A path with a range-like ending, a space and a backslash before a space, between an
    escaped token and the flag. -/
theorem ofMetadata_write_example :
    ofMetadata {} (Text.join ' ' (["a\\ b".toList] ++
        [write ({} : Grammar).fileKey "x#L2 \\ y".toList ⟨some 3, true, none⟩] ++
          ["inline".toList])) =
        .ok (some {
          path := Sandbox.escapeSpaces "x#L2 \\ y".toList
          span := { first := some 3, isOpen := true, last := none }
          selection := .sections
          token := "file=x#L2\\ \\\\ y#L3-".toList }) ∧
      ∀ root, Sandbox.expand ({} : Grammar).rootToken root
        (Sandbox.escapeSpaces "x#L2 \\ y".toList) = "x#L2 \\ y".toList := by
  obtain ⟨hread, hexpand⟩ := @ofMetadata_write "x#L2 \\ y".toList ⟨some 3, true, none⟩
    ["a\\ b".toList] ["inline".toList] (by decide) ⟨fun _ => .inr rfl, by decide, by simp⟩
    (by decide) (by decide)
  exact ⟨hread, hexpand (by decide)⟩

end Directive

end Transclude
