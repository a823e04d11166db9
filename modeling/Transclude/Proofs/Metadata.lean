import Transclude.Metadata
import Transclude.Proofs.Text.Pieces

/-!
# Writing metadata

A list of tokens is written with single spaces between them. It is read back as the same
list if no space could be taken for one that it is not: a space inside a token has a
backslash before it, so that it does not end the token, and a token that another one
follows does not end in a backslash, so that the space after it does.

The tokens of any text are such a list, and written with single spaces between them they are
the text again. So reading and writing are inverse to each other, between all texts on the one
side and these lists of tokens on the other.

* `Metadata.IsEscaped`: every space of a token has its backslash;
* `Metadata.tokens_join`: what was written is read back;
* `Metadata.AreTokens`: the lists that are read back;
* `Metadata.tokens_eq_iff`: the tokens of a text are the one list of this kind that writes it.
-/

namespace Transclude

namespace Metadata

/-- Every space of a text that comes after the character `before` has a backslash before it. -/
def EscapedAfter (before : Char) : Text → Prop
  | [] => True
  | c :: t => (c = ' ' → before = '\\') ∧ EscapedAfter c t

/-- Every space of a token has a backslash before it, in the token itself. -/
def IsEscaped (token : Text) : Prop :=
  EscapedAfter ' ' token

/-- Whether the last character is a backslash. -/
def EndsInBackslash (token : Text) : Prop :=
  token.getLast? = some '\\'

instance instDecidableEscapedAfter (before : Char) : (t : Text) → Decidable (EscapedAfter before t)
  | [] => .isTrue trivial
  | c :: t =>
    have := instDecidableEscapedAfter c t
    inferInstanceAs (Decidable (_ ∧ _))

instance (token : Text) : Decidable (IsEscaped token) :=
  instDecidableEscapedAfter ' ' token

instance (token : Text) : Decidable (EndsInBackslash token) :=
  inferInstanceAs (Decidable (_ = _))

variable {before c : Char} {token t : Text} {ts : List Text}

theorem EscapedAfter.append {s : Text} (hs : EscapedAfter before s)
    (ht : EscapedAfter ((before :: s).getLast (List.cons_ne_nil _ _)) t) :
    EscapedAfter before (s ++ t) := by
  induction s generalizing before with
  | nil => exact ht
  | cons c s ih =>
    refine ⟨hs.1, ih hs.2 ?_⟩
    rwa [List.getLast_cons (List.cons_ne_nil _ _)] at ht

/-- A text without spaces has none to escape. -/
theorem escapedAfter_of_not_mem (before : Char) (h : ' ' ∉ t) : EscapedAfter before t := by
  induction t generalizing before with
  | nil => trivial
  | cons c t ih =>
    rw [List.mem_cons, not_or] at h
    exact ⟨fun hc => absurd hc.symm h.1, ih c h.2⟩

/-- A character that does not end its token goes to the first one. -/
theorem tokensAfter_cons (h : c = ' ' → before = '\\') {first : Text} {rest : List Text}
    (ht : tokensAfter c t = first :: rest) :
    tokensAfter before (c :: t) = (c :: first) :: rest := by
  rw [tokensAfter, if_neg, ht]
  rintro hsplit
  simp only [Bool.and_eq_true, decide_eq_true_eq] at hsplit
  exact hsplit.2 (h hsplit.1)

/-- Escaped text is a single token. -/
theorem tokensAfter_of_escaped (h : EscapedAfter before t) : tokensAfter before t = [t] := by
  induction t generalizing before with
  | nil => rfl
  | cons c t ih => exact tokensAfter_cons h.1 (ih h.2)

/-- A space that follows escaped text, but no backslash, ends the first token. -/
theorem tokensAfter_append_space (h : EscapedAfter before token)
    (hlast : (before :: token).getLast (List.cons_ne_nil _ _) ≠ '\\') :
    tokensAfter before (token ++ ' ' :: t) = token :: tokensAfter ' ' t := by
  induction token generalizing before with
  | nil =>
    rw [List.nil_append, tokensAfter, if_pos]
    rw [Bool.and_eq_true]
    exact ⟨decide_eq_true rfl, decide_eq_true hlast⟩
  | cons c token ih =>
    rw [List.getLast_cons (List.cons_ne_nil _ _)] at hlast
    exact tokensAfter_cons h.1 (ih h.2 hlast)

/-- A token, or nothing at all, after a space ends in a backslash just if the token does. -/
theorem getLast_eq_backslash_iff :
    (' ' :: token).getLast (List.cons_ne_nil _ _) = '\\' ↔ EndsInBackslash token := by
  rcases token with _ | ⟨c, token⟩
  · exact iff_of_false (by decide) (by decide)
  · rw [List.getLast_cons (List.cons_ne_nil _ _), EndsInBackslash,
      List.getLast?_eq_some_getLast (List.cons_ne_nil _ _), Option.some_inj]

/-- Tokens that are written with single spaces between them are read back, if they are
    escaped and none but the last ends in a backslash. -/
theorem tokens_join (hne : ts ≠ []) (hescaped : ∀ token ∈ ts, IsEscaped token)
    (hlast : ∀ token ∈ ts.dropLast, ¬ EndsInBackslash token) :
    tokens (Text.join ' ' ts) = ts := by
  induction ts with
  | nil => exact absurd rfl hne
  | cons token ts ih =>
    have htoken := hescaped token List.mem_cons_self
    rcases ts with _ | ⟨next, ts⟩
    · exact tokensAfter_of_escaped htoken
    · rw [List.dropLast_cons_of_ne_nil (List.cons_ne_nil _ _)] at hlast
      have hend := mt getLast_eq_backslash_iff.1 (hlast token List.mem_cons_self)
      have hrest := ih (List.cons_ne_nil _ _)
        (fun token h => hescaped token (List.mem_cons_of_mem _ h))
        (fun token h => hlast token (List.mem_cons_of_mem _ h))
      rw [Text.join_cons _ _ (List.cons_ne_nil _ _), tokens, tokensAfter_append_space htoken hend]
      exact congrArg (token :: ·) hrest

/-! ## The tokens of a text -/

/-- Text is escaped if the character before each of its spaces is a backslash. -/
theorem escapedAfter_iff : EscapedAfter before token ↔
    ∀ s t, token = s ++ ' ' :: t → (before :: s).getLast (List.cons_ne_nil _ _) = '\\' := by
  induction token generalizing before with
  | nil => exact iff_of_true trivial fun s t h => absurd h.symm (by simp)
  | cons c token ih =>
    rw [EscapedAfter, ih]
    constructor
    · rintro ⟨hc, htoken⟩ (_ | ⟨d, s⟩) t h
      · exact hc (List.cons.inj h).1
      · obtain ⟨rfl, hrest⟩ := List.cons.inj h
        exact htoken s t hrest
    · refine fun h => ⟨?_, fun s t hsplit => ?_⟩
      · rintro rfl
        exact h [] token rfl
      · exact h (c :: s) t (congrArg (c :: ·) hsplit)

/-- A token is escaped if each of its spaces stands right behind a backslash of the token. -/
theorem isEscaped_iff :
    IsEscaped token ↔ ∀ s t, token = s ++ ' ' :: t → EndsInBackslash s := by
  simp only [IsEscaped, escapedAfter_iff, getLast_eq_backslash_iff]

/-- Lists that could be the tokens of a text: there is at least one token, each space of a token
    stands right behind a backslash of the same token, and no token but the last ends in a
    backslash. A token may be empty. -/
structure AreTokens (ts : List Text) : Prop where
  ne_nil : ts ≠ []
  backslash_before : ∀ token ∈ ts, ∀ s t, token = s ++ ' ' :: t → EndsInBackslash s
  not_endsInBackslash : ∀ token ∈ ts.dropLast, ¬ EndsInBackslash token

/-- The tokens of a text `t` that comes after the character `before`, the first one and the
    others. -/
structure SplitsAfter (before : Char) (t first : Text) (rest : List Text) : Prop where
  join_eq : Text.join ' ' (first :: rest) = t
  first_escaped : EscapedAfter before first
  rest_escaped : ∀ token ∈ rest, IsEscaped token
  first_end : rest ≠ [] → (before :: first).getLast (List.cons_ne_nil _ _) ≠ '\\'
  rest_end : ∀ token ∈ rest.dropLast, ¬ EndsInBackslash token

variable {first : Text} {rest : List Text}

/-- A space that no backslash precedes goes between an empty token and the tokens after it. -/
theorem SplitsAfter.space (h : SplitsAfter ' ' t first rest) (hbefore : before ≠ '\\') :
    SplitsAfter before (' ' :: t) [] (first :: rest) where
  join_eq := by rw [Text.join_cons _ _ (List.cons_ne_nil _ _), h.join_eq, List.nil_append]
  first_escaped := trivial
  rest_escaped := List.forall_mem_cons.2 ⟨h.first_escaped, h.rest_escaped⟩
  first_end _ := hbefore
  rest_end := by
    rcases rest with _ | ⟨next, rest⟩
    · exact fun _ hmem => absurd hmem List.not_mem_nil
    · rw [List.dropLast_cons_of_ne_nil (List.cons_ne_nil _ _), List.forall_mem_cons]
      exact ⟨mt getLast_eq_backslash_iff.2 (h.first_end (List.cons_ne_nil _ _)), h.rest_end⟩

/-- Any other character belongs to the first token. -/
theorem SplitsAfter.cons (h : SplitsAfter c t first rest) (hc : c = ' ' → before = '\\') :
    SplitsAfter before (c :: t) (c :: first) rest where
  join_eq := by rw [← h.join_eq]; cases rest <;> rfl
  first_escaped := ⟨hc, h.first_escaped⟩
  rest_escaped := h.rest_escaped
  first_end := h.first_end
  rest_end := h.rest_end

theorem exists_splitsAfter (before : Char) (t : Text) :
    ∃ first rest, tokensAfter before t = first :: rest ∧ SplitsAfter before t first rest := by
  induction t generalizing before with
  | nil =>
    exact ⟨[], [], rfl, rfl, trivial, List.forall_mem_nil _, absurd rfl, List.forall_mem_nil _⟩
  | cons c t ih =>
    obtain ⟨first, rest, htokens, hsplit⟩ := ih c
    by_cases hspace : c = ' ' ∧ before ≠ '\\'
    · obtain ⟨rfl, hbefore⟩ := hspace
      refine ⟨[], first :: rest, ?_, hsplit.space hbefore⟩
      rw [tokensAfter, if_pos (by simpa using hbefore), htokens]
    · have hc : c = ' ' → before = '\\' := fun hc =>
        Decidable.byContradiction fun h => hspace ⟨hc, h⟩
      exact ⟨c :: first, rest, tokensAfter_cons hc htokens, hsplit.cons hc⟩

/-- Splitting metadata is a bijection from the texts to the lists that could be tokens, and
    writing with single spaces in between is its inverse: the tokens of a text are such a list,
    they write the text, and no other such list writes it. -/
theorem tokens_eq_iff (t : Text) (ts : List Text) :
    tokens t = ts ↔ AreTokens ts ∧ Text.join ' ' ts = t := by
  constructor
  · rintro rfl
    obtain ⟨first, rest, htokens, hsplit⟩ := exists_splitsAfter ' ' t
    have hescaped := List.forall_mem_cons.2 ⟨hsplit.first_escaped, hsplit.rest_escaped⟩
    have hends : ∀ token ∈ (first :: rest).dropLast, ¬ EndsInBackslash token :=
      (hsplit.space (by decide : ' ' ≠ '\\')).rest_end
    rw [tokens, htokens]
    exact ⟨⟨List.cons_ne_nil _ _, fun token hmem => isEscaped_iff.1 (hescaped token hmem), hends⟩,
      hsplit.join_eq⟩
  · rintro ⟨h, rfl⟩
    exact tokens_join h.ne_nil (fun token hmem => isEscaped_iff.2 (h.backslash_before token hmem))
      h.not_endsInBackslash

/-- Two spaces in a row, a space after two backslashes and a backslash at the very end. -/
example : tokens " a\\\\ b  c\\".toList = [[], "a\\\\ b".toList, [], "c\\".toList] := by
  decide

end Metadata

end Transclude
