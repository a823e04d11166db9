import Mathlib.Data.List.TakeWhile
import Transclude.Proofs.Markdown.Lapse
import Transclude.Proofs.Markdown.Sequence
import Transclude.Proofs.Text.Pieces

/-!
# Documents that differ in one fence

The lines of a document are its pieces, numbered from zero, except that blanks after the last
line break are no line. A document whose fence is replaced thus has the lines of a site, with
the containers still to be entered.

* `pieces`, `getElem?_pieces`: what the numbers of lines mean;
* `linesOfPieces_append`: the lines of a document, piece by piece;
* `Edit`, `Edit.Correct`: how a fence of a document is exchanged for another;
* `Edit.Correct.fences_eq`: the fences that the other document then holds;
* `Edit.agrees_of_body`: what it takes for the new body to be found.
-/

namespace Transclude

namespace Markdown

variable {n k : Nat} {t c o : Text} {ps qs : List Text} {endLast : Bool} {l : Line}

/-! ## Numbered lines -/

theorem numberLines_append (h : qs ≠ []) :
    numberLines endLast n (ps ++ qs) =
      numberLines true n ps ++ numberLines endLast (n + ps.length) qs := by
  induction ps generalizing n with
  | nil => rfl
  | cons p ps ih =>
    have hne : (ps ++ qs).isEmpty = false :=
      List.isEmpty_eq_false_iff.2 (List.append_ne_nil_of_right_ne_nil _ h)
    rw [List.cons_append, numberLines, numberLines, hne, ih, List.length_cons, Nat.add_assoc,
      Nat.add_comm 1, Bool.not_false, Bool.or_true, Bool.true_or, List.cons_append]

theorem numberLines_shift (endLast : Bool) (n k : Nat) (ps : List Text) :
    numberLines endLast (n + k) ps = (numberLines endLast n ps).map (Line.shift k) := by
  induction ps generalizing n with
  | nil => rfl
  | cons p ps ih =>
    rw [numberLines, numberLines, Nat.add_right_comm, ih]
    rfl

theorem numbered_numberLines (endLast : Bool) (n : Nat) (ps : List Text) :
    Numbered n (numberLines endLast n ps) := by
  induction ps generalizing n with
  | nil => exact trivial
  | cons p ps ih => exact ⟨rfl, ih (n + 1)⟩

theorem length_numberLines (endLast : Bool) (n : Nat) (ps : List Text) :
    (numberLines endLast n ps).length = ps.length := by
  induction ps generalizing n with
  | nil => rfl
  | cons p ps ih => rw [numberLines, List.length_cons, List.length_cons, ih]

/-- The lines that some pieces make, the last of which is one only if it holds more than
    blanks. -/
def linesOfPieces (n : Nat) (ps : List Text) : List Line :=
  if (ps.getLast?.getD []).all Text.isSpaceOrTab then numberLines true n ps.dropLast
  else numberLines false n ps

/-- The lines of a document as the block structure counts them. -/
def pieces (t : Text) : List Text :=
  Text.splitAt '\n' (cleaned t)

theorem documentLines_eq_linesOfPieces (t : Text) : documentLines t = linesOfPieces 0 (pieces t) :=
  rfl

theorem pieces_eq (h : t.IsPlain) : pieces t = Text.lines t := by
  have hcleaned : cleaned t = t := by
    rw [cleaned, Text.unifyBreaks_eq_self h.no_return, Text.unifyAllBreaks_eq_self h.no_return]
    refine (List.map_congr_left fun c hc => ?_).trans (List.map_id' t)
    exact if_neg fun heq : c = '\x00' => h.no_nul (heq ▸ hc)
  rw [pieces, hcleaned, Text.lines_eq_splitAt h.no_return]

theorem documentLines_eq (h : t.IsPlain) :
    documentLines t = linesOfPieces 0 (Text.lines t) := by
  rw [documentLines_eq_linesOfPieces, pieces_eq h]

/-- The block structure does not look at how lines are broken. -/
theorem fences_unifyBreaks (h : '\r' ∉ Text.unifyBreaks t) :
    fences (Text.unifyBreaks t) = fences t := by
  have hcleaned : cleaned (Text.unifyBreaks t) = cleaned t := by
    rw [cleaned, cleaned, Text.unifyBreaks_eq_self h]
  rw [fences, fences, documentLines, documentLines, hcleaned]

theorem linesOfPieces_append (h : qs ≠ []) :
    linesOfPieces n (ps ++ qs) = numberLines true n ps ++ linesOfPieces (n + ps.length) qs := by
  have hlast : (ps ++ qs).getLast?.getD [] = qs.getLast?.getD [] := by
    obtain ⟨q, hq⟩ : ∃ q, qs.getLast? = some q := ⟨_, List.getLast?_eq_some_getLast h⟩
    rw [List.getLast?_append, hq]
    rfl
  rw [linesOfPieces, linesOfPieces, hlast, List.dropLast_append_of_ne_nil h]
  split
  · rcases hqs : qs.dropLast with _ | ⟨q, qs'⟩
    · rw [List.append_nil]
      exact (List.append_nil _).symm
    · exact numberLines_append (List.cons_ne_nil _ _)
  · exact numberLines_append h

/-- Pieces of which the last holds more than blanks are lines even at the end of the
    document. -/
theorem linesOfPieces_append_of_last
    (h : qs = [] → (ps.getLast?.getD []).all Text.isSpaceOrTab = false) :
    linesOfPieces n (ps ++ qs) =
      numberLines (!qs.isEmpty) n ps ++ linesOfPieces (n + ps.length) qs := by
  cases qs with
  | nil =>
    have hnil : linesOfPieces (n + ps.length) [] = [] := rfl
    rw [hnil, List.append_nil, List.append_nil, linesOfPieces, h rfl]
    rfl
  | cons q qs => exact linesOfPieces_append (List.cons_ne_nil q qs)

/-- A line that holds more than blanks is a line even at the end of the document. -/
theorem linesOfPieces_cons (h : c.all Text.isSpaceOrTab = false) (n : Nat) (qs : List Text) :
    linesOfPieces n (c :: qs) =
      { number := n, text := c, indent := contentColumn 0 0 c, isEnded := !qs.isEmpty } ::
        linesOfPieces (n + 1) qs := by
  have happend := @linesOfPieces_append_of_last n [c] qs fun _ => h
  rw [numberLines, List.isEmpty_nil, Bool.not_true, Bool.or_false] at happend
  exact happend

theorem linesOfPieces_shift (n k : Nat) (ps : List Text) :
    linesOfPieces (n + k) ps = (linesOfPieces n ps).map (Line.shift k) := by
  rw [linesOfPieces, linesOfPieces]
  split <;> exact numberLines_shift _ _ _ _

theorem numbered_documentLines (t : Text) : Numbered 0 (documentLines t) := by
  rw [documentLines]
  split <;> exact numbered_numberLines _ _ _

/-- The fences of a document stand one below the other. -/
theorem exists_ordered_fences (t : Text) : ∃ hi, Ordered 0 hi (fences t) :=
  ⟨_, keepsOrder_sequence nestingLimit {} 0 (documentLines t) (numbered_documentLines t)⟩

/-- The last piece is no line if it is blank. -/
theorem length_documentLines (t : Text) : (documentLines t).length =
    if ((pieces t).getLast?.getD []).all Text.isSpaceOrTab then (pieces t).length - 1
    else (pieces t).length := by
  rw [documentLines_eq_linesOfPieces, linesOfPieces]
  split
  · rw [length_numberLines, List.length_dropLast]
  · rw [length_numberLines]

theorem length_documentLines_le (ht : t.IsPlain) :
    (documentLines t).length ≤ (Text.lines t).length := by
  rw [length_documentLines, pieces_eq ht]
  split <;> omega

/-- The text of a line is the piece with its number. -/
theorem getElem?_of_mem_numberLines (h : l ∈ numberLines endLast n ps) :
    n ≤ l.number ∧ ps[l.number - n]? = some l.text := by
  induction ps generalizing n with
  | nil => exact absurd h List.not_mem_nil
  | cons p ps ih =>
    rw [numberLines, List.mem_cons] at h
    rcases h with rfl | h
    · exact ⟨Nat.le_refl n, by rw [Nat.sub_self]; rfl⟩
    · obtain ⟨hle, hp⟩ := ih h
      refine ⟨by omega, ?_⟩
      rw [show l.number - n = l.number - (n + 1) + 1 by omega, List.getElem?_cons_succ, hp]

theorem getElem?_pieces (h : l ∈ documentLines t) : (pieces t)[l.number]? = some l.text := by
  rw [documentLines_eq_linesOfPieces, linesOfPieces] at h
  split at h
  · have := (getElem?_of_mem_numberLines h).2
    rw [Nat.sub_zero, List.getElem?_dropLast] at this
    exact (Option.ite_none_right_eq_some.1 this).2
  · exact (getElem?_of_mem_numberLines h).2

theorem getElem?_of_mem_documentLines (ht : t.IsPlain) (h : l ∈ documentLines t) :
    (Text.lines t)[l.number]? = some l.text :=
  pieces_eq ht ▸ getElem?_pieces h

/-- The body lines of a fence that a plain document holds are plain lines. -/
theorem isLine_body (ht : t.IsPlain) {f : Fence} (hf : f ∈ fences t) :
    ∀ line ∈ f.body, line.IsLine :=
  (findsHeld_sequence nestingLimit {} (documentLines t) f hf).isLine_body fun _ hl =>
    ht.isLine (List.mem_of_getElem? (getElem?_of_mem_documentLines ht hl))

/-! ## The lines around a fence -/

theorem getElem?_opening (before rest : List Text) (o : Text) :
    (before ++ o :: rest)[before.length]? = some o := by
  rw [List.getElem?_append_right (Nat.le_refl _), Nat.sub_self]
  rfl

theorem getElem?_after (before old after : List Text) (o : Text) (i : Nat) :
    (before ++ o :: (old ++ after))[before.length + 1 + old.length + i]? = after[i]? := by
  rw [List.getElem?_append_right (by omega),
    show before.length + 1 + old.length + i - before.length = old.length + i + 1 by omega,
    List.getElem?_cons_succ, List.getElem?_append_right (by omega), Nat.add_sub_cancel_left]

theorem getElem?_closing (before old after : List Text) (o c : Text) :
    (before ++ o :: (old ++ c :: after))[before.length + 1 + old.length]? = some c := by
  rw [List.getElem?_append_right (by omega),
    show before.length + 1 + old.length - before.length = old.length + 1 by omega,
    List.getElem?_cons_succ, getElem?_opening]

/-! ## The site of a fence in a document -/

/-- A piece as a line of the document. -/
def Line.ofPiece (n : Nat) (t : Text) (isEnded : Bool) : Line :=
  { number := n, text := t, indent := contentColumn 0 0 t, isEnded }

/-- The lines of a document around the pieces `o` and `old`. -/
theorem linesOfPieces_eq {before old after : List Text}
    (h : after = [] → ((o :: old).getLast?.getD []).all Text.isSpaceOrTab = false) :
    linesOfPieces 0 (before ++ o :: (old ++ after)) =
      numberLines true 0 before ++ Line.ofPiece before.length o (!after.isEmpty || !old.isEmpty) ::
        (numberLines (!after.isEmpty) (before.length + 1) old ++
          (linesOfPieces (before.length + 1) after).map (Line.shift old.length)) := by
  rw [linesOfPieces_append (List.cons_ne_nil _ _), ← List.cons_append,
    linesOfPieces_append_of_last h, numberLines, List.length_cons, Nat.zero_add,
    ← linesOfPieces_shift, Nat.add_right_comm, Nat.add_assoc, List.cons_append]
  rfl

/-- The pieces of two documents that differ in one fence. -/
structure Edit extends Exchange where
  /-- What stands before the fence in its opening line. -/
  lead : Text
  before : List Text
  /-- The old lines after the opening line. -/
  old : List Text
  /-- The new last line, if it is kept. -/
  closing : List Text
  after : List Text

namespace Edit

variable (d : Edit)

/-- The new lines after the opening line, as they are written. -/
def new : List Text :=
  d.body.map (carry d.lead) ++ d.closing

/-- The pieces of the one document. -/
def pieces : List Text :=
  d.before ++ (d.lead ++ (d.markup ++ d.info)) :: (d.old ++ d.after)

/-- The pieces of the other document. -/
def pieces' : List Text :=
  d.before ++ (d.lead ++ (d.markup' ++ d.info)) :: (d.new ++ d.after)

/-- The lines of both documents. -/
def site : Site where
  before := numberLines true 0 d.before
  opening := .ofPiece d.before.length (d.lead ++ (d.markup ++ d.info))
    (!d.after.isEmpty || !d.old.isEmpty)
  opening' := .ofPiece d.before.length (d.lead ++ (d.markup' ++ d.info))
    (!d.after.isEmpty || !d.new.isEmpty)
  old := numberLines (!d.after.isEmpty) (d.before.length + 1) d.old
  new := numberLines (!d.after.isEmpty) (d.before.length + 1) d.new
  after := (linesOfPieces (d.before.length + 1) d.after).map (Line.shift d.old.length)
  after' := (linesOfPieces (d.before.length + 1) d.after).map (Line.shift d.new.length)
  down := d.old.length
  down' := d.new.length

/-- How the fence ends. A last line that is kept has a run of the fence character after the
    markers of quotes. Without one the last body line holds more than blanks where the document
    ends with it, since blanks there are no line. -/
inductive Ends : Prop where
  | unclosed (hkept : d.isClosed = false) (hclosing : d.closing = [])
      (hlast : d.after = [] → ∀ line ∈ d.body.getLast?, solid line ≠ [])
  | closed {w : List Text} {z q q' : Text} (hkept : d.isClosed = true)
      (hz : ∀ c ∈ z, Text.isSpaceOrTab c ∨ c = '>') (hq : StartsFence q) (hq' : StartsFence q')
      (hcloses : Closing d.markup q → Closing d.markup' q') (hold : d.old = w ++ [z ++ q])
      (hclosing : d.closing = [z ++ q'])

/-- How the fence is exchanged. If `exact`, the new body is to be found as it was written. -/
structure Correct (exact : Prop) : Prop where
  lead : ∀ c ∈ d.lead, ¬IsFenceChar c
  tabs : TabsUpTo 2 d.lead
  suits : d.Suits exact d.lead
  ends : d.Ends

variable {d : Edit} {exact : Prop}

theorem all_isSpaceOrTab_of_mem {e : Char} (he : IsFenceChar e) (hmem : e ∈ c) :
    c.all Text.isSpaceOrTab = false := by
  rw [List.all_eq_false]
  exact ⟨e, hmem, by rw [he.isSpaceOrTab]; exact Bool.false_ne_true⟩

theorem all_append_of_startsFence {z q : Text} (hq : StartsFence q) :
    (z ++ q).all Text.isSpaceOrTab = false := by
  obtain ⟨e, q, he, rfl⟩ := hq
  exact all_isSpaceOrTab_of_mem he (List.mem_append_right z List.mem_cons_self)

theorem all_carry_of_solid {x line : Text} (h : solid line ≠ []) :
    (carry x line).all Text.isSpaceOrTab = false := by
  have hline : line.all Text.isSpaceOrTab = false :=
    Bool.eq_false_iff.2 fun hall => h (List.dropWhile_eq_nil_iff.2 (List.all_eq_true.1 hall))
  induction x with
  | nil => exact hline
  | cons c x ih =>
    have hne : carry (c :: x) line ≠ [] := fun hnil => by
      rw [carry_eq_nil_iff] at hnil
      exact h (congrArg solid hnil.1)
    rw [carry_cons_of_ne_nil hne, List.all_cons, ih, Bool.and_false]

/-- Where the new fence ends the document, its last line is one. -/
theorem Ends.last_new (h : d.Ends) (hafter : d.after = []) :
    (((d.lead ++ (d.markup' ++ d.info)) :: d.new).getLast?.getD []).all Text.isSpaceOrTab =
      false := by
  rw [new]
  cases h with
  | unclosed _ hclosing hlast =>
    rw [hclosing, List.append_nil]
    rcases List.eq_nil_or_concat d.body with hnil | ⟨body, line, hbody⟩
    · rw [hnil]
      exact all_append_of_startsFence d.startsFence'
    · rw [List.concat_eq_append] at hbody
      have hline := hlast hafter line (by rw [hbody]; exact List.getLast?_concat)
      rw [hbody, List.map_append, List.map_singleton, ← List.cons_append, List.getLast?_concat]
      exact all_carry_of_solid hline
  | closed _ _ _ hq' _ _ hclosing =>
    rw [hclosing, ← List.cons_append, List.getLast?_concat]
    exact all_append_of_startsFence hq'

theorem Ends.lines'_site (h : d.Ends) : d.site.lines' = linesOfPieces 0 d.pieces' :=
  (linesOfPieces_eq h.last_new).symm

/-- Where the old fence ends the document, its last line is one, since the fence was found. -/
theorem lines_site
    (hstop : d.before.length + 1 + d.old.length ≤ (linesOfPieces 0 d.pieces).length) :
    d.site.lines = linesOfPieces 0 d.pieces := by
  refine (linesOfPieces_eq fun hafter => Bool.eq_false_iff.2 fun hblank => ?_).symm
  have hlast : (d.pieces.getLast?.getD []).all Text.isSpaceOrTab := by
    rw [pieces, hafter, List.append_nil, List.getLast?_append_cons]
    exact hblank
  rw [linesOfPieces, if_pos hlast, length_numberLines, List.length_dropLast, pieces, hafter,
    List.append_nil, List.length_append, List.length_cons] at hstop
  omega

/-- The new body lines are carried by what stands before the fence. -/
theorem forall₂_carried {r x : Text} (hr : StartsFence r) {endLast : Bool} (n m : Nat)
    (isEnded : Bool) {body : List Text}
    (hlast : endLast = false → ∀ line ∈ body.getLast?, solid line ≠ []) :
    List.Forall₂ (Carried 2 (Line.ofPiece m (x ++ r) isEnded) x) body
      (numberLines endLast n (body.map (carry x))) := by
  induction body generalizing n with
  | nil => exact .nil
  | cons line body ih =>
    refine .cons (carried_of_carry 0 hr (fun hline => ?_) rfl rfl rfl rfl (.inl rfl))
      (ih (n + 1) fun hend l hl => hlast hend l ?_)
    · show (endLast || !(body.map (carry x)).isEmpty) = true
      cases endLast with
      | true => rfl
      | false =>
        cases body with
        | nil => exact absurd hline (hlast rfl line rfl)
        | cons => rfl
    · rw [List.getLast?_cons, hl]
      rfl

theorem numberLines_append_singleton (endLast : Bool) (n : Nat) (ps : List Text) (c : Text) :
    numberLines endLast n (ps ++ [c]) =
      numberLines true n ps ++ [Line.ofPiece (n + ps.length) c endLast] := by
  rw [numberLines_append (List.cons_ne_nil c []), numberLines, List.isEmpty_nil, Bool.not_true,
    Bool.or_false]
  rfl

/-- In the document itself, no container being entered, the lines show the picture. -/
theorem Correct.site (h : d.Correct exact) : d.site.Correct d.toExchange exact 2 d.lead := by
  refine ⟨⟨rfl, d.startsFence, h.lead, Nat.le_refl 2, fun _ => rfl, h.tabs⟩,
    ⟨rfl, rfl, contentColumn_append_fence d.startsFence d.startsFence', rfl⟩, rfl, h.suits, ?_,
    .moved _⟩
  -- The body lines are carried, since the lead is written in front of each. An unclosed fence that
  -- ends the document needs a last line that is one.
  have hcarried {endLast : Bool}
      (hlast : endLast = false → ∀ line ∈ d.body.getLast?, solid line ≠ []) :
      List.Forall₂ (Kept exact 2 d.site.opening d.lead) d.body
        (numberLines endLast (d.before.length + 1) (d.body.map (carry d.lead))) :=
    (forall₂_carried d.startsFence _ _ _ hlast).imp fun _ _ => .inl
  have hnew : d.site.new = numberLines (!d.after.isEmpty) (d.before.length + 1)
      (d.body.map (carry d.lead) ++ d.closing) := rfl
  have hold : d.site.old = numberLines (!d.after.isEmpty) (d.before.length + 1) d.old := rfl
  rw [hnew, hold]
  cases h.ends with
  | unclosed hkept hclosing hlast =>
    rw [hkept, hclosing, List.append_nil]
    refine .unclosed (hcarried fun hend => hlast ?_)
    rw [Bool.not_eq_false'] at hend
    exact List.isEmpty_iff.1 hend
  | @closed w z q q' hkept hz hq hq' hcloses hold hclosing =>
    rw [hkept, hold, hclosing, numberLines_append_singleton, numberLines_append_singleton]
    refine .closed (hcarried nofun) ⟨z, q, q', hz, hq, hq', hcloses, rfl, rfl, ?_, rfl⟩
    exact contentColumn_append_fence hq hq'

/-- The other document holds the exchanged fence, and apart from that the same fences. -/
theorem Correct.fences_eq (h : d.Correct exact) {t t' : Text} (ht : t.IsPlain) (ht' : t'.IsPlain)
    (hlines : Text.lines t = d.pieces) (hlines' : Text.lines t' = d.pieces') {f : Fence}
    (hf : f ∈ fences t) (hstart : f.start = d.before.length)
    (hstop : f.stop = d.before.length + 1 + d.old.length) (hkept : f.isClosed → d.isClosed) :
    ∃ (fs gs : List Fence) (f f' : Fence),
      Site.Fences d.toExchange exact d.before.length d.old.length d.new.length f f' ∧
        fences t = fs ++ f :: gs.map (Fence.shift d.old.length) ∧
        fences t' = fs ++ f' :: gs.map (Fence.shift d.new.length) := by
  have hdocument : documentLines t = linesOfPieces 0 d.pieces := by
    rw [documentLines_eq ht, hlines]
  have hnumbered := numbered_documentLines t
  have hbounds := (findsHeld_sequence nestingLimit {} (documentLines t) f hf).bounds hnumbered
  have hl : d.site.lines = documentLines t := by
    rw [hdocument]
    refine lines_site ?_
    rw [← hdocument]
    omega
  have hl' : d.site.lines' = documentLines t' := by
    rw [h.ends.lines'_site, documentLines_eq ht', hlines']
  have hlength : d.site.old.length = d.old.length := length_numberLines _ _ _
  have hlength' : d.site.new.length = d.new.length := length_numberLines _ _ _
  have hfinds : d.site.Finds d.toExchange (sequence nestingLimit {} d.site.lines) :=
    ⟨f, by rw [hl]; exact hf, hstart, by rw [hlength]; exact hstop, hkept⟩
  obtain ⟨-, fs, gs, extra, f, f', hfences, hr, hr', -⟩ :=
    (sound_sequence nestingLimit).edits h.site (Int.le_refl 0) (hl ▸ hnumbered) hfinds
  rw [hlength, hlength'] at hfences
  rw [hl] at hr
  rw [hl'] at hr'
  exact ⟨fs, gs, f, f', hfences, congrArg Prod.fst hr, congrArg Prod.fst hr'⟩

/-- If the other document holds a fence with the new body, all body lines agree with the lead,
    apart from those that start with a tab. -/
theorem agrees_of_body (hlead : ∀ c ∈ d.lead, ¬IsFenceChar c) (htabs : TabsUpTo 2 d.lead)
    (hclosing : d.closing ≠ []) {t' : Text} (hl' : d.site.lines' = documentLines t') {f : Fence}
    (hf : f ∈ fences t') (hstart : f.start = d.before.length) (hbody : f.body = d.body)
    {line : Text} (hline : line ∈ d.body) (htab : line.head? ≠ some '\t') :
    Agrees d.lead line := by
  -- A line that does not agree lapses behind the lead, and the fence then has another body or
  -- ends before it.
  by_contra hnot
  obtain ⟨pre, post, hsplit⟩ := List.append_of_mem hline
  have hnumbered : Numbered 0 d.site.lines' := by
    rw [hl']
    exact numbered_documentLines t'
  have hholds : Holds {} d.site.lines' f := by
    rw [hl']
    exact findsHeld_sequence nestingLimit {} (documentLines t') f hf
  have hended : (post.map (carry d.lead) ++ d.closing).isEmpty = false :=
    List.isEmpty_eq_false_iff.2 (List.append_ne_nil_of_right_ne_nil _ hclosing)
  have hnew : d.site.new = numberLines true (d.before.length + 1) (pre.map (carry d.lead)) ++
      Line.ofPiece (d.before.length + 1 + pre.length) (carry d.lead line) true ::
        numberLines (!d.after.isEmpty) (d.before.length + 1 + pre.length + 1)
          (post.map (carry d.lead) ++ d.closing) := by
    show numberLines _ _ (d.body.map (carry d.lead) ++ d.closing) = _
    rw [hsplit, List.map_append, List.map_cons, List.append_assoc, List.cons_append,
      numberLines_append (List.cons_ne_nil _ _), numberLines, List.length_map, hended,
      Bool.not_false, Bool.or_true]
    rfl
  have hcarried : Carried 2 d.site.opening' d.lead line
      (Line.ofPiece (d.before.length + 1 + pre.length) (carry d.lead line) true) :=
    carried_of_carry 0 d.startsFence' (fun _ => rfl) rfl rfl rfl rfl (.inl rfl)
  have hopens : Opens 2 d.site.opening' d.lead (d.markup' ++ d.info) :=
    ⟨rfl, d.startsFence', hlead, Nat.le_refl 2, fun _ => rfl, htabs⟩
  have hlines : d.site.lines' = d.site.before ++ d.site.opening' ::
      (d.site.new ++ d.site.after') := rfl
  rw [hnew, List.append_assoc, List.cons_append] at hlines
  refine hholds.body_ne hnumbered hlines hstart (Int.le_refl 0) hopens htab
    (.still ((length_numberLines ..).trans (List.length_map ..)) hcarried hnot) ?_
  rw [hbody, hsplit, List.getElem?_append_right (Nat.le_refl _), Nat.sub_self]
  rfl

end Edit

end Markdown

end Transclude
