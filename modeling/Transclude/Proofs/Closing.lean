import Transclude.Proofs.Frame
import Transclude.Proofs.Positions

/-!
# The end of a fence

Whether a fence is closed is decided twice. The block structure has taken a line for the closing
line, or has come to the end of the container. A code block goes by the text of the last line, in
which blanks and markers of quotes before the run of fence characters do not count, nor does white
space after it.

Both agree on every fence that is closed. A fence that is not closed is taken for a closed one if
the last line of its body looks as if it closed it: the run may be indented too far, stand behind
a marker that is part of the body, or have other white space than spaces and tabs after it. A new
body then leaves this line of the old one behind.

* `CodeBlock.LooksClosed`: the fences of which the last line looks as if it closed them;
* `CodeBlock.isClosed_iff`: when a code block says that it is closed;
* `CodeBlock.readsEnd_of_find`: the same for all code blocks of a document, and what a new body
  does to their lines.
-/

namespace Transclude

open Markdown (Fence IsFenceChar Left fences seen)

variable {t line s markup : Text} {d : Char} {n : Nat} {f : Fence} {b : CodeBlock}

namespace CodeBlock

/-! ## Lines that look as if they closed a fence -/

/-- The line looks as if it closed the fence with this markup. -/
def LooksClosing (markup line : Text) : Prop :=
  ∃ d ∈ markup.head?, ∃ c : ClosingLine d markup.length, c.text = line

/-- The last body line looks as if it closed the fence. -/
def LooksClosed (f : Fence) : Prop :=
  ∃ line ∈ f.body.getLast?, LooksClosing f.markup line

theorem closes_iff_exists (hd : IsFenceChar d) (hn : 0 < n) :
    closes (List.replicate n d) line = .ok true ↔ ∃ c : ClosingLine d n, c.text = line := by
  refine ⟨exists_closingLine hn, ?_⟩
  rintro ⟨c, rfl⟩
  exact c.closes hd hn

theorem looksClosing_iff (hn : 0 < n) : LooksClosing (List.replicate n d) line ↔
    ∃ c : ClosingLine d n, c.text = line := by
  obtain ⟨n, rfl⟩ : ∃ j, n = j + 1 := ⟨n - 1, by omega⟩
  rw [LooksClosing, List.length_replicate]
  constructor
  · rintro ⟨e, he, hc⟩
    obtain rfl := Option.some.inj he
    exact hc
  · exact fun hc => ⟨d, rfl, hc⟩

theorem closes_append {x : Text} (hx : ∀ c ∈ x, Text.isSpaceOrTab c ∨ c = '>') (s : Text) :
    closes markup (x ++ s) = closes markup s := by
  unfold closes
  rw [List.dropWhile_append_of_pos fun c hc => isLeadChar_iff.2 (hx c hc)]

/-- What goes from a line when it becomes a body line makes no difference. -/
theorem closes_of_left (h : Left line s) : closes markup line = closes markup s := by
  obtain ⟨x, y, n, hx, rfl, rfl⟩ := h
  rw [closes_append hx, closes_append fun c hc => .inl (Markdown.blanks_spaces n c hc)]

/-- A line without carriage returns looks to the block structure as it is. -/
theorem closes_seen_iff (hd : IsFenceChar d) (hn : 0 < n) (hreturn : '\r' ∉ line) :
    closes (List.replicate n d) (seen line) = .ok true ↔
      closes (List.replicate n d) line = .ok true := by
  rw [closes_iff_exists hd hn, closes_iff_exists hd hn]
  constructor
  · rintro ⟨c, hc⟩
    exact c.exists_of_seen hd (Text.whole_of_not_mem hreturn) hc.symm
  · rintro ⟨c, rfl⟩
    exact ⟨c, (Markdown.seen_eq_self hreturn (c.not_mem_text hd (by decide))).symm⟩

/-! ## Whether a block is closed -/

/-- The last line of a fence that is not closed is the last one of its body. -/
theorem exists_last_of_mem {last : Text} (hwhole : ∀ line ∈ (Text.lines t).take f.stop, line.Whole)
    (hf : f ∈ fences t) (hopen : f.isClosed = false) (hlast : f.body.getLast? = some last) :
    ∃ line, (Text.lines t)[f.stop - 1]? = some line ∧ Left last (seen line) := by
  have hholds := Markdown.findsHeld_sequence Markdown.nestingLimit {} _ f hf
  have hstop := hholds.stop_eq
  rw [hopen, if_neg Bool.false_ne_true] at hstop
  rw [List.getLast?_eq_getElem?] at hlast
  have hpos := (List.getElem?_eq_some_iff.1 hlast).1
  obtain ⟨l, hl, hnumber, hleft⟩ := hholds.body (Markdown.numbered_documentLines t) hlast
  obtain ⟨line, hline, hseen⟩ :=
    Markdown.getElem?_of_mem_documentLines_of_whole hwhole hl (by omega)
  rw [hnumber, show f.start + 1 + (f.body.length - 1) = f.stop - 1 by omega] at hline
  exact ⟨line, hline, hseen ▸ hleft⟩

theorem whole_of_no_return (hreturn : '\r' ∉ t) (n : Nat) :
    ∀ line ∈ (Text.lines t).take n, line.Whole := fun _ hline =>
  Text.whole_of_not_mem (Text.no_return_of_mem_lines hreturn (List.mem_of_mem_take hline))

/-- Whether a fence that is not closed is taken for a closed one shows in the last line of its
    body. -/
theorem isClosed_iff_looksClosed (hreturn : '\r' ∉ t) (hf : f ∈ fences t)
    (hopen : f.isClosed = false) (h : ofFence (Text.lines t) f = .ok b) :
    b.isClosed ↔ LooksClosed f := by
  have hholds := Markdown.findsHeld_sequence Markdown.nestingLimit {} _ f hf
  have hstop := hholds.stop_eq
  rw [hopen, if_neg Bool.false_ne_true] at hstop
  obtain ⟨⟨d, n, hd, hn, hmarkup, -⟩, -⟩ := hholds.opening
  obtain ⟨opening, isClosed, -, hclosed, rfl⟩ := ofFence_eq_ok_iff.1 h
  show isClosed = true ↔ _
  cases hlast : f.body.getLast? with
  | none =>
    -- There is only the opening line.
    rw [List.getLast?_eq_none_iff] at hlast
    rw [hlast, List.length_nil] at hstop
    rw [closedAt_eq_false (Nat.le_of_eq hstop)] at hclosed
    rw [LooksClosed, hlast, ← Except.ok.inj hclosed]
    exact ⟨nofun, nofun⟩
  | some last =>
    have hpos := List.length_pos_of_mem (List.mem_of_getLast? hlast)
    obtain ⟨line, hline, hleft⟩ :=
      exists_last_of_mem (whole_of_no_return hreturn _) hf hopen hlast
    rw [closedAt_eq (by omega) hline] at hclosed
    have hreturn' := Text.no_return_of_mem_lines hreturn (List.mem_of_getElem? hline)
    have hlooks : LooksClosing f.markup last ↔ isClosed = true := by
      rw [hmarkup] at hclosed ⊢
      rw [looksClosing_iff (by omega), ← closes_iff_exists hd (by omega), closes_of_left hleft,
        closes_seen_iff hd (by omega) hreturn', hclosed, Except.ok.injEq]
    rw [← hlooks, LooksClosed, hlast]
    exact ⟨fun h => ⟨last, rfl, h⟩, fun ⟨last', hlast', h⟩ => Option.some.inj hlast' ▸ h⟩

/-- A code block is closed if its fence is, or looks as if it were. -/
theorem isClosed_iff (hreturn : '\r' ∉ t) (hf : f ∈ fences t)
    (h : ofFence (Text.lines t) f = .ok b) : b.isClosed ↔ f.isClosed ∨ LooksClosed f := by
  cases hend : f.isClosed with
  | false => rw [isClosed_iff_looksClosed hreturn hf hend h, or_iff_right Bool.false_ne_true]
  | true =>
    obtain ⟨line, hline, hcloses, -⟩ :=
      exists_closing_of_mem hf hend (whole_of_no_return hreturn _)
    have htwo := (Markdown.findsHeld_sequence Markdown.nestingLimit {} _ f hf).start_add_two_le hend
    obtain ⟨opening, isClosed, -, hclosed, rfl⟩ := ofFence_eq_ok_iff.1 h
    rw [closedAt_eq htwo hline, hcloses] at hclosed
    exact iff_of_true (Except.ok.inj hclosed).symm (.inl rfl)

/-! ## A new body -/

/-- A new body for the block takes the place of the `n` lines after line `start`. This line gets
    the fence of the new body, and so does the line after the old one if the block is closed. -/
def Exchanges (t : Text) (b : CodeBlock) (start n : Nat) : Prop :=
  ∃ before opening old rest, Text.lines t = before ++ opening :: (old ++ rest) ∧
    before.length = start ∧ old.length = n ∧
    ∀ v, Replacement.replace t [b.patch v] = .ok (Text.unlines
      (before ++ (b.patch v).newOpening opening :: (Replacement.bodyLines b.lead v ++
        if b.isClosed then rest.modifyHead (b.patch v).newClosing else rest)))

/-- What a code block makes of the end of its fence. -/
structure ReadsEnd (t : Text) (f : Fence) (b : CodeBlock) : Prop where
  isClosed_iff : b.isClosed ↔ f.isClosed ∨ LooksClosed f
  /-- A new body takes the place of the old one, of which the last line stays if it is taken for
      the closing line. -/
  exchanges : b.Exchanges t f.start
    (if b.isClosed = f.isClosed then f.body.length else f.body.length - 1)

theorem Stands.exchanges (h : b.Stands (Text.lines t).length) : b.Exchanges t b.startLine
    (b.endLine - b.startLine - 1 - if b.isClosed then 1 else 0) := by
  obtain ⟨before, opening, old, closing, after, hlines, hclosing, hstart, hstop⟩ :=
    (h.patch []).exists_own
  have hclosing : closing.isSome = b.isClosed := hclosing
  have hstart' : b.startLine = before.length := Int.ofNat.inj hstart
  have hstop' : b.endLine = before.length + (opening :: (old ++ closing.toList)).length :=
    Int.ofNat.inj hstop
  refine ⟨before, opening, old, closing.toList ++ after, ?_, hstart'.symm, ?_, fun v => ?_⟩
  · rw [hlines, List.cons_append, List.append_assoc]
  · rw [List.length_cons, List.length_append] at hstop'
    rw [← hclosing]
    cases closing with
    | none =>
      rw [Option.toList_none, List.length_nil] at hstop'
      show old.length = b.endLine - b.startLine - 1 - 0
      omega
    | some closing =>
      rw [Option.toList_some, List.length_singleton] at hstop'
      show old.length = b.endLine - b.startLine - 1 - 1
      omega
  · have hnew : (if b.isClosed then (closing.toList ++ after).modifyHead (b.patch v).newClosing
        else closing.toList ++ after) = (closing.map (b.patch v).newClosing).toList ++ after := by
      rw [← hclosing]
      cases closing <;> rfl
    rw [hnew, ← List.append_assoc, ← List.cons_append]
    refine Replacement.replace_singleton ?_
    rw [hlines]
    exact (b.patch v).apply_own h.markup_ne hclosing hstart hstop

theorem readsEnd_of_ofFence (hreturn : '\r' ∉ t) (hf : f ∈ fences t)
    (h : ofFence (Text.lines t) f = .ok b) : b.ReadsEnd t f := by
  have hiff := isClosed_iff hreturn hf h
  have hstop := (Markdown.findsHeld_sequence Markdown.nestingLimit {} _ f hf).stop_eq
  obtain ⟨hlt, hmarkup⟩ := Markdown.start_lt_stop_of_mem hf
  have hexchanges := (stands_of_ofFence h hlt hmarkup).exchanges
  obtain ⟨hstart, hend⟩ : b.startLine = f.start ∧ b.endLine = f.stop := by
    obtain ⟨opening, isClosed, rfl⟩ := exists_of_ofFence h
    exact ⟨rfl, rfl⟩
  have hsize : (b.endLine - b.startLine - 1 - if b.isClosed then 1 else 0) =
      if b.isClosed = f.isClosed then f.body.length else f.body.length - 1 := by
    rw [hstart, hend, hstop]
    cases hfence : f.isClosed with
    | true =>
      rw [hiff.2 (.inl hfence), if_pos rfl, if_pos rfl]
      omega
    | false =>
      cases b.isClosed with
      | true =>
        show f.start + 1 + f.body.length - f.start - 1 - 1 = f.body.length - 1
        omega
      | false =>
        show f.start + 1 + f.body.length - f.start - 1 = f.body.length
        omega
  rw [hsize, hstart] at hexchanges
  exact ⟨hiff, hexchanges⟩

/-- The code blocks of a document say that they are closed if their fences are, or look as if they
    were, and a new body goes by what they say. -/
theorem readsEnd_of_find (hreturn : '\r' ∉ t) :
    ∃ bs, find t = .ok bs ∧ List.Forall₂ (fun f b => b.ReadsEnd t f) (fences t) bs := by
  obtain ⟨bs, hfind⟩ := exists_find_of_no_return hreturn
  refine ⟨bs, hfind, List.forall₂_iff_get.2 ?_⟩
  obtain ⟨hlength, hfences⟩ := List.forall₂_iff_get.1 (mapM_eq_ok_iff.1 hfind)
  exact ⟨hlength, fun i hi hi' =>
    readsEnd_of_ofFence hreturn (List.get_mem _ _) (hfences i hi hi')⟩

/-- A closed fence, and one that is not closed and looks as if it were. -/
theorem readsEnd_of_two_fences :
    let t := "> ~~~\n> a\n> ~~~\n- ~~~\n  >~~~".toList
    '\r' ∉ t ∧ (fences t).map Fence.isClosed = [true, false] ∧
      ∃ bs, find t = .ok bs ∧ List.Forall₂ (fun f b => b.ReadsEnd t f) (fences t) bs ∧
        bs.map CodeBlock.isClosed = [true, true] := by
  intro t
  obtain ⟨bs, hfind, hbs⟩ := readsEnd_of_find (t := t) (by decide)
  refine ⟨by decide, by decide +kernel, bs, hfind, hbs, ?_⟩
  have hclosed : (find t).map (List.map CodeBlock.isClosed) = .ok [true, true] := by
    decide +kernel
  rw [hfind] at hclosed
  exact Except.ok.inj hclosed

/-- A run that is indented too far closes no fence. The code block is said to be closed, and a new
    body leaves the run behind. -/
theorem not_closed_of_indented_run :
    let t := "~~~\n    ~~~".toList
    let block : CodeBlock :=
      { lang := none, metadata := none, value := "    ~~~".toList, startLine := 0, endLine := 2,
        markup := "~~~".toList }
    '\r' ∉ t ∧ fences t = [⟨0, 2, "~~~".toList, [], ["    ~~~".toList], false⟩] ∧
      find t = .ok [block] ∧ block.isClosed ∧
      Replacement.replace t [block.patch "new".toList] = .ok "~~~\nnew\n    ~~~".toList := by
  intro t block
  refine ⟨by decide, by decide +kernel, by decide +kernel, rfl, ?_⟩
  rw [Replacement.replace, Replacement.bottomUp, List.mergeSort_singleton]
  decide +kernel

end CodeBlock

end Transclude
