import Transclude.Proofs.Lists
import Transclude.Proofs.Markdown.Document

/-!
# The lines of code blocks

The lines of a fence that a document holds are lines of the document, with markers of containers
before the runs of fence characters. What the code block keeps of the first and the last of them,
the text before the fence and whether the last line closes it, is what it should be, except that
the last line of a fence that is not closed can look as if it closed it.

* `CodeBlock.ofFence_eq_ok_iff`: the code block that a fence is, as far as it has its lines;
* `CodeBlock.ClosingLine`: a line that closes a fence, as far as its text shows;
* `Markdown.FenceLines`: the lines of a document around a fence;
* `Markdown.FenceLines.ofFence_eq`: the code block that the fence is.
-/

namespace Transclude

variable {n k : Nat} {d : Char} {x z s line : Text}

/-! ## Searching and trimming -/

namespace Text

theorem isPrefixOf_replicate (hnk : n ≤ k) :
    (List.replicate n d).isPrefixOf (List.replicate k d ++ s) := by
  rw [List.isPrefixOf_iff_prefix]
  refine List.IsPrefix.trans ?_ (List.prefix_append _ _)
  exact ⟨List.replicate (k - n) d, by rw [List.replicate_append_replicate]; congr; omega⟩

/-- The first run of a character that does not occur before it. -/
theorem offset?_replicate (hz : d ∉ z) (hn : 0 < n) (hnk : n ≤ k) :
    offset? (List.replicate n d) (z ++ (List.replicate k d ++ s)) = some z.length := by
  induction z with
  | nil =>
    obtain ⟨k, rfl⟩ : ∃ j, k = j + 1 := ⟨k - 1, by omega⟩
    have hprefix := isPrefixOf_replicate (d := d) (s := s) hnk
    rw [List.replicate_succ, List.cons_append] at hprefix
    rw [List.nil_append, List.replicate_succ, List.cons_append, offset?, if_pos hprefix]
    rfl
  | cons c z ih =>
    rw [List.mem_cons, not_or] at hz
    obtain ⟨n, rfl⟩ : ∃ j, n = j + 1 := ⟨n - 1, by omega⟩
    rw [List.cons_append, offset?, if_neg, ih hz.2]
    · rfl
    · rw [List.replicate_succ, List.isPrefixOf, beq_eq_false_iff_ne.2 hz.1, Bool.false_and]
      exact Bool.false_ne_true

theorem isBlank_of_isSpaceOrTab {c : Char} (h : isSpaceOrTab c) : isBlank c := by
  rw [isSpaceOrTab, Bool.or_eq_true, decide_eq_true_eq, decide_eq_true_eq] at h
  rcases h with rfl | rfl <;> decide

theorem trimEnd_append {p : Char → Bool} {t : Text} (ht : ∀ c ∈ t, p c)
    (hx : ∀ c ∈ x.getLast?, p c = false) : trimEnd p (x ++ t) = x := by
  rw [trimEnd, List.reverse_append, List.dropWhile_append_of_pos fun c hc =>
    ht c (List.mem_reverse.1 hc)]
  cases hr : x.reverse with
  | nil => rw [List.reverse_eq_nil_iff.1 hr]; rfl
  | cons c r =>
    have hc : p c = false := hx c (by rw [← List.head?_reverse, hr]; rfl)
    rw [List.dropWhile_cons_of_neg (by rw [hc]; exact Bool.false_ne_true), ← hr,
      List.reverse_reverse]

theorem exists_append_trimEnd (p : Char → Bool) (t : Text) :
    ∃ s, (∀ c ∈ s, p c) ∧ t = trimEnd p t ++ s := by
  refine ⟨(t.reverse.takeWhile p).reverse, fun c hc =>
    List.all_eq_true.1 List.all_takeWhile c (List.mem_reverse.1 hc), ?_⟩
  rw [trimEnd, ← List.reverse_append, List.takeWhile_append_dropWhile, List.reverse_reverse]

theorem trimEnd_cons (p : Char → Bool) (c : Char) (t : Text) :
    trimEnd p (c :: t) = if (trimEnd p t).isEmpty && p c then [] else c :: trimEnd p t := by
  rw [trimEnd, trimEnd, List.reverse_cons, List.dropWhile_append]
  cases hdrop : t.reverse.dropWhile p with
  | nil =>
    rw [List.isEmpty_nil, if_pos rfl, List.dropWhile_cons]
    cases p c <;> rfl
  | cons e r =>
    rw [List.isEmpty_cons, if_neg Bool.false_ne_true, List.reverse_append, List.reverse_singleton,
      List.singleton_append, if_neg]
    simp

end Text

open Markdown (IsFenceChar Blanks)

/-! ## What a code block keeps of its lines -/

namespace CodeBlock

theorem beforeMarkup_replicate (hz : d ∉ z) (hn : 0 < n) (hnk : n ≤ k) :
    beforeMarkup (List.replicate n d) (z ++ (List.replicate k d ++ s)) = z := by
  rw [beforeMarkup, Text.offset?_replicate hz hn hnk]
  exact List.take_left

theorem isLeadChar_iff {c : Char} : isLeadChar c ↔ Text.isSpaceOrTab c ∨ c = '>' := by
  rw [isLeadChar, Text.isSpaceOrTab, Bool.or_eq_true, decide_eq_true_eq]

theorem isLeadChar_of_isFenceChar (hd : IsFenceChar d) : isLeadChar d = false := by
  rcases hd with rfl | rfl <;> decide

/-- A line that closes a fence of `n` characters `d`, as far as its text shows: a run that is
    long enough, with markers of quotes before it and white space after it. -/
structure ClosingLine (d : Char) (n : Nat) where
  /-- What stands before the run. -/
  outer : Text
  outer_mark : ∀ c ∈ outer, Text.isSpaceOrTab c ∨ c = '>'
  /-- The length of the run. -/
  run : Nat
  le_run : n ≤ run
  /-- What comes after the run. -/
  rest : Text
  isBlank_rest : ∀ c ∈ rest, Text.isBlank c

namespace ClosingLine

/-- The line itself. -/
def text (c : ClosingLine d n) : Text :=
  c.outer ++ (List.replicate c.run d ++ c.rest)

theorem not_mem_outer (c : ClosingLine d n) (hd : IsFenceChar d) : d ∉ c.outer :=
  hd.not_mem_of_quotes c.outer_mark

/-- A closing line consists of fence characters, white space and markers of quotes. -/
theorem not_mem_text (c : ClosingLine d n) (hd : IsFenceChar d) {e : Char}
    (he : ¬IsFenceChar e ∧ Text.isBlank e = false ∧ e ≠ '>') : e ∉ c.text := by
  obtain ⟨hfence, hblank, hquote⟩ := he
  have hnot : ¬Text.isBlank e := Bool.eq_false_iff.1 hblank
  rw [text, List.mem_append, List.mem_append]
  rintro (h | h | h)
  · exact (c.outer_mark e h).elim (fun h => hnot (Text.isBlank_of_isSpaceOrTab h)) hquote
  · exact hfence (List.eq_of_mem_replicate h ▸ hd)
  · exact hnot (c.isBlank_rest e h)

theorem startsFence (c : ClosingLine d n) (hd : IsFenceChar d) (hn : 0 < n) :
    Markdown.StartsFence (List.replicate c.run d ++ c.rest) :=
  Markdown.Exchange.startsFence_replicate hd (Nat.lt_of_lt_of_le hn c.le_run)

/-- The line that closes a fence of `m` characters in its place. -/
def renew (c : ClosingLine d n) (m : Nat) : ClosingLine d m :=
  if h : m = n then { c with le_run := h ▸ c.le_run }
  else { c with run := m, le_run := Nat.le_refl m, rest := [], isBlank_rest := nofun }

theorem outer_renew (c : ClosingLine d n) (m : Nat) : (c.renew m).outer = c.outer := by
  rw [renew]
  split <;> rfl

theorem text_renew (c : ClosingLine d n) (m : Nat) : (c.renew m).text =
    if m = n then c.text else c.outer ++ List.replicate m d := by
  rw [renew]
  split
  · rfl
  · rw [text, List.append_nil]

/-- A line that closes a fence of `m` characters is kept for the next one of that size. -/
theorem map_text_renew (closing : Option (ClosingLine d n)) {k m : Nat} (h : k = m) :
    (closing.map fun c => c.renew m).toList.map (fun c => (c.renew k).text) =
      closing.toList.map fun c => (c.renew m).text := by
  rw [Option.toList_map, List.map_map]
  exact List.map_congr_left fun c _ => ((c.renew m).text_renew k).trans (if_pos h)

theorem closing_renew (c : ClosingLine d n) (m : Nat)
    (h : Markdown.Closing (List.replicate n d) (List.replicate c.run d ++ c.rest)) :
    Markdown.Closing (List.replicate m d)
      (List.replicate (c.renew m).run d ++ (c.renew m).rest) := by
  rw [renew]
  split
  · rename_i hsame
    show Markdown.Closing (List.replicate m d) (List.replicate c.run d ++ c.rest)
    rw [hsame]
    exact h
  · exact ⟨d, m, m, [], rfl, Nat.le_refl m, rfl, Markdown.blanks_nil⟩

theorem closes (c : ClosingLine d n) (hd : IsFenceChar d) (hn : 0 < n) :
    CodeBlock.closes (List.replicate n d) c.text = .ok true := by
  obtain ⟨z, hz, k, hnk, s, hs⟩ := c
  obtain ⟨n, rfl⟩ : ∃ j, n = j + 1 := ⟨n - 1, by omega⟩
  obtain ⟨k, rfl⟩ : ∃ j, k = j + 1 := ⟨k - 1, by omega⟩
  have hrun : Text.trimEnd Text.isBlank
      ((z ++ (List.replicate (k + 1) d ++ s)).dropWhile isLeadChar) = List.replicate (k + 1) d := by
    rw [List.dropWhile_append_of_pos fun c hc => isLeadChar_iff.2 (hz c hc), List.replicate_succ,
      List.cons_append, List.dropWhile_cons_of_neg
        (by rw [isLeadChar_of_isFenceChar hd]; exact Bool.false_ne_true),
      ← List.cons_append, ← List.replicate_succ]
    refine Text.trimEnd_append hs fun c hc => ?_
    rw [List.eq_of_mem_replicate (List.mem_of_getLast? hc)]
    rcases hd with rfl | rfl <;> decide
  have hprefix := Text.isPrefixOf_replicate (d := d) (s := []) hnk
  rw [List.append_nil] at hprefix
  show Except.ok ((List.replicate (n + 1) d).isPrefixOf (Text.trimEnd Text.isBlank
    ((z ++ (List.replicate (k + 1) d ++ s)).dropWhile isLeadChar)) &&
      (Text.trimEnd Text.isBlank
        ((z ++ (List.replicate (k + 1) d ++ s)).dropWhile isLeadChar)).all (· = d)) = .ok true
  rw [hrun, hprefix, List.all_replicate]
  simp

end ClosingLine

theorem closes_eq_false {markup : Text} (hn : 0 < n) (hmarkup : markup = List.replicate n d)
    (h : closes markup line ≠ .ok true) : closes markup line = .ok false := by
  obtain ⟨n, rfl⟩ : ∃ j, n = j + 1 := ⟨n - 1, by omega⟩
  rw [hmarkup] at h ⊢
  exact congrArg Except.ok (Bool.eq_false_iff.2 fun htrue => h (congrArg Except.ok htrue))

/-- Every line that closes a fence, as far as its text shows, is of this form. -/
theorem exists_closingLine (hn : 0 < n) (h : closes (List.replicate n d) line = .ok true) :
    ∃ c : ClosingLine d n, c.text = line := by
  obtain ⟨n, rfl⟩ : ∃ j, n = j + 1 := ⟨n - 1, by omega⟩
  have hcloses := Except.ok.inj h
  rw [Bool.and_eq_true, List.isPrefixOf_iff_prefix] at hcloses
  obtain ⟨hstarts, hall⟩ := hcloses
  generalize hrun : Text.trimEnd Text.isBlank (line.dropWhile isLeadChar) = run at hstarts hall
  have hreplicate : run = List.replicate run.length d :=
    List.eq_replicate_iff.2 ⟨rfl, fun c hc => of_decide_eq_true (List.all_eq_true.1 hall c hc)⟩
  have hle := hstarts.length_le
  rw [List.length_replicate] at hle
  obtain ⟨rest, hrest, hline⟩ := Text.exists_append_trimEnd Text.isBlank (line.dropWhile isLeadChar)
  rw [hrun] at hline
  refine ⟨⟨line.takeWhile isLeadChar, fun c hc => isLeadChar_iff.1
    (List.all_eq_true.1 List.all_takeWhile c hc), run.length, hle, rest, hrest⟩, ?_⟩
  rw [ClosingLine.text, ← hreplicate, ← hline, List.takeWhile_append_dropWhile]

/-- The code block that a fence is, given its opening line and whether it is closed. -/
def build (f : Markdown.Fence) (opening : Text) (isClosed : Bool) : CodeBlock where
  lang := (splitInfo f.info).1
  metadata := (splitInfo f.info).2
  value := Text.unlines f.body
  startLine := f.start
  endLine := f.stop
  lead := leadOf (beforeMarkup f.markup opening)
  isClosed := isClosed
  markup := f.markup

/-- Whether the last line of a fence closes it. -/
def closedAt (ls : List Text) (f : Markdown.Fence) : Except Failure Bool :=
  if 2 ≤ f.stop - f.start then (lineAt ls (f.stop - 1)).bind (closes f.markup) else .ok false

theorem ofFence_eq_build (ls : List Text) (f : Markdown.Fence) :
    ofFence ls f =
      (lineAt ls f.start).bind fun opening => (closedAt ls f).map (build f opening) := by
  rw [ofFence, closedAt]
  cases lineAt ls f.start with
  | error failure => rfl
  | ok opening =>
    show (if _ then _ else _) = Except.map _ _
    split
    · cases lineAt ls (f.stop - 1) with
      | error failure => rfl
      | ok closing =>
        show (closes f.markup closing >>= _) = Except.map _ (closes f.markup closing)
        cases closes f.markup closing <;> rfl
    · rfl

theorem lineAt_eq {ls : List Text} (h : ls[n]? = some line) : lineAt ls n = .ok line := by
  rw [lineAt, h]

/-- The code block that a fence is whose opening and closing line are known. -/
theorem ofFence_eq {ls : List Text} {f : Markdown.Fence} {isClosed : Bool} (hn : 0 < n)
    (hmarkup : f.markup = List.replicate n d) (hx : d ∉ x)
    (hopening : ls[f.start]? = some (x ++ (f.markup ++ f.info)))
    (hclosed : closedAt ls f = .ok isClosed) :
    ofFence ls f = .ok { build f [] isClosed with lead := leadOf x } := by
  have hlead : beforeMarkup f.markup (x ++ (f.markup ++ f.info)) = x := by
    rw [hmarkup]
    exact beforeMarkup_replicate hx hn (Nat.le_refl n)
  rw [ofFence_eq_build, lineAt_eq hopening, hclosed]
  show Except.ok (build f (x ++ (f.markup ++ f.info)) isClosed) = _
  rw [build, hlead]
  rfl

/-- Whether a fence is closed shows in its last line, if that is not its first. -/
theorem closedAt_eq {ls : List Text} {f : Markdown.Fence} (hlt : f.start + 1 < f.stop)
    (hlast : ls[f.stop - 1]? = some line) : closedAt ls f = closes f.markup line := by
  rw [closedAt, if_pos (by omega), lineAt_eq hlast]
  rfl

theorem closedAt_eq_false {ls : List Text} {f : Markdown.Fence} (hle : f.stop ≤ f.start + 1) :
    closedAt ls f = .ok false := by
  rw [closedAt, if_neg (by omega)]

theorem getElem?_of_lineAt {ls : List Text} (h : lineAt ls n = .ok line) : ls[n]? = some line := by
  rw [lineAt] at h
  split at h
  · rename_i hline
    exact hline.trans (congrArg some (Except.ok.inj h))
  · exact nomatch h

/-- Whether a fence is closed is read off its last line, unless that is its first. -/
theorem closedAt_cases {ls : List Text} {f : Markdown.Fence} {isClosed : Bool}
    (h : closedAt ls f = .ok isClosed) : (f.stop ≤ f.start + 1 ∧ isClosed = false) ∨
      f.start + 2 ≤ f.stop ∧ ∃ line, ls[f.stop - 1]? = some line ∧
        closes f.markup line = .ok isClosed := by
  rw [closedAt] at h
  split at h
  · rename_i hle
    cases hline : lineAt ls (f.stop - 1) with
    | error failure =>
      rw [hline] at h
      exact nomatch h
    | ok line =>
      rw [hline] at h
      exact .inr ⟨by omega, line, getElem?_of_lineAt hline, h⟩
  · exact .inl ⟨by omega, (Except.ok.inj h).symm⟩

/-- The code block that a fence is, if it is one. -/
theorem ofFence_eq_ok_iff {ls : List Text} {f : Markdown.Fence} {b : CodeBlock} :
    ofFence ls f = .ok b ↔ ∃ opening isClosed, ls[f.start]? = some opening ∧
      closedAt ls f = .ok isClosed ∧ b = build f opening isClosed := by
  rw [ofFence_eq_build]
  constructor
  · intro h
    cases hopening : lineAt ls f.start with
    | error failure =>
      rw [hopening] at h
      exact nomatch h
    | ok opening =>
      cases hclosed : closedAt ls f with
      | error failure =>
        rw [hopening, hclosed] at h
        exact nomatch h
      | ok isClosed =>
        rw [hopening, hclosed] at h
        exact ⟨opening, isClosed, getElem?_of_lineAt hopening, rfl, (Except.ok.inj h).symm⟩
  · rintro ⟨opening, isClosed, hopening, hclosed, rfl⟩
    rw [lineAt_eq hopening, hclosed]
    rfl

/-- A code block knows its fence. -/
theorem exists_of_ofFence {ls : List Text} {f : Markdown.Fence} {b : CodeBlock}
    (h : ofFence ls f = .ok b) : ∃ opening isClosed, b = build f opening isClosed := by
  obtain ⟨opening, isClosed, -, -, hbuild⟩ := ofFence_eq_ok_iff.1 h
  exact ⟨opening, isClosed, hbuild⟩

/-- The first and the last line decide which code block a fence is. -/
theorem ofFence_congr {ls ls' : List Text} {f : Markdown.Fence}
    (hopening : ls'[f.start]? = ls[f.start]?) (hclosing : ls'[f.stop - 1]? = ls[f.stop - 1]?) :
    ofFence ls' f = ofFence ls f := by
  rw [ofFence_eq_build, ofFence_eq_build, closedAt, closedAt, lineAt, lineAt, lineAt, lineAt,
    hopening, hclosing]

/-- The same fence in another place is the same code block, in the other place. -/
theorem ofFence_of_eq {ls ls' : List Text} {f g : Markdown.Fence} {b : CodeBlock}
    (hopening : ls'[g.start]? = ls[f.start]?) (hclosing : ls'[g.stop - 1]? = ls[f.stop - 1]?)
    (hlength : g.stop - g.start = f.stop - f.start)
    (hfence : { g with start := f.start, stop := f.stop } = f) (h : ofFence ls f = .ok b) :
    ofFence ls' g = .ok { b with startLine := g.start, endLine := g.stop } := by
  have hmarkup : g.markup = f.markup := by rw [← hfence]
  have hbuild (opening : Text) (isClosed : Bool) : build g opening isClosed =
      { build f opening isClosed with startLine := g.start, endLine := g.stop } := by
    rw [← hfence]
    rfl
  have hclosed : closedAt ls' g = closedAt ls f := by
    rw [closedAt, closedAt, lineAt, lineAt, hclosing, hlength, hmarkup]
  rw [ofFence_eq_build, lineAt] at h ⊢
  rw [hopening, hclosed]
  cases hline : ls[f.start]? with
  | none =>
    rw [hline] at h
    exact nomatch h
  | some opening =>
    rw [hline] at h
    cases hclosed : closedAt ls f with
    | error failure =>
      rw [hclosed] at h
      exact nomatch h
    | ok isClosed =>
      rw [hclosed] at h
      rw [← Except.ok.inj h]
      exact congrArg Except.ok (hbuild opening isClosed)

end CodeBlock

/-! ## The lines around a fence -/

namespace Markdown

/-- The lines of a document around a fence. -/
structure FenceLines (t : Text) (f : Fence) where
  fence : Char
  isFenceChar : IsFenceChar fence
  size : Nat
  size_le : 3 ≤ size
  markup : f.markup = List.replicate size fence
  isInfo : Fence.IsInfo fence f.info
  /-- What stands before the fence in the opening line. -/
  lead : Text
  lead_not : ∀ c ∈ lead, ¬IsFenceChar c
  /-- The lines before the fence, those after its opening line and before its closing line, and
      those after the fence. -/
  before : List Text
  old : List Text
  after : List Text
  /-- The last line, if it looks as if it closed the fence. -/
  closing : Option (CodeBlock.ClosingLine fence size)
  lines : Text.lines t = before ++ (lead ++ (f.markup ++ f.info)) ::
    ((old ++ closing.toList.map CodeBlock.ClosingLine.text) ++ after)
  start : f.start = before.length
  stop : f.stop = before.length + 1 + (old ++ closing.toList.map CodeBlock.ClosingLine.text).length
  /-- If no line looks as if it closed the fence, the last one does not. -/
  not_closes : closing = none → ∀ line ∈ old.getLast?, CodeBlock.closes f.markup line = .ok false

/-- Every fence that a document holds has its lines there. -/
theorem nonempty_fenceLines {t : Text} (ht : t.IsPlain) {f : Fence} (hf : f ∈ fences t) :
    Nonempty (FenceLines t f) := by
  obtain ⟨hi, hordered⟩ := exists_ordered_fences t
  have hlt := (hordered.bounds hf).2.1
  have hholds := findsHeld_sequence nestingLimit {} (documentLines t) f hf
  have hle := (hholds.bounds (numbered_documentLines t)).2
  have hlength := length_documentLines_le ht
  obtain ⟨⟨d, n, hd, hn, hmarkup, hinfo⟩, l, hl, hstart, x, hx, htext⟩ := hholds.opening
  have hopen := getElem?_of_mem_documentLines ht hl
  rw [htext, hstart] at hopen
  obtain ⟨before, tail, hlines, hbefore⟩ := exists_append_of_getElem? hopen
  rw [hlines, List.length_append, List.length_cons] at hlength
  obtain ⟨rest, after, rfl, hrest⟩ :=
    exists_append_of_le (show f.stop - f.start - 1 ≤ tail.length by omega)
  have hstop : f.stop = before.length + 1 + rest.length := by omega
  -- What the code block says about its end goes by the text of the last line, whether the reader
  -- has taken this line as the closing one or not.
  by_cases hcloses : ∃ old last, rest = old ++ [last] ∧ CodeBlock.closes f.markup last = .ok true
  · obtain ⟨old, last, rfl, hlast⟩ := hcloses
    obtain ⟨c, rfl⟩ := CodeBlock.exists_closingLine (by omega) (hmarkup ▸ hlast)
    exact ⟨⟨d, hd, n, hn, hmarkup, hinfo, x, hx, before, old, after, some c, hlines, hbefore.symm,
      hstop, nofun⟩⟩
  · have hrest : rest = rest ++ (none : Option (CodeBlock.ClosingLine d n)).toList.map
      CodeBlock.ClosingLine.text := (List.append_nil _).symm
    rw [hrest] at hlines hstop
    refine ⟨⟨d, hd, n, hn, hmarkup, hinfo, x, hx, before, rest, after, none, hlines, hbefore.symm,
      hstop, fun _ line hline => ?_⟩⟩
    obtain ⟨old, hold⟩ := List.getLast?_eq_some_iff.1 hline
    exact CodeBlock.closes_eq_false (by omega) hmarkup fun htrue => hcloses ⟨old, line, hold, htrue⟩

namespace FenceLines

variable {t : Text} {f : Fence} (h : FenceLines t f)

theorem size_pos : 0 < h.size :=
  Nat.lt_of_lt_of_le (by decide) h.size_le

theorem not_mem_lead : h.fence ∉ h.lead := fun hmem =>
  h.lead_not _ hmem h.isFenceChar

/-- The code block that the fence is. -/
def codeBlock : CodeBlock :=
  { CodeBlock.build f [] h.closing.isSome with lead := CodeBlock.leadOf h.lead }

/-- Whether the fence is closed shows in its last line. -/
theorem closedAt_eq : CodeBlock.closedAt (Text.lines t) f = .ok h.closing.isSome := by
  have hlines := h.lines
  have hstop := h.stop
  have hstart := h.start
  cases hclosing : h.closing with
  | none =>
    have hnot := h.not_closes hclosing
    rw [hclosing, Option.toList_none, List.map_nil, List.append_nil] at hlines hstop
    -- An opening line alone is not looked at; otherwise the last body line decides.
    rcases List.eq_nil_or_concat h.old with hnil | ⟨old, last, hold⟩
    · rw [hnil, List.length_nil] at hstop
      exact CodeBlock.closedAt_eq_false (by omega)
    · rw [hold, List.concat_eq_append] at hlines hstop hnot
      rw [List.length_append, List.length_singleton] at hstop
      refine (CodeBlock.closedAt_eq (by omega) ?_).trans (hnot last List.getLast?_concat)
      rw [hlines, hstop, List.append_assoc, List.singleton_append, ← Nat.add_assoc,
        Nat.add_sub_cancel, getElem?_closing]
  | some c =>
    rw [hclosing, Option.toList_some, List.map_singleton] at hlines hstop
    rw [List.length_append, List.length_singleton] at hstop
    refine (CodeBlock.closedAt_eq (by omega) ?_).trans
      (h.markup ▸ c.closes h.isFenceChar h.size_pos)
    rw [hlines, hstop, List.append_assoc, List.singleton_append, ← Nat.add_assoc,
      Nat.add_sub_cancel, getElem?_closing]

theorem ofFence_eq : CodeBlock.ofFence (Text.lines t) f = .ok h.codeBlock := by
  have hopening : (Text.lines t)[f.start]? = some (h.lead ++ (f.markup ++ f.info)) := by
    rw [h.lines, h.start, Markdown.getElem?_opening]
  exact CodeBlock.ofFence_eq h.size_pos h.markup h.not_mem_lead hopening h.closedAt_eq

end FenceLines

/-- A closed fence shows that it is closed. -/
theorem FenceLines.isSome_closing {t : Text} {f : Fence} (h : FenceLines t f) (ht : t.IsPlain)
    (hf : f ∈ fences t) (hclosed : f.isClosed) : h.closing.isSome := by
  have hholds := findsHeld_sequence nestingLimit {} (documentLines t) f hf
  have hle := hholds.start_add_two_le hclosed
  obtain ⟨l, hl, hstop, z, r, hz, htext, hclosing⟩ :=
    hholds.closing (numbered_documentLines t) hclosed
  obtain ⟨k, s, hnk, rfl, hs⟩ := exists_append_of_closing h.size_pos (h.markup ▸ hclosing)
  have hline := getElem?_of_mem_documentLines ht hl
  rw [show l.number = f.stop - 1 by omega, htext] at hline
  have hcloses := (CodeBlock.ClosingLine.mk z hz k hnk s fun c hc =>
    Text.isBlank_of_isSpaceOrTab (hs c hc)).closes h.isFenceChar h.size_pos
  rw [← h.markup] at hcloses
  exact Except.ok.inj (h.closedAt_eq.symm.trans ((CodeBlock.closedAt_eq hle hline).trans hcloses))

end Markdown

end Transclude
