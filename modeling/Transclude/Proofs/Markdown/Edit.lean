import Transclude.Proofs.Markdown.Site

/-!
# Reading a document after an edit

If a sequence holds a fence in the one document of a site, it holds the exchanged fence in the
other, and apart from that the same fences: those before the fence stay where they are, those
after it move as the lines do.

This is shown container by container, along the way on which the fence was found. A block
beside that way either ends before it reaches the fence, and then has not seen anything that
differs, or it comes after the fence and is read from lines that only moved.

* `Site.Replaced`: what a sequence holds in both documents;
* `Edits`: a reader for which exchanging a fence exchanges what it holds;
* `Site.Correct.replaced_ofLines`, `Site.Correct.replaced_quote`: the fence itself, and a quote
  that holds it.
-/

namespace Transclude

namespace Markdown

variable {inner inQuote inItem : Place → List Line → Reading} {place : Place} {k n m m' : Nat}
  {s v : Site} {e : Exchange} {exact : Prop} {x y : Text} {l l' : Line} {ls ls' : List Line}
  {r r' : Reading}

namespace Site

/-- Whether the fence of a site is found in the one document. -/
def Finds (s : Site) (e : Exchange) (r : Reading) : Prop :=
  ∃ f ∈ r.1, f.start = s.opening.number ∧ f.stop = s.opening.number + 1 + s.old.length ∧
    (f.isClosed → e.isClosed)

/-- The fences of both documents, which open with the line number `i` and have `old` and `new`
    further lines. If `exact`, a fence that is closed exactly if a closing line is exchanged has
    the new body, and is closed as before. -/
structure Fences (e : Exchange) (exact : Prop) (i old new : Nat) (f f' : Fence) : Prop where
  start : f.start = i
  stop : f.stop = i + 1 + old
  start' : f'.start = i
  stop' : f'.stop = i + 1 + new
  markup' : f'.markup = e.markup'
  info' : f'.info = e.info
  exact : exact → f.isClosed = e.isClosed → f'.isClosed = f.isClosed ∧ f'.body = e.body

/-- What is held in both documents, with the fence and with what it is exchanged for; `m`
    and `m'` lines go up to the end of the fence. -/
def Replaced (s : Site) (e : Exchange) (exact : Prop) (m m' : Nat) (r r' : Reading) : Prop :=
  ∃ (before after : List Fence) (extra : Nat) (f f' : Fence),
    Fences e exact s.opening.number s.old.length s.new.length f f' ∧
    r = (before ++ f :: after.map (Fence.shift s.down), m + extra) ∧
    r' = (before ++ f' :: after.map (Fence.shift s.down'), m' + extra) ∧
    (Stops s.after → extra = 0)

/-- What comes after the fence can be followed by more that only moved. -/
theorem Fences.replaced_append {f f' : Fence} {t t' : Nat}
    (hf : Fences e exact s.opening.number s.old.length s.new.length f f')
    (before after more : List Fence) (extra : Nat) (ht : t = m + extra) (ht' : t' = m' + extra)
    (hextra : Stops s.after → extra = 0) :
    s.Replaced e exact m m'
      (before ++ f :: after.map (Fence.shift s.down) ++ more.map (Fence.shift s.down), t)
      (before ++ f' :: after.map (Fence.shift s.down') ++ more.map (Fence.shift s.down'), t') := by
  refine ⟨before, after ++ more, extra, f, f', hf, ?_, ?_, hextra⟩
  · rw [List.map_append, List.append_assoc, List.cons_append, ht]
  · rw [List.map_append, List.append_assoc, List.cons_append, ht']

/-! ## The fence itself -/

/-- The new closing line stands where the old one does. -/
theorem endsContainer_of_closings (h : e.Closings l l') {margin : Fence.Margin}
    (hends : Fence.endsContainer margin l = false) : Fence.endsContainer margin l' = false := by
  obtain ⟨z, q, q', -, hq, hq', -, htwin⟩ := h
  rw [Fence.endsContainer, htwin.isEmpty hq] at hends
  rw [Fence.endsContainer, htwin.symm.isEmpty hq', htwin.indent]
  exact hends

/-- The new closing line closes the new fence if the old one closed the old fence. -/
theorem closes_of_closings (h : e.Closings l l') {margin : Fence.Margin}
    (hcloses : Fence.closes margin e.markup l) : Fence.closes margin e.markup' l' := by
  obtain ⟨z, q, q', hz, hq, hq', hclosing, htwin⟩ := h
  obtain ⟨hindented, i, t, hi, hcontent, ht⟩ :=
    (Fence.closes_iff e.isFenceChar (by have := e.size_le; omega)).1 hcloses
  rw [content_append htwin.text hq] at hcontent
  -- Nothing but blanks stands before the run in its container.
  have hsolid : solid z = [] := by
    cases hsz : solid z with
    | nil => rfl
    | cons c z' =>
      obtain ⟨i, rfl⟩ : ∃ i', i = i' + 1 := ⟨i - 1, by have := e.size_le; omega⟩
      rw [hsz, List.replicate_succ] at hcontent
      have hc : c = e.fence := (List.cons.inj hcontent).1
      have hmem : c ∈ solid z := hsz ▸ List.mem_cons_self
      exact absurd (hc ▸ (List.dropWhile_suffix _).mem hmem) (e.isFenceChar.not_mem_of_quotes hz)
  rw [hsolid, List.nil_append] at hcontent
  obtain ⟨d, j, i', t', hmarkup', hle, hq'eq, ht'⟩ :=
    hclosing ⟨e.fence, e.size, i, t, rfl, hi, hcontent, ht⟩
  obtain ⟨rfl, hd⟩ := List.replicate_inj.1 hmarkup'.symm
  obtain rfl := hd.resolve_left (by have := e.size_le'; omega)
  refine (Fence.closes_iff e.isFenceChar (by have := e.size_le'; omega)).2
    ⟨?_, i', t', hle, ?_, ht'⟩
  · rw [Fence.isIndented, htwin.indent]
    exact hindented
  · rw [content_append htwin.text' hq', hsolid, List.nil_append, hq'eq]

theorem map_eq_of_forall₂ {α β : Type} {f : β → α} {as : List α} {bs : List β}
    (h : List.Forall₂ (fun a b => f b = a) as bs) : bs.map f = as := by
  induction h with
  | nil => rfl
  | cons hab _ ih => rw [List.map_cons, hab, ih]

section BodyLines

variable {new : List Line} {margin : Int}

/-- The new fence goes on with the new body lines. -/
theorem goesOn_of_kept (h : List.Forall₂ (Kept exact k s.opening x) e.body new)
    (hx : solid x = []) (hle : margin ≤ s.opening.indent) :
    ∀ b ∈ new, Fence.endsContainer margin b = false ∧ Fence.closes margin e.markup' b = false := by
  intro b hb
  obtain ⟨line, hline, hrun, hkept⟩ :=
    exists_of_forall₂ ((List.forall₂_and_left ..).2 ⟨e.runs, h⟩) hb
  exact (hkept.worn hx).body hle e.isFenceChar (by have := e.size_le'; omega) hrun

/-- The new body lines leave the new body in the fence. -/
theorem map_dropColumns_of_kept (h : List.Forall₂ (Kept exact k s.opening x) e.body new)
    (hx : solid x = []) (hnonneg : 0 ≤ s.opening.indent) (hexact : exact) :
    new.map (·.dropColumns s.opening.indent) = e.body := by
  refine map_eq_of_forall₂ (h.imp fun line b hb => ?_)
  exact (hb.resolve_right fun hworn => hworn.1 hexact).dropColumns hx hnonneg

/-- How far the new fence goes, if the old one is closed. -/
theorem Correct.bodyLines_of_closed (h : s.Correct e exact k x) (hx : solid x = [])
    (hle : margin ≤ s.opening.indent) (hnonneg : 0 ≤ s.opening.indent) (hkept : e.isClosed)
    (hclosed : (Fence.bodyLines margin e.markup (s.old ++ s.after)).2)
    (hlength : (Fence.bodyLines margin e.markup (s.old ++ s.after)).1.length + 1 = s.old.length) :
    ∃ body, Fence.bodyLines margin e.markup' (s.new ++ s.after') = (body, true) ∧
      body.length + 1 = s.new.length ∧
        (exact → body.map (·.dropColumns s.opening.indent) = e.body) := by
  have hrefills := h.refills
  rw [hkept] at hrefills
  generalize s.old = old at hrefills hclosed hlength
  generalize s.new = new at hrefills ⊢
  cases hrefills with
  | @closed old new c c' hbody hclosing =>
    rw [List.length_append, List.length_singleton] at hlength
    rw [List.append_assoc, List.singleton_append] at hclosed hlength
    obtain ⟨hends, hcloses⟩ := Fence.closes_of_bodyLines (Prod.ext rfl hclosed)
      (Nat.succ.inj hlength)
    refine ⟨new, ?_, by rw [List.length_append, List.length_singleton],
      map_dropColumns_of_kept hbody hx hnonneg⟩
    rw [List.append_assoc, List.singleton_append,
      Fence.bodyLines_append (goesOn_of_kept hbody hx hle), Fence.bodyLines_of_closes
        (endsContainer_of_closings hclosing hends) (closes_of_closings hclosing hcloses),
      List.append_nil]

/-- How far the new fence goes, if the old one ends with its container. -/
theorem Correct.bodyLines_of_open (h : s.Correct e exact k x) (hx : solid x = [])
    (hmargin : 0 ≤ margin) (hle : margin ≤ s.opening.indent) (hnonneg : 0 ≤ s.opening.indent)
    (hopen : (Fence.bodyLines margin e.markup (s.old ++ s.after)).2 = false)
    (hlength : (Fence.bodyLines margin e.markup (s.old ++ s.after)).1.length = s.old.length) :
    ∃ body isClosed, Fence.bodyLines margin e.markup' (s.new ++ s.after') = (body, isClosed) ∧
      body.length + (if isClosed then 1 else 0) = s.new.length ∧
        (exact → e.isClosed = false →
          isClosed = false ∧ body.map (·.dropColumns s.opening.indent) = e.body) := by
  obtain ⟨rest, hold, hbelongs, ⟨hclosed, -⟩ | ⟨-, hends⟩⟩ :=
    Fence.exists_append_of_bodyLines margin e.markup (s.old ++ s.after)
  · exact nomatch hopen.symm.trans hclosed
  obtain ⟨heq, rfl⟩ := List.append_inj hold hlength.symm
  rw [← heq] at hbelongs
  have hends' := h.continues.endsContainer hmargin hends
  have hrefills := h.refills
  generalize e.isClosed = kept at hrefills ⊢
  generalize s.old = old at hrefills hbelongs
  generalize s.new = new at hrefills ⊢
  cases hrefills with
  | unclosed hbody =>
    refine ⟨new, false, ?_, rfl, fun hexact _ =>
      ⟨rfl, map_dropColumns_of_kept hbody hx hnonneg hexact⟩⟩
    rw [Fence.bodyLines_append (goesOn_of_kept hbody hx hle), Fence.bodyLines_of_ends hends',
      List.append_nil]
  | @closed old new c c' hbody hclosing =>
    have hcends := endsContainer_of_closings hclosing
      (hbelongs c (List.mem_append_right _ (List.mem_singleton_self c)))
    have hnew := goesOn_of_kept hbody hx hle
    rw [List.append_assoc, Fence.bodyLines_append hnew]
    -- The last line may close the new fence, though it did not close the old one.
    cases hcloses : Fence.closes margin e.markup' c' with
    | true =>
      refine ⟨new, true, ?_, by rw [List.length_append, if_pos rfl]; rfl, nofun⟩
      rw [List.singleton_append, Fence.bodyLines_of_closes hcends hcloses, List.append_nil]
    | false =>
      refine ⟨new ++ [c'], false, ?_, rfl, nofun⟩
      have hgoesOn : ∀ b ∈ [c'], Fence.endsContainer margin b = false ∧
          Fence.closes margin e.markup' b = false :=
        List.forall_mem_singleton.2 ⟨hcends, hcloses⟩
      rw [Fence.bodyLines_append hgoesOn, Fence.bodyLines_of_ends hends', List.append_nil]

end BodyLines

/-- The fence is exchanged where it opens. -/
theorem Correct.replaced_ofLines (h : s.Correct e exact k x) (hx : solid x = [])
    (hbefore : s.before = []) {margin : Int} (hmargin : 0 ≤ margin)
    (hle : margin ≤ s.opening.indent) (hlines : s.lines = s.opening :: ls)
    (hlines' : s.lines' = s.opening' :: ls')
    (hfinds : s.Finds e ([(Fence.ofLines margin s.opening e.markup e.info ls).1],
      (Fence.ofLines margin s.opening e.markup e.info ls).2)) :
    s.Replaced e exact s.old.length s.new.length
      ([(Fence.ofLines margin s.opening e.markup e.info ls).1],
        (Fence.ofLines margin s.opening e.markup e.info ls).2)
      ([(Fence.ofLines margin s.opening' e.markup' e.info ls').1],
        (Fence.ofLines margin s.opening' e.markup' e.info ls').2) := by
  obtain ⟨f, hf, -, hstop, hkept⟩ := hfinds
  have hnonneg := Int.le_trans hmargin hle
  rw [lines, hbefore] at hlines
  rw [lines', hbefore] at hlines'
  obtain rfl := (List.cons.inj hlines).2
  obtain rfl := (List.cons.inj hlines').2
  obtain rfl := List.mem_singleton.1 hf
  rw [Fence.stop_ofLines] at hstop
  have hextra : (Fence.bodyLines margin e.markup (s.old ++ s.after)).1.length +
      (if (Fence.bodyLines margin e.markup (s.old ++ s.after)).2 then 1 else 0) = s.old.length := by
    omega
  -- The reader stops at the end of the new fence, as it stopped at the end of the old one: at the
  -- closing line, or with the container.
  obtain ⟨body, isClosed, hnew, hextra', hexact⟩ : ∃ body isClosed,
      Fence.bodyLines margin e.markup' (s.new ++ s.after') = (body, isClosed) ∧
        body.length + (if isClosed then 1 else 0) = s.new.length ∧
          (exact → (Fence.bodyLines margin e.markup (s.old ++ s.after)).2 = e.isClosed →
            isClosed = (Fence.bodyLines margin e.markup (s.old ++ s.after)).2 ∧
              body.map (·.dropColumns s.opening.indent) = e.body) := by
    cases hclosed : (Fence.bodyLines margin e.markup (s.old ++ s.after)).2 with
    | true =>
      rw [hclosed, if_pos rfl] at hextra
      obtain ⟨body, hnew, hlength, hbody⟩ :=
        h.bodyLines_of_closed hx hle hnonneg (hkept hclosed) hclosed hextra
      exact ⟨body, true, hnew, hlength, fun hexact _ => ⟨rfl, hbody hexact⟩⟩
    | false =>
      rw [hclosed, if_neg Bool.false_ne_true, Nat.add_zero] at hextra
      obtain ⟨body, isClosed, hnew, hlength, hbody⟩ :=
        h.bodyLines_of_open hx hmargin hle hnonneg hclosed hextra
      exact ⟨body, isClosed, hnew, hlength, fun hexact hopen => hbody hexact hopen.symm⟩
  refine ⟨[], [], 0, _, _, ⟨rfl, ?_, ?_, ?_, rfl, rfl, fun hex hclosed => ?_⟩,
    Prod.ext rfl hextra, Prod.ext rfl ?_, fun _ => rfl⟩
  · exact congrArg (s.opening.number + 1 + ·) hextra
  · exact h.number
  · rw [Fence.stop_ofLines, hnew, h.number]
    exact congrArg (s.opening.number + 1 + ·) hextra'
  · rw [Fence.ofLines, hnew, h.opening.indent]
    exact hexact hex hclosed
  · rw [Fence.ofLines, hnew]
    exact hextra'

end Site

/-! ## Readers -/

/-- A reader for which exchanging a fence exchanges what it holds. Between what it has seen
    and the fence there is a line that cuts off. -/
def Edits (read : Place → List Line → Reading) : Prop :=
  ∀ {s : Site} {e : Exchange} {exact : Prop} {k n : Nat} {x : Text} {place : Place},
    s.Correct e exact k x → 0 ≤ place.margin → Numbered n s.lines →
      s.Finds e (read place s.lines) →
        (∃ w u, s.before = w ++ u ∧ Parts place.margin u s.opening s.opening') ∧
          s.Replaced e exact (s.before.length + s.old.length + 1)
            (s.before.length + s.new.length + 1) (read place s.lines) (read place s.lines')

/-- A reader that does what a sequence does. -/
structure Sound (read : Place → List Line → Reading) : Prop where
  keepsOrder : KeepsOrder read
  moves : Moves read
  isLocal : Local read
  findsHeld : FindsHeld read
  edits : Edits read

namespace Site

/-- What is held in both documents inside a quote, as the quote takes it. -/
theorem Replaced.of_quotes {afterEmpty : Bool} (hv : Quotes place afterEmpty s v)
    (h : v.Replaced e exact (v.before.length + v.old.length + 1)
      (v.before.length + v.new.length + 1) r r') :
    s.Replaced e exact (s.before.length + s.old.length) (s.before.length + s.new.length)
      (r.1, r.2 - 1) (r'.1, r'.2 - 1) := by
  obtain ⟨before, after, extra, f, f', hf, rfl, rfl, hextra⟩ := h
  have hnumber := number_of_withoutQuoteMarker hv.opening
  rw [hnumber, hv.old, hv.new] at hf
  refine ⟨before, after, extra, f, f', hf, ?_, ?_, fun hstops => hextra (hv.stops hstops)⟩
  · rw [hv.down, hv.before, hv.old, List.length_map]
    refine Prod.ext rfl ?_
    dsimp only
    omega
  · rw [hv.down', hv.before, hv.new, List.length_map]
    refine Prod.ext rfl ?_
    dsimp only
    omega

/-- A quote that holds the fence. -/
theorem Correct.replaced_quote (hinner : Sound inner) (h : s.Correct e exact k x)
    (hn : Numbered n s.lines) (hmargin : 0 ≤ place.margin) (hlines : s.lines = l :: ls)
    (hlines' : s.lines' = l' :: ls') {first first' : Line}
    (hfirst : withoutQuoteMarker l = some first) (hfirst' : withoutQuoteMarker l' = some first')
    (hle : place.margin ≤ l.indent) (hle' : place.margin ≤ l'.indent)
    (hfinds : s.Finds e (quote inner place l ls)) :
    (∃ v, Quotes place false s v ∧
      ∃ w u, v.before = w ++ u ∧ Parts 0 u v.opening v.opening') ∧
      s.Replaced e exact (s.before.length + s.old.length) (s.before.length + s.new.length)
        (quote inner place l ls) (quote inner place l' ls') := by
  have hquoted : first :: quotedLines place first.isEmpty ls = quotedLines place false s.lines := by
    rw [hlines, quotedLines_of_withoutQuoteMarker hfirst hle]
  have hquoted' : first' :: quotedLines place first'.isEmpty ls' =
      quotedLines place false s.lines' := by
    rw [hlines', quotedLines_of_withoutQuoteMarker hfirst' hle']
  rw [quote_eq hfirst, hquoted] at hfinds
  rw [quote_eq hfirst, quote_eq hfirst', hquoted, hquoted']
  obtain ⟨f, hf, hstart, hstop, hkept⟩ := hfinds
  obtain ⟨v, x', hcorrect, hv⟩ :=
    h.exists_quoted hn hmargin (hinner.findsHeld _ _ f hf) hstart hstop
  have hvn : Numbered n v.lines := hv.lines ▸ hn.quotedLines _ _
  have hnumber := number_of_withoutQuoteMarker hv.opening
  have hvfinds : v.Finds e (inner { place with margin := 0 } v.lines) :=
    ⟨f, hv.lines ▸ hf, hstart.trans hnumber.symm, by rw [hstop, hnumber, hv.old], hkept⟩
  obtain ⟨hparts, hreplaced⟩ := hinner.edits hcorrect (Int.le_refl 0) hvn hvfinds
  rw [hv.lines, hv.lines']
  exact ⟨⟨v, hv, hparts⟩, hreplaced.of_quotes hv⟩

end Site

end Markdown

end Transclude
