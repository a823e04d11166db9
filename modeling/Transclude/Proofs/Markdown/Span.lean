import Transclude.Markdown.Block

/-!
# The lines that blocks take

A reader of a sequence takes some of the lines it is given, from the first on, and the
fences it finds stand in these lines, one after the other. This holds however deep
containers nest, since a quote and a list item hand down lines in a row, and take no more
of them than the sequence inside does.

* `mem_items`, `mem_blocks`: where a fence that is found stands;
* `Numbered`: lines in a row;
* `Ordered`: fences one after the other, in the lines from one number to another;
* `keepsOrder_sequence`: a sequence finds its fences in this way.
-/

namespace Transclude

namespace Markdown

variable {inner inQuote inItem : Place → List Line → Reading} {place : Place} {l : Line}
  {ls : List Line} {marker : ItemMarker} {n lo mid hi : Nat} {fs gs : List Fence} {f : Fence}

/-! ## Equations of the readers -/

/-- The items of a list: those of the first item, and if a line goes on with the list
    after it, those of the list that starts there. -/
theorem items_eq (inner : Place → List Line → Reading) (place : Place) (l : Line)
    (marker : ItemMarker) (ls : List Line) :
    items inner place l marker ls =
      match ls.drop ((itemContent inner place l marker ls).2 - 1) with
      | [] => ((itemContent inner place l marker ls).1,
          (itemContent inner place l marker ls).2 - 1)
      | next :: rest =>
        match nextMarker? place marker next with
        | none => ((itemContent inner place l marker ls).1,
            (itemContent inner place l marker ls).2 - 1)
        | some marker' =>
          ((itemContent inner place l marker ls).1 ++ (items inner place next marker' rest).1,
            (itemContent inner place l marker ls).2 - 1 + 1 +
              (items inner place next marker' rest).2) := by
  rw [items]
  dsimp only
  split
  · rename_i h
    rw [h]
  · rename_i next rest h
    cases hnext : nextMarker? place marker next <;> simp only [h, hnext]

/-- A fence in a list is in its first item, or in the list that starts after this item. -/
theorem mem_items (h : f ∈ (items inner place l marker ls).1) :
    f ∈ (itemContent inner place l marker ls).1 ∨ ∃ next rest marker',
      ls.drop ((itemContent inner place l marker ls).2 - 1) = next :: rest ∧
        nextMarker? place marker next = some marker' ∧
        f ∈ (items inner place next marker' rest).1 := by
  rw [items_eq] at h
  split at h
  · exact .inl h
  · rename_i next rest hdrop
    split at h
    · exact .inl h
    · rename_i marker' hnext
      exact (List.mem_append.1 h).imp_right fun h => ⟨next, rest, marker', hdrop, hnext, h⟩

/-- The lines after an item are fewer than those after its first line. -/
theorem length_of_drop_eq_cons {taken : Nat} {next : Line} {rest : List Line}
    (h : ls.drop taken = next :: rest) : ls.length = taken + 1 + rest.length := by
  have := congrArg List.length h
  rw [List.length_drop, List.length_cons] at this
  omega

theorem blocks_nil : blocks inQuote inItem place [] = ([], 0) := by
  rw [blocks]

theorem blocks_of_isEmpty (h : l.isEmpty) :
    blocks inQuote inItem place (l :: ls) =
      ((blocks inQuote inItem place ls).1, 1 + (blocks inQuote inItem place ls).2) := by
  rw [blocks, if_pos h]

theorem blocks_of_lt (h : l.isEmpty = false) (hlt : l.indent < place.margin) :
    blocks inQuote inItem place (l :: ls) = ([], 0) := by
  rw [blocks, if_neg (ne_true_of_eq_false h), if_pos hlt]

/-- A sequence that starts with a block. -/
theorem blocks_of_le (h : l.isEmpty = false) (hle : place.margin ≤ l.indent) :
    blocks inQuote inItem place (l :: ls) =
      ((block inQuote inItem place l ls).1 ++
          (blocks inQuote inItem place (ls.drop (block inQuote inItem place l ls).2)).1,
        1 + (block inQuote inItem place l ls).2 +
          (blocks inQuote inItem place (ls.drop (block inQuote inItem place l ls).2)).2) := by
  rw [blocks, if_neg (ne_true_of_eq_false h), if_neg (Int.not_lt.2 hle)]

/-- A fence in a sequence comes after an empty line, or is in the first block or after it. -/
theorem mem_blocks (h : f ∈ (blocks inQuote inItem place (l :: ls)).1) :
    (l.isEmpty ∧ f ∈ (blocks inQuote inItem place ls).1) ∨
      (l.isEmpty = false ∧ place.margin ≤ l.indent ∧
        (f ∈ (block inQuote inItem place l ls).1 ∨
          f ∈ (blocks inQuote inItem place (ls.drop (block inQuote inItem place l ls).2)).1)) := by
  cases hempty : l.isEmpty with
  | true =>
    rw [blocks_of_isEmpty hempty] at h
    exact .inl ⟨rfl, h⟩
  | false =>
    by_cases hlt : l.indent < place.margin
    · rw [blocks_of_lt hempty hlt] at h
      exact absurd h List.not_mem_nil
    · rw [blocks_of_le hempty (Int.not_lt.1 hlt)] at h
      exact .inr ⟨rfl, Int.not_lt.1 hlt, List.mem_append.1 h⟩

/-- A quote, given its first line without the marker. -/
theorem quote_eq {first : Line} (h : withoutQuoteMarker l = some first) :
    quote inner place l ls =
      ((inner { place with margin := 0 } (first :: quotedLines place first.isEmpty ls)).1,
        (inner { place with margin := 0 } (first :: quotedLines place first.isEmpty ls)).2 - 1) := by
  rw [quote, h]

/-- Blocks that hold no others hold no fence. -/
theorem leaf_fst (place : Place) (l : Line) (ls : List Line) : (leaf place l ls).1 = [] := by
  rw [leaf]
  split
  · rfl
  · split
    · rfl
    · split <;> rfl

theorem skipped_fst (place : Place) (ls : List Line) : (skipped place ls).1 = [] := by
  induction ls with
  | nil => rfl
  | cons l ls ih =>
    rw [skipped]
    split
    · exact ih
    · split <;> rfl

theorem number_of_withoutQuoteMarker {l first : Line} (h : withoutQuoteMarker l = some first) :
    first.number = l.number := by
  unfold withoutQuoteMarker at h
  split at h
  · dsimp only at h
    split at h
    · rw [← Option.some.inj h]
    · split at h <;> rw [← Option.some.inj h]
    · rw [← Option.some.inj h]
  · exact nomatch h

/-! ## Lines in a row -/

/-- Lines in a row, the first of which has the number `n`. -/
def Numbered : Nat → List Line → Prop
  | _, [] => True
  | n, l :: ls => l.number = n ∧ Numbered (n + 1) ls

theorem Numbered.drop (h : Numbered n ls) (k : Nat) : Numbered (n + k) (ls.drop k) := by
  induction k generalizing n ls with
  | zero => exact h
  | succ k ih =>
    cases ls with
    | nil => exact trivial
    | cons l ls =>
      rw [List.drop_succ_cons, Nat.add_comm k 1, ← Nat.add_assoc]
      exact ih h.2

theorem Numbered.of_getElem? {j : Nat} (h : Numbered n ls) (hl : ls[j]? = some l) :
    l.number = n + j := by
  obtain ⟨hj, rfl⟩ := List.getElem?_eq_some_iff.1 hl
  have := h.drop j
  rw [List.drop_eq_getElem_cons hj] at this
  exact this.1

theorem numbered_append {ks : List Line} :
    Numbered n (ks ++ ls) ↔ Numbered n ks ∧ Numbered (n + ks.length) ls := by
  induction ks generalizing n with
  | nil => exact ⟨fun h => ⟨trivial, h⟩, fun h => h.2⟩
  | cons k ks ih =>
    rw [List.cons_append, Numbered, ih, Numbered, List.length_cons, and_assoc, Nat.add_assoc,
      Nat.add_comm 1]

theorem Numbered.bounds (h : Numbered n ls) (hl : l ∈ ls) :
    n ≤ l.number ∧ l.number < n + ls.length := by
  induction ls generalizing n with
  | nil => exact absurd hl List.not_mem_nil
  | cons k ls ih =>
    have := h.1
    rw [List.length_cons]
    rcases List.mem_cons.1 hl with rfl | hl
    · omega
    · have := ih h.2 hl
      omega

theorem Numbered.eq_of_number_eq {pre rest : List Line} {k : Line}
    (h : Numbered n (pre ++ l :: rest)) (hk : k ∈ pre ++ l :: rest) (hnumber : k.number = l.number) :
    k = l := by
  obtain ⟨hpre, hl, hrest⟩ := numbered_append.1 h
  rcases List.mem_append.1 hk with hk | hk
  · have := (hpre.bounds hk).2
    omega
  · rcases List.mem_cons.1 hk with rfl | hk
    · rfl
    · have := (hrest.bounds hk).1
      omega

/-! ## Fences one after the other -/

/-- Fences one after the other, in the lines from `lo` on and before `hi`. -/
def Ordered : (lo hi : Nat) → List Fence → Prop
  | lo, hi, [] => lo ≤ hi
  | lo, hi, f :: fs => lo ≤ f.start ∧ f.start < f.stop ∧ Ordered f.stop hi fs

namespace Ordered

theorem le (h : Ordered lo hi fs) : lo ≤ hi := by
  induction fs generalizing lo with
  | nil => exact h
  | cons f fs ih =>
    have := ih h.2.2
    have := h.1
    have := h.2.1
    omega

theorem append (hfs : Ordered lo mid fs) (hgs : Ordered mid hi gs) :
    Ordered lo hi (fs ++ gs) := by
  induction fs generalizing lo with
  | nil =>
    cases gs with
    | nil => exact Nat.le_trans hfs hgs
    | cons g gs => exact ⟨Nat.le_trans hfs hgs.1, hgs.2⟩
  | cons f fs ih => exact ⟨hfs.1, hfs.2.1, ih hfs.2.2⟩

theorem mono_right (h : Ordered lo mid fs) (hle : mid ≤ hi) : Ordered lo hi fs := by
  have := h.append (show Ordered mid hi [] from hle)
  rwa [List.append_nil] at this

theorem mono_left (h : Ordered mid hi fs) (hle : lo ≤ mid) : Ordered lo hi fs :=
  (show Ordered lo mid [] from hle).append h

/-- Fences one after the other in two parts. -/
theorem of_append (h : Ordered lo hi (fs ++ gs)) :
    ∃ mid, Ordered lo mid fs ∧ Ordered mid hi gs := by
  induction fs generalizing lo with
  | nil => exact ⟨lo, Nat.le_refl lo, h⟩
  | cons f fs ih =>
    obtain ⟨mid, hfs, hgs⟩ := ih h.2.2
    exact ⟨mid, ⟨h.1, h.2.1, hfs⟩, hgs⟩

theorem bounds (h : Ordered lo hi fs) (hf : f ∈ fs) :
    lo ≤ f.start ∧ f.start < f.stop ∧ f.stop ≤ hi := by
  induction fs generalizing lo with
  | nil => exact absurd hf List.not_mem_nil
  | cons g fs ih =>
    rcases List.mem_cons.1 hf with rfl | hf
    · exact ⟨h.1, h.2.1, h.2.2.le⟩
    · obtain ⟨hlo, hlt, hhi⟩ := ih h.2.2 hf
      exact ⟨Nat.le_trans h.1 (Nat.le_trans (Nat.le_of_lt h.2.1) hlo), hlt, hhi⟩

/-- Of fences one after the other only one starts with a line. -/
theorem append_cons_inj {fs' gs' : List Fence} {f g : Fence} (h : Ordered lo hi (fs ++ f :: gs))
    (heq : fs ++ f :: gs = fs' ++ g :: gs') (hstart : f.start = g.start) :
    fs = fs' ∧ f = g ∧ gs = gs' := by
  -- A fence further on would start after this one has ended.
  induction fs generalizing lo fs' with
  | nil =>
    cases fs' with
    | nil => exact ⟨rfl, List.cons.inj heq⟩
    | cons e fs' =>
      obtain ⟨rfl, rfl⟩ := List.cons.inj heq
      have := (h.2.2.bounds (List.mem_append_right fs' List.mem_cons_self)).1
      have := h.2.1
      omega
  | cons e fs ih =>
    cases fs' with
    | nil =>
      obtain ⟨rfl, rfl⟩ := List.cons.inj heq
      have := (h.2.2.bounds (List.mem_append_right fs List.mem_cons_self)).1
      have := h.2.1
      omega
    | cons e' fs' =>
      obtain ⟨rfl, htail⟩ := List.cons.inj heq
      obtain ⟨hfs, hfg⟩ := ih h.2.2 htail
      exact ⟨by rw [hfs], hfg⟩

end Ordered

/-! ## Readers -/

/-- A reader that finds its fences one after the other in the lines that it takes. -/
def KeepsOrder (read : Place → List Line → Reading) : Prop :=
  ∀ place n ls, Numbered n ls → Ordered n (n + (read place ls).2) (read place ls).1

theorem Numbered.quotedLines (h : Numbered n ls) (place : Place) (afterEmpty : Bool) :
    Numbered n (quotedLines place afterEmpty ls) := by
  induction ls generalizing n afterEmpty with
  | nil => exact trivial
  | cons l ls ih =>
    rw [Markdown.quotedLines]
    split
    · exact trivial
    · split
      · rename_i inner hinner
        split at hinner
        · exact nomatch hinner
        · exact ⟨(number_of_withoutQuoteMarker hinner).trans h.1, ih h.2 _⟩
      · split
        · exact trivial
        · exact ⟨h.1, ih h.2 _⟩

/-- The fence that opens with a line stands in that line and those it takes. -/
theorem ordered_ofLines (margin : Fence.Margin) (l : Line) (markup info : Text)
    (ls : List Line) :
    Ordered l.number (l.number + 1 + (Fence.ofLines margin l markup info ls).2)
      [(Fence.ofLines margin l markup info ls).1] :=
  ⟨Nat.le_refl _, by rw [Fence.ofLines]; dsimp only; omega, Nat.le_refl _⟩

theorem ordered_leaf (place : Place) (l : Line) (ls : List Line) :
    Ordered n (n + 1 + (leaf place l ls).2) (leaf place l ls).1 := by
  rw [leaf_fst]
  exact show n ≤ _ by omega

theorem ordered_quote (hinner : KeepsOrder inner) (h : Numbered n (l :: ls)) :
    Ordered n (n + 1 + (quote inner place l ls).2) (quote inner place l ls).1 := by
  cases hfirst : withoutQuoteMarker l with
  | none =>
    rw [quote, hfirst]
    exact show n ≤ _ by omega
  | some first =>
    rw [quote_eq hfirst]
    have hlines : Numbered n (first :: quotedLines place first.isEmpty ls) :=
      ⟨(number_of_withoutQuoteMarker hfirst).trans h.1, h.2.quotedLines _ _⟩
    exact (hinner _ n _ hlines).mono_right (by omega)

theorem ordered_itemContent (hinner : KeepsOrder inner) (h : Numbered n (l :: ls)) :
    Ordered n (n + 1 + ((itemContent inner place l marker ls).2 - 1))
      (itemContent inner place l marker ls).1 := by
  rw [itemContent]
  dsimp only
  split
  · exact show n ≤ _ by omega
  · have hlines : Numbered n ((itemStart l marker).1 :: ls) := ⟨h.1, h.2⟩
    exact (hinner _ n _ hlines).mono_right (by omega)

theorem ordered_items (hinner : KeepsOrder inner) {n : Nat} {l : Line} {marker : ItemMarker}
    {ls : List Line} (h : Numbered n (l :: ls)) :
    Ordered n (n + 1 + (items inner place l marker ls).2) (items inner place l marker ls).1 := by
  have hfirst : Ordered n (n + 1 + ((itemContent inner place l marker ls).2 - 1))
      (itemContent inner place l marker ls).1 := ordered_itemContent hinner h
  rw [items_eq]
  split
  · exact hfirst
  · rename_i next rest hdrop
    split
    · exact hfirst
    · rename_i marker' hnext
      have hlength := length_of_drop_eq_cons hdrop
      -- The next item starts in the line after those that the first one takes.
      have hrest := h.2.drop ((itemContent inner place l marker ls).2 - 1)
      rw [hdrop] at hrest
      have hmore : Ordered _ _ (items inner place next marker' rest).1 :=
        ordered_items hinner hrest
      refine hfirst.append (hmore.mono_right (Nat.le_of_eq ?_))
      dsimp only
      omega
termination_by ls.length

theorem ordered_block (hquote : KeepsOrder inQuote) (hitem : KeepsOrder inItem)
    (h : Numbered n (l :: ls)) :
    Ordered n (n + 1 + (block inQuote inItem place l ls).2)
      (block inQuote inItem place l ls).1 := by
  have hnil : ∀ extra, Ordered n (n + 1 + extra) [] := fun extra => show n ≤ _ by omega
  rw [block]
  split
  · exact hnil _
  · split
    · rename_i markup info _
      have := ordered_ofLines place.margin l markup info ls
      rwa [h.1] at this
    · split
      · exact ordered_quote hquote h
      · split
        · exact hnil _
        · split
          · exact ordered_items hitem h
          · exact ordered_leaf place l ls

theorem keepsOrder_blocks (hquote : KeepsOrder inQuote) (hitem : KeepsOrder inItem) :
    KeepsOrder (blocks inQuote inItem) := by
  intro place n ls h
  cases ls with
  | nil =>
    rw [blocks_nil]
    exact Nat.le_refl n
  | cons l ls =>
    by_cases hempty : l.isEmpty
    · rw [blocks_of_isEmpty hempty]
      have := keepsOrder_blocks hquote hitem place (n + 1) ls h.2
      exact (this.mono_left (Nat.le_succ n)).mono_right (by dsimp only; omega)
    · rw [Bool.not_eq_true] at hempty
      by_cases hlt : l.indent < place.margin
      · rw [blocks_of_lt hempty hlt]
        exact Nat.le_refl n
      · rw [blocks_of_le hempty (Int.not_lt.1 hlt)]
        have hrest := h.2.drop (block inQuote inItem place l ls).2
        refine (ordered_block hquote hitem h).append
          ((keepsOrder_blocks hquote hitem place _ _ hrest).mono_right (Nat.le_of_eq ?_))
        dsimp only
        omega
termination_by _ _ ls => ls.length

theorem keepsOrder_skipped : KeepsOrder skipped := by
  intro place n ls _
  rw [skipped_fst]
  exact Nat.le_add_right _ _

/-- A sequence finds its fences one after the other in the lines that it takes. -/
theorem keepsOrder_sequence (depth : Nat) : KeepsOrder (sequence depth) := by
  match depth with
  | 0 => exact keepsOrder_skipped
  | 1 => exact keepsOrder_blocks keepsOrder_skipped keepsOrder_skipped
  | depth + 2 =>
    exact keepsOrder_blocks (keepsOrder_sequence (depth + 1)) (keepsOrder_sequence depth)

end Markdown

end Transclude
