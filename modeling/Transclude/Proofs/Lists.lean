import Mathlib.Data.List.Basic
import Mathlib.Data.List.Forall2
import Mathlib.Data.List.Nodup

/-!
# Lists of computations that can fail

A computation in two parts fails as one of its parts does. One that is done for every element
of a list has a result if it has one for each, and then the results stand in the order of the
elements; otherwise it fails as it does for one of them.

* `bind_eq_ok`, `bind_eq_error`: two parts;
* `mapM_eq_ok_iff`, `exists_of_mapM_eq_error`: one computation for each element;
* `filterM_eq_ok`: the elements that pass a test which can fail;
* `nodup_flatten_of_mapM`: when lists of results have nothing in common.
-/

namespace Transclude

/-- Of two lists side by side, each element of the second has its partner in the first. -/
theorem exists_of_forall₂ {α β : Type} {R : α → β → Prop} {as : List α} {bs : List β} {b : β}
    (h : List.Forall₂ R as bs) (hb : b ∈ bs) : ∃ a ∈ as, R a b := by
  induction h with
  | nil => exact absurd hb List.not_mem_nil
  | @cons a b' as bs hab _ ih =>
    rcases List.mem_cons.1 hb with rfl | hb
    · exact ⟨a, List.mem_cons_self, hab⟩
    · obtain ⟨a', ha', hab'⟩ := ih hb
      exact ⟨a', List.mem_cons_of_mem _ ha', hab'⟩

section

variable {α β ε : Type} {f : α → Except ε β} {x : Except ε α} {y : β} {xs : List α} {ys : List β}
  {fault : ε}

theorem bind_eq_ok (h : x >>= f = .ok y) : ∃ a, x = .ok a ∧ f a = .ok y := by
  cases x with
  | error fault => cases h
  | ok a => exact ⟨a, rfl, h⟩

theorem bind_eq_error (h : x >>= f = .error fault) :
    x = .error fault ∨ ∃ a, x = .ok a ∧ f a = .error fault := by
  cases x with
  | error other => exact .inl (congrArg Except.error (Except.error.inj h))
  | ok a => exact .inr ⟨a, rfl, h⟩

/-- A computation for each element has a result if each element has one. -/
theorem mapM_eq_ok_iff : xs.mapM f = .ok ys ↔ List.Forall₂ (fun x y => f x = .ok y) xs ys := by
  induction xs generalizing ys with
  | nil =>
    rw [List.mapM_nil, List.forall₂_nil_left_iff]
    exact ⟨fun h => (Except.ok.inj h).symm, fun h => congrArg Except.ok h.symm⟩
  | cons x xs ih =>
    rw [List.mapM_cons]
    cases hx : f x with
    | error fault =>
      refine ⟨nofun, fun h => ?_⟩
      cases h with
      | cons h _ => exact nomatch hx.symm.trans h
    | ok y =>
      cases hxs : xs.mapM f with
      | error fault =>
        refine ⟨nofun, fun h => ?_⟩
        cases h with
        | cons _ h => exact nomatch hxs.symm.trans (ih.2 h)
      | ok ys' =>
        constructor
        · intro h
          obtain rfl := Except.ok.inj h
          exact .cons hx (ih.1 hxs)
        · intro h
          cases h with
          | cons h h' =>
            obtain rfl := Except.ok.inj (hx.symm.trans h)
            obtain rfl := Except.ok.inj (hxs.symm.trans (ih.2 h'))
            rfl

/-- A computation for each element fails as it does for one of them. -/
theorem exists_of_mapM_eq_error (h : xs.mapM f = .error fault) : ∃ x ∈ xs, f x = .error fault := by
  induction xs with
  | nil => cases h
  | cons x xs ih =>
    rw [List.mapM_cons] at h
    rcases bind_eq_error h with hx | ⟨y, -, h⟩
    · exact ⟨x, List.mem_cons_self, hx⟩
    · rcases bind_eq_error h with hxs | ⟨ys, -, h⟩
      · obtain ⟨x', hx', hfault⟩ := ih hxs
        exact ⟨x', List.mem_cons_of_mem _ hx', hfault⟩
      · cases h

/-- The results of a computation that gives lists have nothing twice if none of the lists has
    and no two have anything in common. -/
theorem nodup_flatten_of_mapM {f : α → Except ε (List β)} {parts : List (List β)}
    (h : xs.mapM f = .ok parts) (hnodup : ∀ x ∈ xs, ∀ part, f x = .ok part → part.Nodup)
    (hapart : xs.Pairwise fun x y => ∀ part other, f x = .ok part → f y = .ok other →
      part.Disjoint other) : parts.flatten.Nodup := by
  have hparts := mapM_eq_ok_iff.1 h
  clear h
  induction hparts with
  | nil => exact List.nodup_nil
  | @cons x part xs parts hpart hparts ih =>
    obtain ⟨hfirst, hrest⟩ := List.pairwise_cons.1 hapart
    rw [List.flatten_cons]
    refine (hnodup x List.mem_cons_self part hpart).append
      (ih (fun y hy => hnodup y (List.mem_cons_of_mem _ hy)) hrest) fun b hb hb' => ?_
    obtain ⟨other, hother, hmem⟩ := List.mem_flatten.1 hb'
    obtain ⟨y, hy, hother⟩ := exists_of_forall₂ hparts hother
    exact hfirst y hy part other hpart hother hb hmem

end

section

variable {α ε : Type} {test : α → Except ε Bool} {xs ys seen : List α} {fault : ε}

/-- The elements that pass a test stand in their order. -/
theorem filterM_eq_ok (h : xs.filterM test = .ok ys) :
    ys.Sublist xs ∧ ∀ x, x ∈ ys ↔ x ∈ xs ∧ test x = .ok true := by
  -- What was seen is kept in reverse.
  have hgen : ∀ xs seen zs, List.filterAuxM test xs seen = .ok zs →
      ∃ passed : List α, zs = passed.reverse ++ seen ∧ passed.Sublist xs ∧
        ∀ x, x ∈ passed ↔ x ∈ xs ∧ test x = .ok true := by
    intro xs
    induction xs with
    | nil =>
      intro seen zs h
      exact ⟨[], (Except.ok.inj h).symm, .slnil, by simp⟩
    | cons x xs ih =>
      intro seen zs h
      rw [List.filterAuxM] at h
      obtain ⟨passes, hx, h⟩ := bind_eq_ok h
      obtain ⟨passed, rfl, hsub, hmem⟩ := ih _ _ h
      cases passes with
      | false =>
        refine ⟨passed, rfl, hsub.cons x, fun y => ?_⟩
        rw [hmem, List.mem_cons]
        refine ⟨fun ⟨hy, htest⟩ => ⟨.inr hy, htest⟩, fun ⟨hy, htest⟩ => ⟨?_, htest⟩⟩
        refine hy.resolve_left fun heq => ?_
        rw [heq, hx] at htest
        cases htest
      | true =>
        refine ⟨x :: passed, by simp, hsub.cons_cons x, fun y => ?_⟩
        rw [List.mem_cons, List.mem_cons, hmem]
        constructor
        · rintro (rfl | ⟨hy, htest⟩)
          · exact ⟨.inl rfl, hx⟩
          · exact ⟨.inr hy, htest⟩
        · rintro ⟨rfl | hy, htest⟩
          · exact .inl rfl
          · exact .inr ⟨hy, htest⟩
  obtain ⟨zs, hzs, h⟩ := bind_eq_ok h
  obtain ⟨passed, rfl, hsub, hmem⟩ := hgen xs [] zs hzs
  obtain rfl : passed = ys := by simpa using Except.ok.inj h
  exact ⟨hsub, hmem⟩

/-- A test for each element fails as it does for one of them. -/
theorem exists_of_filterM_eq_error (h : xs.filterM test = .error fault) :
    ∃ x ∈ xs, test x = .error fault := by
  have hgen : ∀ xs seen, List.filterAuxM test xs seen = .error fault →
      ∃ x ∈ xs, test x = .error fault := by
    intro xs
    induction xs with
    | nil => exact fun seen h => nomatch h
    | cons x xs ih =>
      intro seen h
      rw [List.filterAuxM] at h
      rcases bind_eq_error h with hx | ⟨passes, -, h⟩
      · exact ⟨x, List.mem_cons_self, hx⟩
      · obtain ⟨y, hy, hfault⟩ := ih _ h
        exact ⟨y, List.mem_cons_of_mem _ hy, hfault⟩
  rcases bind_eq_error h with haux | ⟨zs, -, h⟩
  · exact hgen xs [] haux
  · cases h

end

end Transclude
