import Transclude.Path
import Transclude.Proofs.Text.Pieces
import Transclude.Proofs.Text.Runs

/-!
# Normal paths

A component that is read from a text is a *name*: it is not empty, holds no slash and is not
the component `.`. It can still be `..`. Normalising an absolute path takes out every `..`,
so that all of its components are *proper* names, and the way to it from a directory starts
with `..` exactly if the directory is not one that it lies in.

* `Path.hasNames_ofText`, `Path.ofText_toText`: the components of a text are names, and a path
  with names is read back from its text;
* `Path.isProper_of_mem_normalize`: those of a normalised absolute path are proper names;
* `Path.relative_head?_ne_parentName_iff`: what a way that does not go up says.
-/

namespace Transclude

namespace Path

variable {p q : Path} {t name : Text} {names seen base target : List Text}

/-- A name that can stand between slashes and means something. -/
structure IsName (name : Text) : Prop where
  ne_nil : name ≠ []
  not_mem : '/' ∉ name
  ne_dot : name ≠ ['.']

/-- A name that leads down. -/
structure IsProper (name : Text) : Prop extends IsName name where
  ne_parentName : name ≠ parentName

instance (name : Text) : Decidable (IsProper name) :=
  decidable_of_iff (name ≠ [] ∧ '/' ∉ name ∧ name ≠ ['.'] ∧ name ≠ parentName)
    ⟨fun ⟨hnil, hslash, hdot, hparent⟩ => ⟨⟨hnil, hslash, hdot⟩, hparent⟩,
      fun ⟨⟨hnil, hslash, hdot⟩, hparent⟩ => ⟨hnil, hslash, hdot, hparent⟩⟩

/-- Every component is a name. -/
def HasNames (p : Path) : Prop :=
  ∀ name ∈ p.components, IsName name

/-! ## Reading -/

theorem hasNames_ofText (t : Text) : (ofText t).HasNames := by
  intro name hname
  obtain ⟨hpiece, hname⟩ := List.mem_filter.1 hname
  rw [Bool.and_eq_true, decide_eq_true_eq, decide_eq_true_eq] at hname
  exact ⟨hname.1, Text.not_mem_of_mem_splitAt hpiece, hname.2⟩

theorem HasNames.append (hp : p.HasNames) (hq : q.HasNames) : (p.append q).HasNames := by
  unfold Path.append
  split
  · exact hq
  · intro name hname
    exact (List.mem_append.1 hname).elim (hp name) (hq name)

theorem HasNames.absolute (hp : p.HasNames) : p.absolute.HasNames :=
  HasNames.append (fun _ h => absurd h List.not_mem_nil) hp

theorem HasNames.parent (hp : p.HasNames) : p.parent.HasNames :=
  fun name hname => hp name (List.dropLast_subset _ hname)

/-! ## Writing -/

theorem IsName.head?_ne (h : IsName name) : name.head? ≠ some '/' :=
  fun hhead => h.not_mem (List.mem_of_mem_head? hhead)

/-- Names that are joined start with no slash. -/
theorem takeWhile_join (h : ∀ name ∈ names, IsName name) :
    (Text.join '/' names).takeWhile (· = '/') = [] := by
  cases names with
  | nil => rfl
  | cons name names =>
    obtain ⟨c, rest, rfl⟩ := List.exists_cons_of_ne_nil (h name List.mem_cons_self).ne_nil
    have hc : c ≠ '/' := fun hc => (h _ List.mem_cons_self).head?_ne (congrArg some hc)
    cases names <;> exact List.takeWhile_cons_of_neg (by simpa using hc)

/-- The components of a text are the names among its pieces. -/
theorem filter_splitAt_join (h : ∀ name ∈ names, IsName name) :
    ((Text.splitAt '/' (Text.join '/' names)).filter fun name => name ≠ [] && name ≠ ['.']) =
      names := by
  cases names with
  | nil => rfl
  | cons name names =>
    rw [Text.splitAt_join (List.cons_ne_nil _ _) fun name hname => (h name hname).not_mem]
    refine List.filter_eq_self.2 fun name hname => ?_
    rw [Bool.and_eq_true, decide_eq_true_eq, decide_eq_true_eq]
    exact ⟨(h name hname).ne_nil, (h name hname).ne_dot⟩

/-- A path with names is read back from its text. -/
theorem ofText_toText (hp : p.HasNames) : ofText p.toText = p := by
  obtain ⟨root, names⟩ := p
  have hslashes := takeWhile_join hp
  have hnames := filter_splitAt_join hp
  -- Slashes at the start of a text add empty pieces only.
  have hslash (t : Text) : ((Text.splitAt '/' ('/' :: t)).filter
      fun name => name ≠ [] && name ≠ ['.']) =
        (Text.splitAt '/' t).filter fun name => name ≠ [] && name ≠ ['.'] := rfl
  cases root with
  | relative =>
    cases names with
    | nil => rfl
    | cons name names =>
      show ofText (Text.join '/' (name :: names)) = _
      rw [ofText, hslashes, hnames]
      rfl
  | absolute =>
    show ofText ('/' :: Text.join '/' names) = _
    rw [ofText, hslash, hnames, List.takeWhile_cons_of_pos (by decide), hslashes]
    rfl
  | doubled =>
    show ofText ('/' :: '/' :: Text.join '/' names) = _
    rw [ofText, hslash, hslash, hnames, List.takeWhile_cons_of_pos (by decide),
      List.takeWhile_cons_of_pos (by decide), hslashes]
    rfl

/-! ## Joining -/

/-- The text of the path `t` as seen from the directory `base`. -/
def joinTexts (base t : Text) : Text :=
  if t.head? = some '/' then t
  else if base.getLast? = some '/' then base ++ t
  else base ++ '/' :: t

theorem isAbsolute_ofText_iff : (ofText t).isAbsolute ↔ t.head? = some '/' := by
  cases t with
  | nil => decide
  | cons c t =>
    by_cases hc : c = '/'
    · refine iff_of_true ?_ (congrArg some hc)
      rw [ofText, isAbsolute, List.takeWhile_cons_of_pos (by simpa using hc), List.length_cons]
      match (t.takeWhile (· = '/')).length with
      | 0 => rfl
      | 1 => rfl
      | n + 2 => rfl
    · refine iff_of_false ?_ fun hhead => hc (Option.some.inj hhead)
      rw [ofText, isAbsolute, List.takeWhile_cons_of_neg (by simpa using hc)]
      exact Bool.false_ne_true

/-- The text that two texts make is read as the paths are that they write. -/
theorem ofText_joinTexts {base : Text} (hbase : (ofText base).isAbsolute) (t : Text) :
    ofText (joinTexts base t) = (ofText base).append (ofText t) := by
  by_cases ht : t.head? = some '/'
  · rw [joinTexts, if_pos ht, append, if_pos (isAbsolute_ofText_iff.2 ht)]
  · have hslashes : t.takeWhile (· = '/') = [] :=
      Text.takeWhile_eq_nil fun c hc => decide_eq_false fun hslash => ht (hslash ▸ hc)
    rw [joinTexts, if_neg ht, append, if_neg fun habs => ht (isAbsolute_ofText_iff.1 habs)]
    split
    · -- The slash that ends the base parts its names from those of the text.
      rename_i hlast
      obtain ⟨stem, rfl⟩ := List.getLast?_eq_some_iff.1 hlast
      refine (Path.mk.injEq ..).mpr ⟨congrArg (fun slashes : Text => rootOfSlashes slashes.length) ?_, ?_⟩
      · rw [List.takeWhile_append, hslashes]
        split
        · rename_i hall
          rw [List.append_nil]
          exact ((List.takeWhile_prefix _).eq_of_length hall).symm
        · rfl
      · rw [List.append_assoc, List.singleton_append, Text.splitAt_append_sep, ofText, ofText,
          Text.splitAt_append_sep, List.filter_append, List.filter_append]
        exact congrArg (· ++ _) (List.append_nil _).symm
    · rename_i hlast
      refine (Path.mk.injEq ..).mpr ⟨congrArg (fun slashes : Text => rootOfSlashes slashes.length) ?_, ?_⟩
      · rw [List.takeWhile_append, if_neg]
        intro hall
        -- A base of slashes alone would end in one.
        have hbase' := (List.takeWhile_prefix _).eq_of_length hall
        obtain ⟨c, hc⟩ : ∃ c, base.getLast? = some c := by
          refine ⟨_, List.getLast?_eq_some_getLast ?_⟩
          rintro rfl
          exact absurd hbase (by decide)
        have hmem := List.mem_of_getLast? hc
        rw [← hbase'] at hmem
        have hslash := List.all_eq_true.1 (List.all_takeWhile (p := (· = '/'))) c hmem
        exact hlast (hc.trans (congrArg some (of_decide_eq_true hslash)))
      · rw [Text.splitAt_append_sep, List.filter_append]
        rfl

/-! ## Roots -/

theorem isAbsolute_append (hp : p.isAbsolute) : (p.append q).isAbsolute := by
  unfold Path.append
  split
  · assumption
  · exact hp

theorem isAbsolute_absolute (p : Path) : p.absolute.isAbsolute :=
  isAbsolute_append rfl

theorem isAbsolute_normalize : p.normalize.isAbsolute = p.isAbsolute := rfl

/-- An absolute path is the same wherever it is seen from. -/
theorem absolute_eq_self (hp : p.isAbsolute) : p.absolute = p :=
  if_pos hp

/-! ## Collapsing -/

theorem collapseStep_of_ne {rooted : Bool} (h : name ≠ parentName) :
    collapseStep rooted seen name = name :: seen := by
  unfold collapseStep
  exact if_pos h

/-- One more component adds at most itself to what was seen. -/
theorem mem_of_mem_collapseStep (h : name ∈ collapseStep true seen t) :
    (name = t ∧ t ≠ parentName) ∨ name ∈ seen := by
  unfold collapseStep at h
  split at h
  · rename_i ht
    exact (List.mem_cons.1 h).imp_left fun hname => ⟨hname, ht⟩
  · split at h
    · exact absurd h List.not_mem_nil
    · rename_i last rest
      split at h
      · rename_i hlast
        rcases List.mem_cons.1 h with h | h
        · exact .inr (h.trans hlast.symm ▸ List.mem_cons_self)
        · exact .inr h
      · exact .inr (List.mem_cons_of_mem _ h)

/-- Below the root directory, collapsing keeps names that lead down, and no others. -/
theorem mem_collapse (h : name ∈ collapse true names) : name ∈ names ∧ name ≠ parentName := by
  -- What was seen before the first component was seen by nobody.
  suffices hgen : ∀ seen, name ∈ names.foldl (collapseStep true) seen →
      (name ∈ names ∧ name ≠ parentName) ∨ name ∈ seen by
    refine (hgen [] (List.mem_reverse.1 h)).resolve_right List.not_mem_nil
  clear h
  induction names with
  | nil => exact fun seen h => .inr h
  | cons t names ih =>
    intro seen h
    rcases ih _ h with ⟨hmem, hne⟩ | h
    · exact .inl ⟨List.mem_cons_of_mem _ hmem, hne⟩
    · exact (mem_of_mem_collapseStep h).imp_left fun ⟨ht, hne⟩ =>
        ⟨ht ▸ List.mem_cons_self, ht ▸ hne⟩

/-- The components of a normalised absolute path are proper names. -/
theorem isProper_of_mem_normalize (hp : p.HasNames) (habs : p.isAbsolute)
    (h : name ∈ p.normalize.components) : IsProper name := by
  rw [normalize, habs] at h
  obtain ⟨hmem, hne⟩ := mem_collapse h
  exact ⟨hp name hmem, hne⟩

/-- Names that lead down are added to what is collapsed before them. -/
theorem collapse_append (rooted : Bool) (names : List Text) {below : List Text}
    (h : ∀ name ∈ below, name ≠ parentName) :
    collapse rooted (names ++ below) = collapse rooted names ++ below := by
  -- What was seen is kept in reverse.
  suffices hgen : ∀ seen, below.foldl (collapseStep rooted) seen = below.reverse ++ seen by
    rw [collapse, List.foldl_append, hgen, List.reverse_append, List.reverse_reverse, collapse]
  induction below with
  | nil => exact fun _ => rfl
  | cons name below ih =>
    intro seen
    rw [List.foldl_cons, collapseStep_of_ne (h name List.mem_cons_self),
      ih fun name hname => h name (List.mem_cons_of_mem _ hname), List.reverse_cons,
      List.append_assoc, List.singleton_append]

/-- Names that lead down have nothing to collapse. -/
theorem collapse_eq_self (rooted : Bool) (h : ∀ name ∈ names, name ≠ parentName) :
    collapse rooted names = names :=
  collapse_append rooted [] h

/-- A normalised absolute path is already normal, wherever it is seen from. -/
theorem resolved_normalize (hp : p.isAbsolute) : p.normalize.resolved = p.normalize := by
  have hne : ∀ name ∈ p.normalize.components, name ≠ parentName := by
    intro name hname
    rw [normalize, hp] at hname
    exact (mem_collapse hname).2
  rw [resolved, absolute_eq_self (isAbsolute_normalize.trans hp)]
  exact congrArg (Path.mk p.root) (collapse_eq_self _ hne)

/-- What a normalised absolute path leads to is normalised along with it. -/
theorem normalize_append_normalize (hp : p.isAbsolute) (q : Path) :
    (p.normalize.append q).normalize = (p.append q).normalize := by
  unfold Path.append
  split
  · rfl
  · -- Collapsing what is collapsed sees the same components, and goes on from there.
    have hseen : (collapse true p.components).foldl (collapseStep true) [] =
        p.components.foldl (collapseStep true) [] := by
      have hcollapsed := collapse_eq_self true fun name
        (hname : name ∈ collapse true p.components) => (mem_collapse hname).2
      rw [collapse] at hcollapsed
      exact List.reverse_inj.1 hcollapsed
    rw [normalize, normalize, normalize]
    show Path.mk p.root (collapse p.isAbsolute (collapse p.isAbsolute p.components ++ q.components))
      = Path.mk p.root (collapse p.isAbsolute (p.components ++ q.components))
    rw [hp, collapse, List.foldl_append, hseen, ← List.foldl_append, ← collapse]

theorem normalize_normalize (hp : p.isAbsolute) : p.normalize.normalize = p.normalize := by
  have := resolved_normalize hp
  rwa [resolved, absolute_eq_self (isAbsolute_normalize.trans hp)] at this

/-! ## Ways -/

theorem mem_relative (h : name ∈ relative base target) : name = parentName ∨ name ∈ target := by
  have hup {base : List Text} {target : List Text}
      (h : name ∈ base.map (fun _ => parentName) ++ target) : name = parentName ∨ name ∈ target := by
    rcases List.mem_append.1 h with h | h
    · obtain ⟨_, -, rfl⟩ := List.mem_map.1 h
      exact .inl rfl
    · exact .inr h
  induction base generalizing target with
  | nil =>
    rw [relative] at h
    · exact hup h
    · rintro _ _ _ _ hbase -
      exact nomatch hbase
  | cons b base ih =>
    cases target with
    | nil => exact hup h
    | cons t target =>
      rw [relative] at h
      split at h
      · exact (ih h).imp_right (List.mem_cons_of_mem t)
      · exact hup h

/-- The way to a target that leads down goes up, unless the target lies in the directory. -/
theorem relative_head?_ne_parentName_iff (h : ∀ name ∈ target, name ≠ parentName) :
    (relative base target).head? ≠ some parentName ↔ base <+: target := by
  induction base generalizing target with
  | nil =>
    rw [relative, List.map_nil, List.nil_append]
    · refine iff_of_true (fun hhead => ?_) List.nil_prefix
      exact h _ (List.mem_of_head? hhead) rfl
    · rintro _ _ _ _ hbase -
      exact nomatch hbase
  | cons b base ih =>
    cases target with
    | nil =>
      refine iff_of_false (fun hhead => hhead rfl) fun hprefix => ?_
      exact nomatch List.prefix_nil.1 hprefix
    | cons t target =>
      rw [relative, List.cons_prefix_cons]
      split
      · rename_i hbt
        rw [ih fun name hname => h name (List.mem_cons_of_mem _ hname)]
        exact ⟨fun hprefix => ⟨hbt, hprefix⟩, And.right⟩
      · rename_i hbt
        exact iff_of_false (fun hhead => hhead rfl) fun hprefix => hbt hprefix.1

end Path

end Transclude
