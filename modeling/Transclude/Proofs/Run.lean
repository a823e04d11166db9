import Transclude.Proofs.Import.Similar
import Transclude.Proofs.Writing
import Transclude.Run

/-!
# Runs that stop on the way

A run writes the result of one document after the other. What it writes cannot change what it
imports later, as long as the results do not get in the way of each other, of the documents
and of the files that are imported (`Run.Clear`). Then a run is the same as if all documents
had been imported first: without a failure every result is written, and with the first failure
the results before it are, and nothing else.

That a path leads to nothing can change while the run goes on, since directories are added on
the way to the results. But no file appears where one is imported, so that an import that
fails at the start fails later too, though perhaps for another reason (`Similar`).

* `Run.writeResult_eq_ok_iff`: when a result can be written;
* `Run.Since`: what a run has changed so far;
* `Run.importEach_append`: a run that is through with some documents;
* `Run.importAll_writes_in_order`: what a run leaves behind.
-/

namespace Transclude

open Transclude.Path (parentName)

namespace Stage

variable {α β : Type} {s : Stage α} {a : α} {stop : Stop}

theorem andThen_of_ok (h : s.result = .ok a) (next : World → α → Stage β) :
    (s.andThen next).result = (next s.world a).result ∧
      (s.andThen next).world = (next s.world a).world := by
  rw [andThen, h]
  exact ⟨rfl, rfl⟩

theorem andThen_of_error (h : s.result = .error stop) (next : World → α → Stage β) :
    (s.andThen next).result = .error stop ∧ (s.andThen next).world = s.world := by
  rw [andThen, h]
  exact ⟨rfl, rfl⟩

end Stage

namespace Run

variable {w w' w'' : World} {settings : Settings} {document output path : Path} {text : Text}
  {bytes : List UInt8} {pairs before good rest : List (Path × Path)}
  {done : List (Path × Imported)} {imports : List Imported} {imported : Imported}

/-! ## Writing a result -/

/-- A result can be written to a path: no name is too long, no file is in the way, and no
    directory is at its place, even once there are directories on the way to it. -/
structure Accepts (w : World) (output : Path) : Prop where
  noNul : ¬output.holdsNul
  short : ¬World.isLongPath output
  last : ∃ name, output.components.getLast? = some name ∧ name ≠ parentName ∧
    ¬World.isLongName name
  parent : w.Admits output.parent
  apart : output.place ∉ output.parent.way
  noDirectory : w.entryAt? output.place ≠ some .directory

/-- A file is written to a path, and directories are added on the way to it. -/
structure Written (w w' : World) (output : Path) (bytes : List UInt8) : Prop where
  grows : w.Grows w'
  file : w'.find output = .ok (.file bytes)
  entry : ∀ place, w'.entryAt? place = w.entryAt? place ∨ place = output.place ∨
    (place ∈ output.way ∧ w.entryAt? place = none ∧ w'.entryAt? place = some .directory)

theorem not_holdsNul_parent (h : ¬output.holdsNul) : ¬output.parent.holdsNul := by
  rw [Path.holdsNul, List.any_eq_true] at h ⊢
  exact fun ⟨name, hname, hnul⟩ => h ⟨name, List.dropLast_subset _ hname, hnul⟩

theorem writeResult_cases (h : (writeResult w output text).result = .ok ()) :
    ¬output.holdsNul ∧ ∃ w', w.ensureDirectory output.parent = .ok w' ∧
      w'.writeFile output (Utf8.encode text) = .ok (writeResult w output text).world := by
  rw [writeResult] at h ⊢
  cases hroom : (makeRoom w output).result with
  | error stop =>
    rw [(Stage.andThen_of_error hroom _).1] at h
    cases h
  | ok _ =>
    obtain ⟨hresult, hworld⟩ :=
      Stage.andThen_of_ok hroom fun w () => putResult w output text
    rw [hresult] at h
    rw [hworld]
    rw [makeRoom] at hroom h ⊢
    split at hroom
    · cases hroom
    · rename_i hnul
      rw [if_neg hnul] at h ⊢
      cases hensure : w.ensureDirectory output.parent with
      | error refusal =>
        rw [hensure] at hroom
        cases hroom
      | ok above =>
        rw [hensure] at h
        dsimp only at h ⊢
        rw [putResult] at h ⊢
        split at h
        · cases h
        · rename_i hnul'
          rw [if_neg hnul']
          refine ⟨hnul', above, rfl, ?_⟩
          cases hwrite : above.writeFile output (Utf8.encode text) with
          | error refusal =>
            rw [hwrite] at h
            cases h
          | ok written => rfl

theorem writeResult_of_ok (hnul : ¬output.holdsNul)
    (hensure : w.ensureDirectory output.parent = .ok w')
    (hwrite : w'.writeFile output (Utf8.encode text) = .ok w'') :
    writeResult w output text = ⟨.ok (), w'', []⟩ := by
  have hroom : makeRoom w output = ⟨.ok (), w', []⟩ := by
    rw [makeRoom, if_neg (not_holdsNul_parent hnul), hensure]
  rw [writeResult, hroom, Stage.andThen]
  dsimp only
  rw [putResult, if_neg hnul, hwrite]
  rfl

/-- Whether a result can be written does not depend on the result. -/
theorem writeResult_eq_ok_iff : (writeResult w output text).result = .ok () ↔ Accepts w output := by
  constructor
  · intro h
    obtain ⟨hnul, above, hensure, hwrite⟩ := writeResult_cases h
    obtain ⟨⟨name, hslot⟩, hentry, -⟩ := World.writeFile_eq_ok_iff.1 hwrite
    obtain ⟨hlast, hname, hlong, hshort, -⟩ := World.slot_eq_some_iff.1 hslot
    obtain ⟨hadds, hfind⟩ := World.ensureDirectory_eq_ok hensure
    refine ⟨hnul, hlong, ⟨name, hlast, hname, hshort⟩,
      World.exists_ensureDirectory_iff.1 ⟨above, hensure⟩, fun hmem => ?_, fun hdirectory => ?_⟩
    · exact hentry ((World.find_eq_directory_iff.1 hfind).2 _ hmem)
    · exact hentry (hadds.grows.directory hdirectory)
  · intro h
    obtain ⟨above, hensure⟩ := World.exists_ensureDirectory_iff.2 h.parent
    obtain ⟨hadds, hfind⟩ := World.ensureDirectory_eq_ok hensure
    obtain ⟨name, hlast, hname, hshort⟩ := h.last
    have hslot : above.slot output = .ok (some (output.parent.place, name)) :=
      World.slot_eq_some_iff.2 ⟨hlast, hname, h.short, hshort, hfind, rfl⟩
    have hentry : above.entryAt? output.place ≠ some .directory := by
      rcases hadds output.place with heq | ⟨hmem, -⟩
      · rw [heq]
        exact h.noDirectory
      · exact absurd hmem h.apart
    obtain ⟨w', hwrite⟩ : ∃ w', above.writeFile output (Utf8.encode text) = .ok w' :=
      ⟨_, World.writeFile_eq_ok_iff.2 ⟨⟨name, hslot⟩, hentry, rfl⟩⟩
    rw [writeResult_of_ok h.noNul hensure hwrite]

theorem written_of_accepts (h : Accepts w output) (text : Text) :
    Written w (writeResult w output text).world output (Utf8.encode text) := by
  obtain ⟨-, above, hensure, hwrite⟩ := writeResult_cases (writeResult_eq_ok_iff.2 h)
  obtain ⟨hadds, -⟩ := World.ensureDirectory_eq_ok hensure
  obtain ⟨⟨name, hslot⟩, hentry, hput⟩ := World.writeFile_eq_ok_iff.1 hwrite
  obtain ⟨hlast, hname, -⟩ := World.slot_eq_some_iff.1 hslot
  rw [hput]
  refine ⟨hadds.grows.trans (World.Grows.put _ hentry), ?_, fun place => ?_⟩
  · exact (World.find_put _ hslot (Path.place_eq_concat hlast hname ▸ hentry)).2
  · by_cases hplace : place = output.place
    · exact .inr (.inl hplace)
    · rw [World.entryAt?_put_of_ne above _ hplace]
      exact (hadds place).imp_right fun ⟨hmem, hentry⟩ =>
        .inr ⟨Path.mem_way_of_mem_parent hmem, hentry⟩

/-! ## Documents and results -/

/-- Results that can be written without getting in the way of each other, of the documents and
    of what is imported into them. -/
structure Clear (settings : Settings) (w : World) (pairs : List (Path × Path)) : Prop where
  /-- Each result could be written alone. -/
  writable : ∀ pair ∈ pairs, (writeResult w pair.2 []).result = .ok ()
  /-- No result lies on the way to another, or at its place. -/
  apart : pairs.Pairwise fun a b => a.2.place ∉ b.2.way ∧ b.2.place ∉ a.2.way
  /-- No result is a document. -/
  documents : ∀ pair ∈ pairs, ∀ other ∈ pairs, pair.2.place ≠ other.1.place
  /-- No result is a file that a document asks for. -/
  imports : ∀ pair ∈ pairs, ∀ other ∈ pairs,
    ∀ path ∈ (Import.file settings settings.root w.read other.1).trace.reads,
      pair.2.place ≠ path.place
  /-- A path with `..` leads to a document that is there. -/
  reached : ∀ pair ∈ pairs, parentName ∈ pair.1.components → ∃ bytes, w.readBytes pair.1 = .ok bytes

/-- Results with different paths whose directories can be made, none of them a document or a file
    that is imported. -/
structure Tidy (settings : Settings) (w : World) (pairs : List (Path × Path)) : Prop where
  nodup : (pairs.map Prod.snd).Nodup
  makeable : ∀ pair ∈ pairs, (w.ensureDirectory pair.2.parent).isOk
  documents : ∀ pair ∈ pairs, ∀ other ∈ pairs, pair.2.place ≠ other.1.place
  imports : ∀ pair ∈ pairs, ∀ other ∈ pairs,
    ∀ path ∈ (Import.file settings settings.root w.read other.1).trace.reads,
      pair.2.place ≠ path.place

theorem Clear.tidy (h : Clear settings w pairs) : Tidy settings w pairs := by
  refine ⟨List.pairwise_map.2 (h.apart.imp ?_), fun pair hpair => ?_, h.documents, h.imports⟩
  · rintro a b ⟨hway, -⟩ heq
    exact hway (heq ▸ a.2.place_mem_way)
  · obtain ⟨-, above, hensure, -⟩ := writeResult_cases (h.writable pair hpair)
    rw [hensure]
    rfl

/-- What a run has changed in the world since its start: it has written results, and directories
    on the way to them. -/
structure Since (w w' : World) (done : List (Path × Imported)) : Prop where
  grows : w.Grows w'
  file : ∀ e ∈ done, w'.find e.1 = .ok (.file (Utf8.encode e.2.text))
  entry : ∀ place, w'.entryAt? place = w.entryAt? place ∨ (∃ e ∈ done, place = e.1.place) ∨
    (w.entryAt? place = none ∧ w'.entryAt? place = some .directory ∧ ∃ e ∈ done, place ∈ e.1.way)

theorem Since.refl (w : World) : Since w w [] :=
  ⟨.refl w, nofun, fun _ => .inl rfl⟩

/-- One more result is written. -/
theorem Since.step (h : Since w w' done)
    (hwritten : Written w' w'' output (Utf8.encode imported.text))
    (hapart : ∀ e ∈ done, e.1.place ≠ output.place) :
    Since w w'' (done ++ [(output, imported)]) := by
  refine ⟨h.grows.trans hwritten.grows, fun e he => ?_, fun place => ?_⟩
  · rcases List.mem_append.1 he with he | he
    · -- What was written before is not touched.
      have hfile := (World.find_eq_ok_iff.1 (h.file e he)).2.2
      refine hwritten.grows.find_of_ok (h.file e he) ?_
      rcases hwritten.entry e.1.place with heq | heq | ⟨-, hnone, -⟩
      · exact heq
      · exact absurd heq (hapart e he)
      · exact nomatch hnone.symm.trans hfile
    · rw [List.mem_singleton.1 he]
      exact hwritten.file
  · have hlast : (output, imported) ∈ done ++ [(output, imported)] :=
      List.mem_append_right _ List.mem_cons_self
    rcases hwritten.entry place with heq | rfl | ⟨hmem, hnone, hadded⟩
    · rw [heq]
      rcases h.entry place with hold | ⟨e, he, hplace⟩ | ⟨hnone, hadded, e, he, hmem⟩
      · exact .inl hold
      · exact .inr (.inl ⟨e, List.mem_append_left _ he, hplace⟩)
      · exact .inr (.inr ⟨hnone, hadded, e, List.mem_append_left _ he, hmem⟩)
    · exact .inr (.inl ⟨_, hlast, rfl⟩)
    · right
      rcases h.entry place with hold | ⟨e, he, hplace⟩ | ⟨-, hdirectory, -⟩
      · exact .inr ⟨hold.symm.trans hnone, hadded, _, hlast, hmem⟩
      · exact .inl ⟨e, List.mem_append_left _ he, hplace⟩
      · exact nomatch hnone.symm.trans hdirectory

/-- The results that a run still has to write can be written as at its start. -/
theorem Since.accepts (h : Since w w' done) (haccepts : Accepts w output)
    (hapart : ∀ e ∈ done, e.1.place ∉ output.way ∧ output.place ∉ e.1.way) : Accepts w' output := by
  refine ⟨haccepts.noNul, haccepts.short, haccepts.last, ⟨haccepts.parent.fits,
    fun place hplace bytes hfile => ?_⟩, haccepts.apart, fun hdirectory => ?_⟩
  · rcases h.entry place with heq | ⟨e, he, rfl⟩ | ⟨-, hadded, -⟩
    · exact haccepts.parent.noFile place hplace bytes (heq.symm.trans hfile)
    · exact (hapart e he).1 (Path.mem_way_of_mem_parent hplace)
    · exact nomatch hadded.symm.trans hfile
  · rcases h.entry output.place with heq | ⟨e, he, heq⟩ | ⟨-, -, e, he, hmem⟩
    · exact haccepts.noDirectory (heq.symm.trans hdirectory)
    · exact (hapart e he).1 (heq ▸ output.place_mem_way)
    · exact (hapart e he).2 hmem

/-- A file that a run has not written is read as at its start; and what could not be read then
    cannot be read now, unless `..` leads to it. -/
theorem Since.similar_read (hw : w.IsTree) (h : Since w w' done)
    (hplace : ∀ e ∈ done, e.1.place ≠ path.place)
    (hup : parentName ∈ path.components → ∃ bytes, w.readBytes path = .ok bytes) :
    Similar (w.read path) (w'.read path) := by
  have hsame {bytes : List UInt8} (hfind : w.find path = .ok (.file bytes)) :
      w'.find path = .ok (.file bytes) := by
    refine h.grows.find_of_ok hfind ?_
    rcases h.entry path.place with heq | ⟨e, he, heq⟩ | ⟨hnone, -⟩
    · exact heq
    · exact absurd heq.symm (hplace e he)
    · exact nomatch hnone.symm.trans (World.find_eq_ok_iff.1 hfind).2.2
  have hback {bytes : List UInt8} (hfind : w'.find path = .ok (.file bytes)) :
      ∃ bytes, w.find path = .ok (.file bytes) := by
    by_cases hparent : parentName ∈ path.components
    · obtain ⟨bytes, hbytes⟩ := hup hparent
      exact ⟨bytes, World.readBytes_eq_ok_iff.1 hbytes⟩
    · refine ⟨bytes, (hw.find_eq_ok_iff hparent).2 ⟨World.fits_of_find hparent hfind, ?_⟩⟩
      have hfile := (World.find_eq_ok_iff.1 hfind).2.2
      rcases h.entry path.place with heq | ⟨e, he, heq⟩ | ⟨-, hadded, -⟩
      · exact heq.symm.trans hfile
      · exact absurd heq.symm (hplace e he)
      · exact nomatch hadded.symm.trans hfile
  rw [World.read, World.read]
  split
  · exact .refl _
  · rw [World.readText, World.readText]
    cases hread : w.readBytes path with
    | ok bytes =>
      rw [World.readBytes_eq_ok_iff.2 (hsame (World.readBytes_eq_ok_iff.1 hread))]
      exact .refl _
    | error fault =>
      cases hread' : w'.readBytes path with
      | ok bytes =>
        obtain ⟨bytes', hfind⟩ := hback (World.readBytes_eq_ok_iff.1 hread')
        exact nomatch hread.symm.trans (World.readBytes_eq_ok_iff.2 hfind)
      | error fault' => exact .inr ⟨_, _, rfl, rfl, rfl, rfl⟩

/-! ## Runs -/

/-- What is written so far are results of the documents before. -/
theorem exists_pair_of_done (hdone : done.map Prod.fst = before.map Prod.snd)
    {e : Path × Imported} (he : e ∈ done) : ∃ pair ∈ before, pair.2 = e.1 :=
  List.mem_map.1 (hdone ▸ List.mem_map_of_mem he)

/-- The results that are written so far and those that are still to be written do not get in
    each other's way. -/
theorem Clear.apart_of_done (h : Clear settings w (before ++ rest))
    (hdone : done.map Prod.fst = before.map Prod.snd) {pair : Path × Path} (hpair : pair ∈ rest) :
    ∀ e ∈ done, e.1.place ∉ pair.2.way ∧ pair.2.place ∉ e.1.way := by
  intro e he
  obtain ⟨other, hother, heq⟩ := exists_pair_of_done hdone he
  exact heq ▸ (List.pairwise_append.1 h.apart).2.2 other hother pair hpair

/-- A document is imported as at the start of the run. -/
theorem Since.similar_file (hw : w.IsTree) (hclear : Clear settings w (before ++ rest))
    (h : Since w w' done) (hdone : done.map Prod.fst = before.map Prod.snd)
    (hmem : (document, output) ∈ rest) :
    Similar (Import.file settings settings.root w.read document).result
      (Import.file settings settings.root w'.read document).result := by
  have hpair : (document, output) ∈ before ++ rest := List.mem_append_right _ hmem
  -- The results that are written belong to documents before this one.
  have hwritten {place : List Text} (hplace : ∀ pair ∈ before ++ rest, pair.2.place ≠ place) :
      ∀ e ∈ done, e.1.place ≠ place := by
    intro e he
    obtain ⟨other, hother, heq⟩ := exists_pair_of_done hdone he
    exact heq ▸ hplace other (List.mem_append_left _ hother)
  refine Import.similar_file ?_ fun asked hasked => ?_
  · exact h.similar_read hw (hwritten fun pair hpair' => hclear.documents pair hpair' _ hpair)
      (hclear.reached _ hpair)
  · refine h.similar_read hw (hwritten fun pair hpair' => ?_) fun hparent => ?_
    · exact hclear.imports pair hpair' _ hpair asked hasked
    · exact absurd hparent
        (Import.not_mem_reads_file settings settings.root w.read document asked hasked)

/-- A document whose import has a result is imported, and the result is written. -/
theorem importOne_of_ok
    (hresult : (Import.file settings settings.root w.read document).result = .ok imported)
    (haccepts : Accepts w output) :
    ∃ w', (importOne settings w document output).result = .ok imported ∧
      (importOne settings w document output).world = w' ∧
        Written w w' output (Utf8.encode imported.text) := by
  refine ⟨_, ?_, rfl, ?_⟩
  · rw [importOne]
    dsimp only
    rw [hresult]
    exact (Stage.andThen_of_ok (writeResult_eq_ok_iff.2 haccepts) _).1
  · rw [importOne]
    dsimp only
    rw [hresult]
    show Written w ((writeResult w output imported.text).andThen _).world output _
    rw [(Stage.andThen_of_ok (writeResult_eq_ok_iff.2 haccepts) _).2]
    exact written_of_accepts haccepts imported.text

/-- A run that is through with some documents has written their results, and goes on with the
    others. -/
theorem importEach_append (hw : w.IsTree) (hclear : Clear settings w (before ++ (good ++ rest)))
    (hsince : Since w w' done) (hdone : done.map Prod.fst = before.map Prod.snd)
    (himports : List.Forall₂ (fun pair imported =>
      (Import.file settings settings.root w.read pair.1).result = .ok imported) good imports) :
    ∃ w'', Since w w'' (done ++ (good.map Prod.snd).zip imports) ∧
      (importEach settings w' (good ++ rest)).result =
        (importEach settings w'' rest).result.map ((good.map Prod.snd).zip imports ++ ·) ∧
      (importEach settings w' (good ++ rest)).world = (importEach settings w'' rest).world := by
  induction himports generalizing before done w' with
  | nil =>
    refine ⟨w', by simpa using hsince, ?_, rfl⟩
    show (importEach settings w' rest).result = _
    cases (importEach settings w' rest).result <;> rfl
  | @cons pair imported good imports himported himports ih =>
    obtain ⟨document, output⟩ := pair
    have hmem : (document, output) ∈ (document, output) :: good ++ rest := List.mem_cons_self
    have hapart := hclear.apart_of_done hdone hmem
    have hresult := (hsince.similar_file hw hclear hdone hmem).eq_ok himported
    have haccepts := hsince.accepts (writeResult_eq_ok_iff.1
      (hclear.writable _ (List.mem_append_right before hmem))) hapart
    obtain ⟨above, hone, habove, hwritten⟩ := importOne_of_ok hresult haccepts
    have hstep := hsince.step hwritten fun e he heq => (hapart e he).1 (heq ▸ output.place_mem_way)
    have hclear' : Clear settings w (before ++ [(document, output)] ++ (good ++ rest)) := by
      rw [List.append_assoc]
      exact hclear
    obtain ⟨w'', hsince', hresult', hworld'⟩ := ih hclear' hstep (by simp [hdone])
    refine ⟨w'', by simpa using hsince', ?_, ?_⟩
    · rw [List.cons_append, importEach, (Stage.andThen_of_ok hone _).1, habove]
      show (importEach settings above (good ++ rest)).result.map _ = _
      rw [hresult']
      cases (importEach settings w'' rest).result <;> rfl
    · rw [List.cons_append, importEach, (Stage.andThen_of_ok hone _).2, habove]
      exact hworld'

/-- The results of a run stand at the paths to which they are written. -/
theorem map_fst_zip {R : Path × Path → Imported → Prop} (h : List.Forall₂ R pairs imports) :
    ((pairs.map Prod.snd).zip imports).map Prod.fst = pairs.map Prod.snd := by
  rw [List.map_fst_zip]
  rw [List.length_map, h.length_eq]

/-- If no document fails, every result is written. -/
theorem importEach_of_ok (hw : w.IsTree) (hclear : Clear settings w pairs)
    (himports : List.Forall₂ (fun pair imported =>
      (Import.file settings settings.root w.read pair.1).result = .ok imported) pairs imports) :
    (importEach settings w pairs).result = .ok ((pairs.map Prod.snd).zip imports) ∧
      Since w (importEach settings w pairs).world ((pairs.map Prod.snd).zip imports) := by
  have hclear' : Clear settings w ([] ++ (pairs ++ [])) := by simpa using hclear
  obtain ⟨w', hsince, hresult, hworld⟩ :=
    importEach_append hw hclear' (Since.refl w) rfl himports
  rw [List.append_nil] at hresult hworld
  rw [hresult, hworld, importEach]
  exact ⟨congrArg Except.ok (List.append_nil _), hsince⟩

/-- With the first document that fails the run stops, and only the results before it are
    written. -/
theorem importEach_of_error (hw : w.IsTree)
    (hclear : Clear settings w (good ++ (document, output) :: rest))
    (himports : List.Forall₂ (fun pair imported =>
      (Import.file settings settings.root w.read pair.1).result = .ok imported) good imports)
    {failure : Failure} (hfailure : (Import.file settings settings.root w.read document).result =
      .error failure) (himport : failure.isImportError) :
    (∃ failure', failure'.isImportError ∧
      (importEach settings w (good ++ (document, output) :: rest)).result =
        .error (importStop failure')) ∧
      Since w (importEach settings w (good ++ (document, output) :: rest)).world
        ((good.map Prod.snd).zip imports) := by
  have hclear' : Clear settings w ([] ++ (good ++ (document, output) :: rest)) := hclear
  obtain ⟨w', hsince, hresult, hworld⟩ :=
    importEach_append hw hclear' (Since.refl w) rfl himports
  obtain ⟨failure', hfailure', himport'⟩ := (hsince.similar_file hw hclear
    (map_fst_zip himports) List.mem_cons_self).exists_error hfailure himport
  have hone : (importOne settings w' document output).result = .error (importStop failure') ∧
      (importOne settings w' document output).world = w' := by
    rw [importOne]
    dsimp only
    rw [hfailure']
    exact ⟨rfl, rfl⟩
  rw [importEach, (Stage.andThen_of_error hone.1 _).1] at hresult
  rw [importEach, (Stage.andThen_of_error hone.1 _).2, hone.2] at hworld
  rw [hresult, hworld]
  exact ⟨⟨failure', himport', rfl⟩, hsince⟩

/-- Without an absolute root directory nothing is imported. -/
theorem importAll_of_relative {root : Text} (hroot : settings.checkedRoot = .error root)
    (pairs : List (Path × Path)) (w : World) :
    (∃ text, (importAll ⟨settings, pairs⟩ w).result = .error (.exit 1 text)) ∧
      (importAll ⟨settings, pairs⟩ w).world = w := by
  rw [importAll]
  dsimp only
  rw [hroot]
  exact ⟨⟨_, rfl⟩, rfl⟩

theorem importAll_of_checkedRoot {root : Text} (hroot : settings.checkedRoot = .ok root)
    (pairs : List (Path × Path)) (w : World) :
    (importAll ⟨settings, pairs⟩ w).result = (importEach settings w pairs).result ∧
      (importAll ⟨settings, pairs⟩ w).world = (importEach settings w pairs).world := by
  rw [importAll]
  dsimp only
  rw [hroot]
  exact ⟨rfl, rfl⟩

theorem Since.readBytes (h : Since w w' done) :
    ∀ e ∈ done, w'.readBytes e.1 = .ok (Utf8.encode e.2.text) :=
  fun e he => World.readBytes_eq_ok_iff.2 (h.file e he)

/-- A run whose results do not get in the way of anything leaves the same behind as if all
    documents had been imported at the start. If none of them fails, every result is written, and
    the results are listed in order. If the documents before one do not fail and that one fails
    for a reason that is the business of an import, the run exits with status 1: the results
    before it are written, and at the places of the others nothing has changed. Without an
    absolute root directory the run exits with status 1 and does nothing. -/
theorem importAll_writes_in_order (hw : w.IsTree) (hclear : Clear settings w pairs) :
    let run := importAll ⟨settings, pairs⟩ w
    let result (document : Path) := (Import.file settings settings.root w.read document).result
    (∀ root, settings.checkedRoot = .error root →
      (∃ text, run.result = .error (.exit 1 text)) ∧ run.world = w) ∧
    ∀ root, settings.checkedRoot = .ok root →
      (∀ imports, List.Forall₂ (fun pair imported => result pair.1 = .ok imported) pairs imports →
        run.result = .ok ((pairs.map Prod.snd).zip imports) ∧
        ∀ e ∈ (pairs.map Prod.snd).zip imports,
          run.world.readBytes e.1 = .ok (Utf8.encode e.2.text)) ∧
      ∀ good document output rest imports failure,
        pairs = good ++ (document, output) :: rest →
        List.Forall₂ (fun pair imported => result pair.1 = .ok imported) good imports →
        result document = .error failure → failure.isImportError →
          (∃ shown : Failure,
            run.result = .error (.exit 1 s!"Import error: {shown.message}\n")) ∧
          (∀ e ∈ (good.map Prod.snd).zip imports,
            run.world.readBytes e.1 = .ok (Utf8.encode e.2.text)) ∧
          ∀ pair ∈ (document, output) :: rest,
            run.world.entryAt? pair.2.place = w.entryAt? pair.2.place := by
  intro run result
  refine ⟨fun root hroot => importAll_of_relative hroot pairs w, fun root hroot => ?_⟩
  · obtain ⟨hresult, hworld⟩ := importAll_of_checkedRoot hroot pairs w
    refine ⟨fun imports himports => ?_, ?_⟩
    · obtain ⟨hok, hsince⟩ := importEach_of_ok hw hclear himports
      exact ⟨hresult.trans hok, hworld ▸ hsince.readBytes⟩
    · rintro good document output rest imports failure rfl himports hfailure himport
      obtain ⟨⟨failure', himport', herror⟩, hsince⟩ :=
        importEach_of_error hw hclear himports hfailure himport
      refine ⟨⟨failure', hresult.trans (herror.trans ?_)⟩, hworld ▸ hsince.readBytes,
        fun pair hpair => ?_⟩
      · rw [importStop, if_pos himport']
      · have hapart := hclear.apart_of_done (map_fst_zip himports) hpair
        show (importAll _ w).world.entryAt? _ = _
        rw [hworld]
        rcases hsince.entry pair.2.place with heq | ⟨e, he, heq⟩ | ⟨-, -, e, he, hmem⟩
        · exact heq
        · exact absurd (heq ▸ pair.2.place_mem_way) (hapart e he).1
        · exact absurd hmem (hapart e he).2

/-- Tidy results can still get in each other's way: a directory is at the place of a result, a
    result lies on the way to another, or the way to a document leads through a directory that is
    only made for a result, and a document that could not be read at the start is imported. -/
theorem importAll_of_tidy :
    let entries : List (List Text × Entry) := [(["in".toList], .directory),
      (["in".toList, "a".toList], .file []), (["in".toList, "b".toList], .file [])]
    let path (names : List String) : Path := ⟨.absolute, names.map String.toList⟩
    let settings : Settings := { rootDir := some "/".toList }
    let run (w : World) (pairs : List (Path × Path)) := importAll ⟨settings, pairs⟩ w
    let result (w : World) (document : Path) :=
      (Import.file settings settings.root w.read document).result
    let blocked : World :=
      ⟨entries ++ [(["out".toList], .directory), (["out".toList, "a".toList], .directory)]⟩
    let alone := [(path ["in", "a"], path ["out", "a"])]
    let nested := alone ++ [(path ["in", "b"], path ["out", "a", "b"])]
    let climbing := [(path ["in", "a"], path ["out", "new", "a"]),
      (path ["out", "new", "..", "..", "in", "b"], path ["out", "b"])]
    (blocked.IsTree ∧ Tidy settings blocked alone ∧
      result blocked (path ["in", "a"]) = .ok ⟨[], 0, []⟩ ∧
      (run blocked alone).result =
        .error (.breakdown (.refused ⟨.isADirectory, path ["out", "a"]⟩))) ∧
    (World.IsTree ⟨entries⟩ ∧ Tidy settings ⟨entries⟩ nested ∧
      (∀ pair ∈ nested, result ⟨entries⟩ pair.1 = .ok ⟨[], 0, []⟩) ∧
      (run ⟨entries⟩ nested).result =
        .error (.breakdown (.refused ⟨.alreadyExists, path ["out", "a"]⟩))) ∧
    (Tidy settings ⟨entries⟩ climbing ∧
      result ⟨entries⟩ (path ["out", "new", "..", "..", "in", "b"]) =
        .error (.unreadable "/out/new/../../in/b".toList (.refused .notFound)) ∧
      (run ⟨entries⟩ climbing).result =
        .ok [(path ["out", "new", "a"], ⟨[], 0, []⟩), (path ["out", "b"], ⟨[], 0, []⟩)]) := by
  intro entries path settings run result blocked alone nested climbing
  refine ⟨⟨?_, ?_, by decide +kernel, by decide +kernel⟩,
    ⟨?_, ?_, by decide +kernel, by decide +kernel⟩, ?_, by decide +kernel, by decide +kernel⟩
  all_goals exact ⟨by decide +kernel, by decide +kernel, by decide +kernel, by decide +kernel⟩

/-- The second of two documents is missing: the result of the first is written, and nothing
    takes the place of the second. -/
theorem importAll_writes_in_order_of_missing_document :
    let first : Text := "~~~x file=f\n~~~\n".toList
    let w : World := ⟨[(["in".toList], .directory),
      (["in".toList, "a.md".toList], .file (Utf8.encode first)),
      (["in".toList, "f".toList], .file (Utf8.encode "NEW".toList))]⟩
    let inside (name : Text) : Path := ⟨.absolute, ["in".toList, name]⟩
    let outside (name : Text) : Path := ⟨.absolute, ["out".toList, name]⟩
    let settings : Settings := { rootDir := some "/in".toList }
    let pairs := [(inside "a.md".toList, outside "a.md".toList),
      (inside "b.md".toList, outside "b.md".toList)]
    let run := importAll ⟨settings, pairs⟩ w
    w.IsTree ∧ Clear settings w pairs ∧ settings.checkedRoot = .ok "/in".toList ∧
      (∃ shown : Failure,
        run.result = .error (.exit 1 s!"Import error: {shown.message}\n")) ∧
      run.world.readBytes (outside "a.md".toList) =
        .ok (Utf8.encode "~~~x file=f\nNEW\n~~~\n".toList) ∧
      run.world.entryAt? ["out".toList, "b.md".toList] = none := by
  intro first w inside outside settings pairs run
  have hw : w.IsTree := ⟨by decide +kernel, by decide +kernel, by decide +kernel, by decide +kernel⟩
  have hclear : Clear settings w pairs := by
    refine ⟨by decide +kernel, by decide +kernel, by decide +kernel, by decide +kernel, ?_⟩
    have hdown : ∀ pair ∈ pairs, parentName ∉ pair.1.components := by decide +kernel
    exact fun pair hpair hparent => absurd hparent (hdown pair hpair)
  have himport : (Import.file settings settings.root w.read (inside "a.md".toList)).result =
      .ok ⟨"~~~x file=f\nNEW\n~~~\n".toList, 1, []⟩ := by
    decide +kernel
  have hmissing : (Import.file settings settings.root w.read (inside "b.md".toList)).result =
      .error (.unreadable "/in/b.md".toList (.refused .notFound)) := by
    decide +kernel
  obtain ⟨hexit, hwritten, hrest⟩ := ((importAll_writes_in_order hw hclear).2 _ rfl).2
    [(inside "a.md".toList, outside "a.md".toList)] _ _ [] [_] _ rfl
    (.cons himport .nil) hmissing rfl
  refine ⟨hw, hclear, rfl, hexit, hwritten _ List.mem_cons_self, ?_⟩
  exact (hrest _ List.mem_cons_self).trans (by decide +kernel)

end Run

end Transclude
