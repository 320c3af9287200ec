import SkySources.Proofs.Run.Steps
import SkySources.Proofs.Survey.Accepted
import SkySources.Proofs.Traverse

/-!
# One file of a run

The search in a file and the summary of it depend on the file alone (`searchIn`). A file
that is gone through has a search, its selected exports hold what is found, and nothing
else is written (`file_eq_ok`). That needs three things of a store, which only hold for
some files (`Ready`): the search comes to an end, the exports can be computed, and there is
a place for each of them (`exists_file`). What has been exported stays where nothing is
written over it (`Exported.of_rewrites`), and so does the search in a file
(`searchIn_of_rewrites`).
-/

namespace SkySources.Run

open Store

variable {search : SearchSettings} {output : ExportSettings} {s t : Store}

/-! ## Writing several files -/

theorem saves_rewrites {entries : List (String × Item)} (h : saves output entries s = .ok t)
    (hitems : ∀ e ∈ entries, e.2 ≠ .directory) :
    Rewrites (fun q => ∃ e ∈ entries, s.locate (exportPath output e.1) = .ok q) s t := by
  induction entries generalizing s with
  | nil =>
    cases h
    exact .refl _ _
  | cons e entries ih =>
    obtain ⟨u, hfirst, hrest⟩ := saves_cons_iff.1 h
    have hu := write_rewrites hfirst (hitems e List.mem_cons_self)
    have ht := ih hrest fun e' he' => hitems e' (List.mem_cons_of_mem _ he')
    refine (hu.trans ht).mono ?_
    rintro q (hq | ⟨e', he', hq⟩)
    · exact ⟨e, List.mem_cons_self, hq⟩
    · exact ⟨e', List.mem_cons_of_mem _ he', hu.locate_iff.1 hq⟩

/-- Files of different names are all there when the last one is written. -/
theorem read_of_saves {entries : List (String × Item)} (h : saves output entries s = .ok t)
    (hitems : ∀ e ∈ entries, e.2 ≠ .directory) (hproper : ∀ e ∈ entries, IsProper e.1)
    (hnodup : (entries.map Prod.fst).Nodup) {e : String × Item} (he : e ∈ entries) :
    t.read (exportPath output e.1) = .ok e.2 := by
  induction entries generalizing s with
  | nil => cases he
  | cons first entries ih =>
    obtain ⟨u, hfirst, hrest⟩ := saves_cons_iff.1 h
    rw [List.map_cons, List.nodup_cons] at hnodup
    have hitems' : ∀ e ∈ entries, e.2 ≠ .directory :=
      fun e' he' => hitems e' (List.mem_cons_of_mem _ he')
    rcases List.mem_cons.1 he with rfl | he
    · have hread := read_of_write hfirst (hitems _ List.mem_cons_self)
      refine ((saves_rewrites hrest hitems').read_iff ?_).2 hread
      -- no later name leads to the place of the first one
      rintro q hq ⟨e', he', hq'⟩
      have hsame := locate_child_inj (hproper _ List.mem_cons_self)
        (hproper e' (List.mem_cons_of_mem _ he')) hq hq'
      exact hnodup.1 (hsame ▸ List.mem_map_of_mem he')
    · exact ih hrest hitems' (fun e' he' => hproper e' (List.mem_cons_of_mem _ he')) hnodup.2 he

/-- Files can be written one after the other if each of them can be written at first. -/
theorem exists_saves {entries : List (String × Item)} (hitems : ∀ e ∈ entries, e.2 ≠ .directory)
    (hplaces : ∀ e ∈ entries, ∃ q, s.locate (exportPath output e.1) = .ok q ∧
      s.item? q ≠ some .directory) : ∃ t, saves output entries s = .ok t := by
  induction entries generalizing s with
  | nil => exact ⟨s, rfl⟩
  | cons e entries ih =>
    obtain ⟨q, hq, hi⟩ := hplaces e List.mem_cons_self
    have hfirst : s.write (exportPath output e.1) e.2 = .ok (s.put q e.2) :=
      write_eq_ok_iff.2 ⟨q, hq, hi, rfl⟩
    have hW := write_rewrites hfirst (hitems e List.mem_cons_self)
    have hplaces' : ∀ e' ∈ entries, ∃ q', (s.put q e.2).locate (exportPath output e'.1) = .ok q' ∧
        (s.put q e.2).item? q' ≠ some .directory := by
      intro e' he'
      obtain ⟨q', hq', hi'⟩ := hplaces e' (List.mem_cons_of_mem _ he')
      exact ⟨q', hW.locate_iff.2 hq', mt (hW.directory q').1 hi'⟩
    obtain ⟨t, ht⟩ := ih (fun e' he' => hitems e' (List.mem_cons_of_mem _ he')) hplaces'
    exact ⟨t, saves_cons_iff.2 ⟨s.put q e.2, hfirst, ht⟩⟩

/-! ## What a search finds in a file -/

/-- The image of a file, with its survey. -/
structure Searched where
  image : Image Float
  survey : Survey image.rows image.cols Float

/-- The search in the file of a name, as the files of a store are. -/
def searchIn (search : SearchSettings) (output : ExportSettings) (store : Store) (name : String) :
    Except RunFault Searched := do
  let (data, _) ← (ImageFile.load store name).mapError .file
  let image ← data.image?.mapError .data
  let survey ← ((searchFor search output).survey image.grid).2.mapError .search
  return ⟨image, survey⟩

/-- The summary of what is found in the file of a name. -/
def Searched.summary (name : String) (r : Searched) : String :=
  Summary.text name r.survey.background.mean r.survey.background.sigma r.survey.islands

/-- The selected exports of a file hold what is found in it. -/
structure Exported (output : ExportSettings) (store : Store) (name : String) (r : Searched) :
    Prop where
  labelMap : output.labelMap = true → ∃ labels, r.survey.labels = some labels ∧
    store.read (exportPath output (Path.stem (Path.lastPart name) ++ ".labelmap.npy")) =
      .ok (labelItem labels)
  residuals : output.residuals = true → ∃ residual, r.survey.residual? r.image.grid = .ok residual ∧
    store.read (exportPath output (Path.stem (Path.lastPart name) ++ ".residuals.npy")) =
      .ok (doubleItem residual)
  catalogue : output.catalogue = true → ∃ text, Catalogue.text? r.survey.islands = .ok text ∧
    store.read (exportPath output (Path.stem (Path.lastPart name) ++ ".csv")) = .ok (.text text)

theorem load_eq_ok_iff {name : String} {loaded : Data × List (Event Float)} :
    ImageFile.load s name = .ok loaded ↔ name ≠ "" ∧ ∃ item, s.read (Path.ofText name) = .ok item ∧
      ImageFile.ofItem (ImageFile.format name) item = .ok loaded := by
  unfold ImageFile.load
  by_cases hname : name = ""
  · simp [hname, bind, Except.bind]
  · rw [if_neg hname]
    cases s.read (Path.ofText name) <;> simp [hname, bind, Except.bind]

theorem searchIn_eq_ok_iff {name : String} {r : Searched} : searchIn search output s name = .ok r ↔
    ∃ loaded, ImageFile.load s name = .ok loaded ∧ loaded.1.image? = .ok r.image ∧
      ((searchFor search output).survey r.image.grid).2 = .ok r.survey := by
  unfold searchIn
  cases ImageFile.load s name with
  | error fault => simp [bind, Except.bind, Except.mapError]
  | ok loaded =>
    simp only [bind, Except.bind, Except.mapError, Except.ok.injEq, exists_eq_left']
    cases loaded.1.image? with
    | error fault => simp
    | ok image =>
      simp only [Except.ok.injEq]
      constructor
      · intro h
        cases hs : ((searchFor search output).survey image.grid).2 with
        | error fault => rw [hs] at h; cases h
        | ok survey =>
          rw [hs] at h
          cases h
          exact ⟨rfl, hs⟩
      · rintro ⟨rfl, hs⟩
        rw [hs]
        rfl

/-- One file: it is announced and searched, and what is found is exported and summed up. -/
theorem file_eq_ok_iff {number count : Nat} {name : String} {p p' : Progress} :
    (file search output number count name).run p = .ok () p' ↔
      ∃ loaded, ImageFile.load p.store name = .ok loaded ∧
        ∃ image, loaded.1.image? = .ok image ∧
        ∃ survey, ((searchFor search output).survey image.grid).2 = .ok survey ∧
        ∃ entries, exports output (Path.stem (Path.lastPart name)) image.grid survey = .ok entries ∧
        ∃ store, saves output entries p.store = .ok store ∧
        p' = ⟨store, p.printed ++ announcement name number count,
          p.events ++ loaded.2 ++ ((searchFor search output).survey image.grid).1,
          p.summaries ++ (Searched.mk image survey).summary name⟩ := by
  unfold file print report summarise
  simp only [bind_eq_ok_iff, get_eq_ok_iff, lift_eq_ok_iff, modify_eq_ok_iff, and_assoc,
    exists_eq_left, exists_const, exists_and_left]
  constructor
  · rintro ⟨loaded, hload, image, himage, survey, hsurvey, _, _, hexports, rfl⟩
    obtain ⟨entries, store, hentries, hsaves, rfl⟩ := (exportAll_writes _ _ _ _ _ _).1 hexports
    exact ⟨loaded, hload, image, himage, survey, hsurvey, entries, hentries, store, hsaves, rfl⟩
  · rintro ⟨loaded, hload, image, himage, survey, hsurvey, entries, hentries, store, hsaves, rfl⟩
    exact ⟨loaded, hload, image, himage, survey, hsurvey, (), _,
      (exportAll_writes _ _ _ _ _ _).2 ⟨entries, store, hentries, hsaves, rfl⟩, rfl⟩

/-! ## Selected exports -/

/-- The label map is shown if it is to be exported. -/
theorem exists_labels {rows cols : Nat} {data : Grid rows cols Float}
    {survey : Survey rows cols Float} (h : ((searchFor search output).survey data).2 = .ok survey)
    (hselected : output.labelMap = true) : ∃ labels, survey.labels = some labels := by
  obtain ⟨c, _, _, hr⟩ := SearchSettings.surveyBy_eq_ok_iff.1 h
  obtain ⟨found, islands, _, _, rfl⟩ := Survey.run_eq_ok_iff.1 hr
  have hshows : ((searchFor search output).planWith c).shows = true := by
    show (search.labelMap || output.labelMap) = true
    rw [hselected, Bool.or_true]
  exact ⟨found.keptLabels, if_pos hshows⟩

/-! ## What is written where -/

/-- A place where an export of one of some files is written. -/
def Written (output : ExportSettings) (store : Store) (names : List String) (q : List String) :
    Prop :=
  ∃ name ∈ names, ∃ n ∈ exportNames output name, store.locate (exportPath output n) = .ok q

/-- No export of a file is written where a later file is. -/
def Spares (output : ExportSettings) (store : Store) (name later : String) : Prop :=
  ∀ n ∈ exportNames output name, ∀ q, store.locate (exportPath output n) = .ok q →
    store.locate (Path.ofText later) ≠ .ok q

/-- No export of a file has the name of an export of a later file, or is written where the
later file is. -/
structure Apart (output : ExportSettings) (store : Store) (name later : String) : Prop where
  names : ∀ n ∈ exportNames output name, n ∉ exportNames output later
  spares : Spares output store name later

/-- A file has a search and exports, which can be written. -/
def Ready (search : SearchSettings) (output : ExportSettings) (store : Store) (name : String) :
    Prop :=
  ∃ r entries, searchIn search output store name = .ok r ∧
    exports output (Path.stem (Path.lastPart name)) r.image.grid r.survey = .ok entries ∧
    ∀ n ∈ exportNames output name, ∃ q, store.locate (exportPath output n) = .ok q ∧
      store.item? q ≠ some .directory

section Exported
variable {name : String} {r : Searched} {W : List String → Prop}

/-- What has been exported stays, if nothing is written over it. -/
theorem Exported.of_rewrites (h : Exported output s name r) (hW : Rewrites W s t)
    (hfree : ∀ n ∈ exportNames output name, ∀ q, s.locate (exportPath output n) = .ok q → ¬W q) :
    Exported output t name r where
  labelMap hselected := by
    obtain ⟨labels, hl, hread⟩ := h.labelMap hselected
    exact ⟨labels, hl,
      (hW.read_iff (hfree _ (mem_exportNames_iff.2 (.inl ⟨hselected, rfl⟩)))).2 hread⟩
  residuals hselected := by
    obtain ⟨residual, hr, hread⟩ := h.residuals hselected
    exact ⟨residual, hr,
      (hW.read_iff (hfree _ (mem_exportNames_iff.2 (.inr (.inl ⟨hselected, rfl⟩))))).2 hread⟩
  catalogue hselected := by
    obtain ⟨text, ht, hread⟩ := h.catalogue hselected
    exact ⟨text, ht,
      (hW.read_iff (hfree _ (mem_exportNames_iff.2 (.inr (.inr ⟨hselected, rfl⟩))))).2 hread⟩

/-- A file that is not written over has the same search. -/
theorem searchIn_of_rewrites (hW : Rewrites W s t)
    (hfree : ∀ q, s.locate (Path.ofText name) = .ok q → ¬W q) :
    searchIn search output t name = .ok r ↔ searchIn search output s name = .ok r := by
  simp only [searchIn_eq_ok_iff, load_eq_ok_iff, hW.read_iff hfree]

/-- The search in a file that can be read is the same where more files are. -/
theorem searchIn_of_grows (hgrows : Grows s t) {loaded : Data × List (Event Float)}
    (hload : ImageFile.load s name = .ok loaded) :
    searchIn search output t name = .ok r ↔ searchIn search output s name = .ok r := by
  obtain ⟨hne, item, hread, hitem⟩ := load_eq_ok_iff.1 hload
  have hload' : ImageFile.load t name = .ok loaded :=
    load_eq_ok_iff.2 ⟨hne, item, hgrows.read hread, hitem⟩
  rw [searchIn_eq_ok_iff, searchIn_eq_ok_iff, hload, hload']

theorem Ready.of_rewrites (h : Ready search output s name) (hW : Rewrites W s t)
    (hfree : ∀ q, s.locate (Path.ofText name) = .ok q → ¬W q) : Ready search output t name := by
  obtain ⟨r, entries, hr, hentries, hplaces⟩ := h
  refine ⟨r, entries, (searchIn_of_rewrites hW hfree).2 hr, hentries, ?_⟩
  intro n hn
  obtain ⟨q, hq, hi⟩ := hplaces n hn
  exact ⟨q, hW.locate_iff.2 hq, mt (hW.directory q).1 hi⟩

theorem Spares.of_rewrites {later : String} (h : Spares output s name later) (hW : Rewrites W s t) :
    Spares output t name later := fun n hn q hq hlater =>
  h n hn q (hW.locate_iff.1 hq) (hW.locate_iff.1 hlater)

/-- The exports of a file are not written where a later file is. -/
theorem Spares.free {later : String} {place : List String} (h : Spares output s name later)
    (hplace : s.locate (Path.ofText later) = .ok place) : ¬Written output s [name] place := by
  rintro ⟨_, hsame, n, hn, hwritten⟩
  rw [List.mem_singleton.1 hsame] at hn
  exact h n hn place hwritten hplace

end Exported

/-- What is exported is what is found in the file, and nothing else is written. -/
theorem file_eq_ok {number count : Nat} {name : String} {p p' : Progress}
    (h : (file search output number count name).run p = .ok () p') :
    ∃ r, searchIn search output p.store name = .ok r ∧ Exported output p'.store name r ∧
      Rewrites (Written output p.store [name]) p.store p'.store ∧
      p'.printed = p.printed ++ announcement name number count ∧
      p'.summaries = p.summaries ++ r.summary name := by
  obtain ⟨loaded, hload, image, himage, survey, hsurvey, entries, hentries, store, hsaves, rfl⟩ :=
    file_eq_ok_iff.1 h
  have hitems : ∀ e ∈ entries, e.2 ≠ .directory := fun e => ne_directory_of_mem_exports hentries
  have hnames : ∀ e ∈ entries, e.1 ∈ exportNames output name :=
    fun e => mem_exportNames_of_mem_exports hentries
  have hread (n : String) (item : Item) (he : (n, item) ∈ entries) :
      store.read (exportPath output n) = .ok item :=
    read_of_saves hsaves hitems (fun e he => isProper_of_mem_exportNames (hnames e he))
      (nodup_exports hentries) he
  refine ⟨⟨image, survey⟩, searchIn_eq_ok_iff.2 ⟨loaded, hload, himage, hsurvey⟩, ?_, ?_, rfl, rfl⟩
  · constructor
    · intro hs
      obtain ⟨labels, hl⟩ := exists_labels hsurvey hs
      exact ⟨labels, hl, hread _ _ ((mem_exports_iff hentries).2 (.inl ⟨labels, hs, hl, rfl⟩))⟩
    · intro hs
      obtain ⟨residual, hr⟩ := exists_residual hentries hs
      exact ⟨residual, hr,
        hread _ _ ((mem_exports_iff hentries).2 (.inr (.inl ⟨residual, hs, hr, rfl⟩)))⟩
    · intro hs
      obtain ⟨text, ht⟩ := exists_catalogue hentries hs
      exact ⟨text, ht,
        hread _ _ ((mem_exports_iff hentries).2 (.inr (.inr ⟨text, hs, ht, rfl⟩)))⟩
  · refine (saves_rewrites hsaves hitems).mono ?_
    rintro q ⟨e, he, hq⟩
    exact ⟨name, List.mem_singleton_self name, e.1, hnames e he, hq⟩

theorem exists_file {number count : Nat} {name : String} {p : Progress}
    (h : Ready search output p.store name) :
    ∃ p', (file search output number count name).run p = .ok () p' := by
  obtain ⟨r, entries, hr, hentries, hplaces⟩ := h
  obtain ⟨loaded, hload, himage, hsurvey⟩ := searchIn_eq_ok_iff.1 hr
  obtain ⟨store, hstore⟩ := exists_saves (fun e => ne_directory_of_mem_exports hentries)
    fun e he => hplaces e.1 (mem_exportNames_of_mem_exports hentries he)
  exact ⟨_, file_eq_ok_iff.2 ⟨loaded, hload, r.image, himage, r.survey, hsurvey, entries, hentries,
    store, hstore, rfl⟩⟩

end SkySources.Run
