import SkySources.Run
import SkySources.Proofs.Store

/-!
# What the steps of a run do

A run that comes to an end is known step by step (`bind_eq_ok_iff`, `change_eq_ok_iff`).
The exports of a survey are a list of names and items (`exports`), and all that exporting
does is writing them one after the other, unless one of the fitted Gaussians cannot be
evaluated or the catalogue cannot be written (`exportAll_writes`).
-/

namespace SkySources.Run

open Store

/-! ## Steps of a run -/

section Steps
variable {α β : Type} {p p' : Progress}

theorem bind_eq_ok_iff {x : Run α} {f : α → Run β} {b : β} : (x >>= f).run p = .ok b p' ↔
    ∃ a q, x.run p = .ok a q ∧ (f a).run q = .ok b p' := by
  change EStateM.bind x f p = .ok b p' ↔ _
  unfold EStateM.bind
  simp only [EStateM.run]
  cases x p with
  | ok a q => simp
  | error e q => simp

theorem pure_eq_ok_iff {a b : α} : (pure a : Run α).run p = .ok b p' ↔ b = a ∧ p' = p := by
  change EStateM.Result.ok a p = .ok b p' ↔ _
  rw [EStateM.Result.ok.injEq, eq_comm, @eq_comm _ p]

theorem lift_eq_ok_iff {fault : α → RunFault} {e : Except α β} {b : β} :
    (lift fault e).run p = .ok b p' ↔ e = .ok b ∧ p' = p := by
  cases e with
  | ok a =>
    rw [lift, pure_eq_ok_iff, Except.ok.injEq, eq_comm]
  | error e =>
    change EStateM.Result.error (fault e) p = .ok b p' ↔ _
    simp

theorem modify_eq_ok_iff {f : Progress → Progress} {u : Unit} :
    (modify f : Run Unit).run p = .ok u p' ↔ p' = f p := by
  change EStateM.Result.ok () (f p) = .ok u p' ↔ _
  rw [EStateM.Result.ok.injEq, and_iff_right rfl, eq_comm]

theorem get_eq_ok_iff {q : Progress} : (get : Run Progress).run p = .ok q p' ↔ q = p ∧ p' = p := by
  change EStateM.Result.ok p p = .ok q p' ↔ _
  rw [EStateM.Result.ok.injEq, eq_comm, @eq_comm _ p]

theorem change_eq_ok_iff {f : Store → Except FileFault Store} {u : Unit} :
    (change f).run p = .ok u p' ↔
      ∃ store, f p.store = .ok store ∧ p' = { p with store := store } := by
  unfold change
  simp only [bind_eq_ok_iff, get_eq_ok_iff, lift_eq_ok_iff, modify_eq_ok_iff]
  constructor
  · rintro ⟨_, _, ⟨rfl, rfl⟩, store, _, ⟨hf, rfl⟩, rfl⟩
    exact ⟨store, hf, rfl⟩
  · rintro ⟨store, hf, rfl⟩
    exact ⟨p, p, ⟨rfl, rfl⟩, store, p, ⟨hf, rfl⟩, rfl⟩

end Steps

/-! ## What is exported -/

/-- The path of an export. -/
def exportPath (output : ExportSettings) (name : String) : Path :=
  (Path.ofText output.directory).clean.child name

/-- Exports are written one after the other. -/
def saves (output : ExportSettings) (entries : List (String × Item)) (store : Store) :
    Except FileFault Store :=
  entries.foldlM (fun s entry => s.write (exportPath output entry.1) entry.2) store

theorem saves_cons_iff {output : ExportSettings} {e : String × Item}
    {entries : List (String × Item)} {s t : Store} : saves output (e :: entries) s = .ok t ↔
      ∃ u, s.write (exportPath output e.1) e.2 = .ok u ∧ saves output entries u = .ok t := by
  rw [saves, List.foldlM_cons]
  cases s.write (exportPath output e.1) e.2 with
  | error fault => simp [bind, Except.bind]
  | ok u =>
    simp only [Except.ok.injEq, exists_eq_left']
    rfl

theorem saves_append_iff {output : ExportSettings} {entries rest : List (String × Item)}
    {s t : Store} : saves output (entries ++ rest) s = .ok t ↔
      ∃ u, saves output entries s = .ok u ∧ saves output rest u = .ok t := by
  rw [saves, List.foldlM_append]
  change (saves output entries s).bind _ = _ ↔ _
  cases saves output entries s with
  | error fault => simp [Except.bind]
  | ok u =>
    simp only [Except.ok.injEq, exists_eq_left']
    rfl

section Exports
variable {rows cols : Nat} (output : ExportSettings) (stem : String)
  (data : Grid rows cols Float) (survey : Survey rows cols Float)

/-- The label map among the exports. -/
def labelEntries : List (String × Item) :=
  match output.labelMap, survey.labels with
  | true, some labels => [(stem ++ ".labelmap.npy", labelItem labels)]
  | _, _ => []

/-- An item among the exports, if it is selected. -/
def selectedEntries (selected : Bool) (name : String) (item? : Except RunFault Item) :
    Except RunFault (List (String × Item)) :=
  if selected then item?.map fun item => [(name, item)] else .ok []

/-- The image without the fitted Gaussians. -/
def residualItem? : Except RunFault Item :=
  ((survey.residual? data).mapError .gaussian).map doubleItem

/-- The catalogue of the islands. -/
def catalogueItem? : Except RunFault Item :=
  ((Catalogue.text? survey.islands).mapError .catalogue).map .text

/-- What is exported of a survey, with the names, in order. -/
def exports : Except RunFault (List (String × Item)) := do
  let residuals ← selectedEntries output.residuals (stem ++ ".residuals.npy")
    (residualItem? data survey)
  let catalogue ← selectedEntries output.catalogue (stem ++ ".csv") (catalogueItem? survey)
  return labelEntries output stem survey ++ (residuals ++ catalogue)

end Exports

/-- A part of a run writes the entries that something comes to, and fails if that does. -/
def Writes (output : ExportSettings) (x : Run Unit)
    (entries? : Except RunFault (List (String × Item))) : Prop :=
  ∀ p p', x.run p = .ok () p' ↔ ∃ entries store, entries? = .ok entries ∧
    saves output entries p.store = .ok store ∧ p' = { p with store := store }

section Writes
variable {output : ExportSettings} {x : Run Unit} (name : String) (item : Item)
  {entries? : Except RunFault (List (String × Item))}

theorem writes_pure : Writes output (pure ()) (.ok []) := by
  intro p p'
  rw [pure_eq_ok_iff]
  constructor
  · rintro ⟨_, rfl⟩
    exact ⟨[], p'.store, rfl, rfl, rfl⟩
  · rintro ⟨_, store, ⟨⟩, hs, rfl⟩
    cases hs
    exact ⟨rfl, rfl⟩

theorem writes_save : Writes output (save output name item) (.ok [(name, item)]) := by
  intro p p'
  rw [save, change_eq_ok_iff]
  constructor
  · rintro ⟨store, hstore, rfl⟩
    exact ⟨_, store, rfl, saves_cons_iff.2 ⟨store, hstore, rfl⟩, rfl⟩
  · rintro ⟨_, store, ⟨⟩, hs, rfl⟩
    obtain ⟨first, hfirst, hs⟩ := saves_cons_iff.1 hs
    cases hs
    exact ⟨store, hfirst, rfl⟩

/-- What two parts write comes one after the other. -/
theorem writes_bind {y : Run Unit} {rest? : Except RunFault (List (String × Item))}
    (hx : Writes output x entries?) (hy : Writes output y rest?) :
    Writes output (do x; y) (do return (← entries?) ++ (← rest?)) := by
  intro p p'
  rw [bind_eq_ok_iff]
  constructor
  · rintro ⟨_, _, hfirst, hlast⟩
    obtain ⟨entries, store, rfl, hs, rfl⟩ := (hx _ _).1 hfirst
    obtain ⟨rest, store', rfl, hs', rfl⟩ := (hy _ _).1 hlast
    exact ⟨entries ++ rest, store', rfl, saves_append_iff.2 ⟨store, hs, hs'⟩, rfl⟩
  · rintro ⟨_, store', he, hs, rfl⟩
    cases entries? with
    | error fault => cases he
    | ok entries =>
      cases rest? with
      | error fault => cases he
      | ok rest =>
        cases he
        obtain ⟨store, hs, hs'⟩ := saves_append_iff.1 hs
        exact ⟨(), _, (hx _ _).2 ⟨entries, store, rfl, hs, rfl⟩,
          (hy _ _).2 ⟨rest, store', rfl, hs', rfl⟩⟩

/-- An item is written if it is selected and can be computed. -/
theorem writes_selected {ε α : Type} (selected : Bool) (fault : ε → RunFault)
    (attempt : Except ε α) (item : α → Item) :
    Writes output (if selected then do save output name (item (← lift fault attempt)) else pure ())
      (selectedEntries selected name ((attempt.mapError fault).map item)) := by
  cases selected with
  | false => exact writes_pure
  | true =>
    intro p p'
    rw [if_pos rfl, bind_eq_ok_iff]
    simp only [lift_eq_ok_iff]
    cases attempt with
    | error e => simp [selectedEntries, Except.mapError, Except.map]
    | ok a =>
      refine Iff.trans ?_ (writes_save name (item a) p p')
      simp

end Writes

/-- The exports of a survey are written. -/
theorem exportAll_writes {rows cols : Nat} (output : ExportSettings) (stem : String)
    (data : Grid rows cols Float) (survey : Survey rows cols Float) :
    Writes output (exportAll output stem data survey) (exports output stem data survey) := by
  let labels : Run Unit :=
    match output.labelMap, survey.labels with
    | true, some labels => save output (stem ++ ".labelmap.npy") (labelItem labels)
    | _, _ => pure ()
  have hlabels : Writes output labels (.ok (labelEntries output stem survey)) := by
    unfold labels labelEntries
    split
    · exact writes_save _ _
    · exact writes_pure
  have hparts := writes_bind hlabels (writes_bind
    (writes_selected (stem ++ ".residuals.npy") output.residuals .gaussian (survey.residual? data)
      doubleItem)
    (writes_selected (stem ++ ".csv") output.catalogue .catalogue
      (Catalogue.text? survey.islands) .text))
  convert hparts using 1
  · unfold exportAll labels
    cases output.labelMap <;> cases survey.labels <;> cases output.residuals <;>
      cases output.catalogue <;> simp
  · unfold exports residualItem? catalogueItem?
    generalize selectedEntries output.residuals _ _ = residuals
    generalize selectedEntries output.catalogue _ _ = catalogue
    cases residuals <;> cases catalogue <;> rfl

/-! ## The names of exports -/

variable {output : ExportSettings}

/-- The endings of the names of exports. -/
def endings : List String := [".labelmap.npy", ".residuals.npy", ".csv"]

theorem isProper_append {stem ending : String} (h : ending ∈ endings) :
    IsProper (stem ++ ending) := by
  have hendings : ∀ ending ∈ endings, 2 < ending.length := by decide
  have hlong : 2 < (stem ++ ending).length := by
    rw [String.length_append]
    have := hendings ending h
    omega
  refine ⟨?_, ?_, ?_⟩ <;> intro he <;> rw [he] at hlong <;> exact absurd hlong (by decide)

theorem nodup_append_endings (stem : String) : (endings.map (stem ++ ·)).Nodup :=
  List.Nodup.map (fun _ _ h => (String.append_right_inj _).1 h) (by decide)

/-- The names of the exports of a file that are selected. -/
def exportNames (output : ExportSettings) (name : String) : List String :=
  ((([output.labelMap, output.residuals, output.catalogue].zip endings).filter Prod.fst).map
    Prod.snd).map (Path.stem (Path.lastPart name) ++ ·)

theorem mem_exportNames_iff {name n : String} : n ∈ exportNames output name ↔
    (output.labelMap = true ∧ n = Path.stem (Path.lastPart name) ++ ".labelmap.npy") ∨
    (output.residuals = true ∧ n = Path.stem (Path.lastPart name) ++ ".residuals.npy") ∨
    output.catalogue = true ∧ n = Path.stem (Path.lastPart name) ++ ".csv" := by
  unfold exportNames endings
  cases output.labelMap <;> cases output.residuals <;> cases output.catalogue <;> simp

theorem isProper_of_mem_exportNames {name n : String} (h : n ∈ exportNames output name) :
    IsProper n := by
  rcases mem_exportNames_iff.1 h with ⟨_, rfl⟩ | ⟨_, rfl⟩ | ⟨_, rfl⟩ <;>
    exact isProper_append (by decide)

/-- Files of different names up to the extension have no name of an export in common. -/
theorem exportNames_disjoint {name later n : String}
    (h : Path.stem (Path.lastPart name) ≠ Path.stem (Path.lastPart later))
    (hn : n ∈ exportNames output name) : n ∉ exportNames output later := by
  have hendings : ∀ e ∈ endings, ∀ e' ∈ endings, e.toList <:+ e'.toList → e = e' := by decide
  have hends {file : String} (hn : n ∈ exportNames output file) :
      ∃ e ∈ endings, n = Path.stem (Path.lastPart file) ++ e := by
    rcases mem_exportNames_iff.1 hn with ⟨_, rfl⟩ | ⟨_, rfl⟩ | ⟨_, rfl⟩ <;>
      exact ⟨_, by decide, rfl⟩
  intro hn'
  obtain ⟨e, he, hne⟩ := hends hn
  obtain ⟨e', he', hne'⟩ := hends hn'
  have hsuffix : e.toList <:+ n.toList := ⟨_, by rw [hne, String.toList_append]⟩
  have hsuffix' : e'.toList <:+ n.toList := ⟨_, by rw [hne', String.toList_append]⟩
  -- one ending would be the end of the other
  have hsame : e = e' := by
    rcases List.suffix_or_suffix_of_suffix hsuffix hsuffix' with hs | hs
    · exact hendings e he e' he' hs
    · exact (hendings e' he' e he hs).symm
  subst hsame
  exact h ((String.append_left_inj e).1 (hne.symm.trans hne'))

/-! ## The entries -/

section Selected
variable {ε α : Type} {selected : Bool} {fault : ε → RunFault} {attempt : Except ε α}
  {item : α → Item} {name : String} {entries : List (String × Item)}
  (h : selectedEntries selected name ((attempt.mapError fault).map item) = .ok entries)
include h

/-- What is selected can be computed. -/
theorem exists_of_selectedEntries (hselected : selected = true) : ∃ a, attempt = .ok a := by
  subst hselected
  cases attempt with
  | error e => cases h
  | ok a => exact ⟨a, rfl⟩

theorem mem_selectedEntries_iff {e : String × Item} :
    e ∈ entries ↔ ∃ a, selected = true ∧ attempt = .ok a ∧ e = (name, item a) := by
  cases selected with
  | false =>
    cases h
    simp
  | true =>
    obtain ⟨a, rfl⟩ := exists_of_selectedEntries h rfl
    cases h
    simp

theorem fst_sublist_of_selectedEntries : (entries.map Prod.fst).Sublist [name] := by
  cases selected with
  | false =>
    cases h
    exact List.nil_sublist _
  | true =>
    obtain ⟨a, rfl⟩ := exists_of_selectedEntries h rfl
    cases h
    exact List.Sublist.refl _

end Selected

section Entries
variable {rows cols : Nat} {data : Grid rows cols Float} {survey : Survey rows cols Float}
  {stem : String} {entries : List (String × Item)}
  (h : exports output stem data survey = .ok entries)
include h

theorem exports_eq_ok : ∃ residuals catalogue,
    selectedEntries output.residuals (stem ++ ".residuals.npy") (residualItem? data survey) =
      .ok residuals ∧
    selectedEntries output.catalogue (stem ++ ".csv") (catalogueItem? survey) = .ok catalogue ∧
    entries = labelEntries output stem survey ++ (residuals ++ catalogue) := by
  unfold exports at h
  cases hr : selectedEntries output.residuals (stem ++ ".residuals.npy")
      (residualItem? data survey) with
  | error fault => rw [hr] at h; cases h
  | ok residuals =>
    cases hc : selectedEntries output.catalogue (stem ++ ".csv") (catalogueItem? survey) with
    | error fault => rw [hr, hc] at h; cases h
    | ok catalogue =>
      rw [hr, hc] at h
      exact ⟨residuals, catalogue, rfl, rfl, (Except.ok.inj h).symm⟩

/-- The entries that are exported. -/
theorem mem_exports_iff {e : String × Item} : e ∈ entries ↔
    (∃ labels, output.labelMap = true ∧ survey.labels = some labels ∧
      e = (stem ++ ".labelmap.npy", labelItem labels)) ∨
    (∃ residual, output.residuals = true ∧ survey.residual? data = .ok residual ∧
      e = (stem ++ ".residuals.npy", doubleItem residual)) ∨
    ∃ text, output.catalogue = true ∧ Catalogue.text? survey.islands = .ok text ∧
      e = (stem ++ ".csv", .text text) := by
  obtain ⟨residuals, catalogue, hr, hc, rfl⟩ := exports_eq_ok h
  have hlabels : e ∈ labelEntries output stem survey ↔ ∃ labels, output.labelMap = true ∧
      survey.labels = some labels ∧ e = (stem ++ ".labelmap.npy", labelItem labels) := by
    unfold labelEntries
    cases output.labelMap <;> cases survey.labels <;> simp
  rw [List.mem_append, List.mem_append, hlabels, mem_selectedEntries_iff hr,
    mem_selectedEntries_iff hc]

/-- Without the fitted Gaussians there is an image, if it is to be exported. -/
theorem exists_residual (hselected : output.residuals = true) :
    ∃ residual, survey.residual? data = .ok residual := by
  obtain ⟨_, _, hr, _⟩ := exports_eq_ok h
  exact exists_of_selectedEntries hr hselected

/-- There is a catalogue, if it is to be exported. -/
theorem exists_catalogue (hselected : output.catalogue = true) :
    ∃ text, Catalogue.text? survey.islands = .ok text := by
  obtain ⟨_, _, _, hc, _⟩ := exports_eq_ok h
  exact exists_of_selectedEntries hc hselected

/-- Every export is a file. -/
theorem ne_directory_of_mem_exports {e : String × Item} (he : e ∈ entries) : e.2 ≠ .directory := by
  rcases (mem_exports_iff h).1 he with ⟨_, _, _, rfl⟩ | ⟨_, _, _, rfl⟩ | ⟨_, _, _, rfl⟩ <;>
    exact Item.noConfusion

omit h in
/-- Every export is selected. -/
theorem mem_exportNames_of_mem_exports {name : String}
    (h : exports output (Path.stem (Path.lastPart name)) data survey = .ok entries)
    {e : String × Item} (he : e ∈ entries) : e.1 ∈ exportNames output name := by
  rw [mem_exportNames_iff]
  rcases (mem_exports_iff h).1 he with ⟨_, hs, _, rfl⟩ | ⟨_, hs, _, rfl⟩ | ⟨_, hs, _, rfl⟩
  · exact .inl ⟨hs, rfl⟩
  · exact .inr (.inl ⟨hs, rfl⟩)
  · exact .inr (.inr ⟨hs, rfl⟩)

/-- No two exports have one name. -/
theorem nodup_exports : (entries.map Prod.fst).Nodup := by
  obtain ⟨residuals, catalogue, hr, hc, rfl⟩ := exports_eq_ok h
  have hlabels : ((labelEntries output stem survey).map Prod.fst).Sublist
      [stem ++ ".labelmap.npy"] := by
    unfold labelEntries
    split <;> simp
  rw [List.map_append, List.map_append]
  exact (hlabels.append ((fst_sublist_of_selectedEntries hr).append
    (fst_sublist_of_selectedEntries hc))).nodup (nodup_append_endings stem)

end Entries

end SkySources.Run
