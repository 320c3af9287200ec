import SkySources.Proofs.Run.File

/-!
# The exports of a run

The exports of a file are named after the last part of its name without the extension, and
all of them go to one directory. Nothing is lost if no two files have a name for an export
in common, and no export is written where a later file is (`Apart`).

What is proved:
  1. `exists_all`: a run over files that are ready comes to an end;
  2. `all_exported`: at the end of a run over files whose exports are apart, each export
     holds what is found in its file as it was before the run, the summaries are those of
     the files in order, and no other file has changed;
  3. `all_overwritten`: an export that is named like a later file is written over it, and
     the run comes to an end with results of another image.
-/

namespace SkySources.Run

open Store

variable {search : SearchSettings} {output : ExportSettings} {s t : Store}

/-! ## One file after the other -/

/-- Files that are ready are gone through, if none of them is written over before. -/
theorem exists_files {count number : Nat} {names : List String} {p : Progress}
    (hready : ∀ name ∈ names, Ready search output p.store name)
    (hspares : names.Pairwise (Spares output p.store)) :
    ∃ p', (files search output count number names).run p = .ok () p' := by
  induction names generalizing number p with
  | nil => exact ⟨p, rfl⟩
  | cons name rest ih =>
    rw [List.pairwise_cons] at hspares
    obtain ⟨q, hq⟩ := exists_file (hready name List.mem_cons_self)
    obtain ⟨_, _, _, hrewrites, _⟩ := file_eq_ok hq
    obtain ⟨p', hp'⟩ := @ih (number + 1) q
      (fun later hl => (hready later (List.mem_cons_of_mem _ hl)).of_rewrites hrewrites
        fun _ hplace => (hspares.1 later hl).free hplace)
      (hspares.2.imp fun h => h.of_rewrites hrewrites)
    exact ⟨p', bind_eq_ok_iff.2 ⟨(), q, hq, hp'⟩⟩

/-- The lines that announce files, the first of which has a number. -/
def announcements (count number : Nat) (names : List String) : List String :=
  (names.zipIdx number).map fun entry => announcement entry.1 entry.2 count

/-- Files whose exports are apart: each export holds what is found in its file, as the
file was before the first of them. -/
theorem files_eq_ok {count number : Nat} {names : List String} {p p' : Progress}
    (h : (files search output count number names).run p = .ok () p')
    (hapart : names.Pairwise (Apart output p.store)) :
    Rewrites (Written output p.store names) p.store p'.store ∧
    (∀ name ∈ names, ∃ r, searchIn search output p.store name = .ok r ∧
      Exported output p'.store name r) ∧
    ∃ texts, names.mapM (fun name => (searchIn search output p.store name).map
        (Searched.summary name)) = .ok texts ∧
      p'.summaries = p.summaries ++ String.join texts ∧
      p'.printed = p.printed ++ String.join (announcements count number names) := by
  induction names generalizing number p with
  | nil =>
    obtain ⟨_, rfl⟩ := pure_eq_ok_iff.1 h
    refine ⟨.refl _ _, by simp, [], rfl, ?_, ?_⟩ <;> simp [announcements, String.join]
  | cons name rest ih =>
    obtain ⟨_, q, hfile, hrest⟩ := bind_eq_ok_iff.1 h
    obtain ⟨r, hr, hexported, hrewrites, hprinted, hsummaries⟩ := file_eq_ok hfile
    rw [List.pairwise_cons] at hapart
    obtain ⟨hkept, hfound, texts, htexts, hsummaries', hprinted'⟩ :=
      ih hrest (hapart.2.imp fun ha => ⟨ha.names, ha.spares.of_rewrites hrewrites⟩)
    have hsearch {later : String} (hl : later ∈ rest) {r' : Searched}
        (hr' : searchIn search output q.store later = .ok r') :
        searchIn search output p.store later = .ok r' :=
      (searchIn_of_rewrites hrewrites fun _ hplace => (hapart.1 later hl).spares.free hplace).1 hr'
    refine ⟨?_, ?_, ?_⟩
    · refine (hrewrites.trans hkept).mono ?_
      rintro place (⟨_, hsame, hwritten⟩ | ⟨later, hl, n, hn, hwritten⟩)
      · exact ⟨name, List.mem_cons_self, (List.mem_singleton.1 hsame) ▸ hwritten⟩
      · exact ⟨later, List.mem_cons_of_mem _ hl, n, hn, hrewrites.locate_iff.1 hwritten⟩
    · intro later hl
      rcases List.mem_cons.1 hl with rfl | hl
      · refine ⟨r, hr, hexported.of_rewrites hkept ?_⟩
        -- no later export has the name of one of the first file
        rintro n hn place hplace ⟨later, hl, n', hn', hwritten⟩
        have hsame := locate_child_inj (isProper_of_mem_exportNames hn)
          (isProper_of_mem_exportNames hn') hplace hwritten
        exact (hapart.1 later hl).names n hn (hsame ▸ hn')
      · obtain ⟨r', hr', hexported'⟩ := hfound later hl
        exact ⟨r', hsearch hl hr', hexported'⟩
    · refine ⟨r.summary name :: texts, ?_, ?_, ?_⟩
      · rw [mapM_eq_ok_iff, List.map_cons, List.map_cons, hr, ← mapM_eq_ok_iff.1 htexts]
        refine congrArg _ (List.map_congr_left fun later hl => ?_)
        obtain ⟨r', hr', _⟩ := hfound later hl
        rw [hr', hsearch hl hr']
      · rw [hsummaries', hsummaries, String.join_cons, String.append_assoc]
      · rw [hprinted', hprinted, announcements, announcements, List.zipIdx_cons, List.map_cons,
          String.join_cons, String.append_assoc]

/-! ## The whole run -/

theorem all_eq_ok_iff {names : List String} {p p' : Progress} :
    (all search output names).run p = .ok () p' ↔
      ∃ store, p.store.makeDirectories (Path.ofText output.directory) = .ok store ∧
      ∃ q, (files search output names.length 1 names).run { p with store := store } = .ok () q ∧
        p' = { q with printed := q.printed ++ q.summaries } := by
  unfold all print
  simp only [bind_eq_ok_iff, change_eq_ok_iff, get_eq_ok_iff, modify_eq_ok_iff, and_assoc,
    exists_eq_left, exists_const, exists_and_left]
  constructor
  · rintro ⟨_, ⟨store, hstore, rfl⟩, _, q, hq, rfl⟩
    exact ⟨store, hstore, q, hq, rfl⟩
  · rintro ⟨store, hstore, q, hq, rfl⟩
    exact ⟨_, ⟨store, hstore, rfl⟩, (), q, hq, rfl⟩

/-- A run over files that are ready comes to an end, if none of them is written over
before. -/
theorem exists_all {names : List String} {p : Progress} {store : Store}
    (hstore : p.store.makeDirectories (Path.ofText output.directory) = .ok store)
    (hready : ∀ name ∈ names, Ready search output store name)
    (hspares : names.Pairwise (Spares output store)) :
    ∃ p', (all search output names).run p = .ok () p' := by
  obtain ⟨q, hq⟩ := @exists_files search output names.length 1 names { p with store := store }
    hready hspares
  exact ⟨_, all_eq_ok_iff.2 ⟨store, hstore, q, hq, rfl⟩⟩

/-- A run over files that can be read, whose exports are apart when the directory for them
is there. If it comes to an end, the selected exports of each file hold what is found in
it, as it was before the run, and so do the summaries, in the order of the files. Nothing
else that could be read has changed. And it does come to an end if the files are ready. -/
theorem all_exported (search : SearchSettings) (output : ExportSettings) (names : List String)
    (p : Progress) (store : Store)
    (hstore : p.store.makeDirectories (Path.ofText output.directory) = .ok store)
    (hreadable : ∀ name ∈ names, ∃ loaded, ImageFile.load p.store name = .ok loaded)
    (hapart : names.Pairwise (Apart output store)) :
    (∀ p', (all search output names).run p = .ok () p' →
      (∀ name ∈ names, ∃ r, searchIn search output p.store name = .ok r ∧
        Exported output p'.store name r) ∧
      (∃ texts, names.mapM (fun name => (searchIn search output p.store name).map
          (Searched.summary name)) = .ok texts ∧
        p'.summaries = p.summaries ++ String.join texts ∧
        p'.printed =
          p.printed ++ String.join (announcements names.length 1 names) ++ p'.summaries) ∧
      ∀ path item, p.store.read path = .ok item →
        (∀ q, p'.store.locate path = .ok q → ¬Written output p'.store names q) →
        p'.store.read path = .ok item) ∧
    ((∀ name ∈ names, Ready search output store name) →
      ∃ p', (all search output names).run p = .ok () p') := by
  have hgrows := makeDirectories_grows hstore
  constructor
  · intro p' h
    obtain ⟨store', hstore', q, hfiles, rfl⟩ := all_eq_ok_iff.1 h
    cases hstore.symm.trans hstore'
    obtain ⟨hrewrites, hfound, texts, htexts, hsummaries, hprinted⟩ := files_eq_ok hfiles hapart
    -- making directories has not changed what is found in the files
    have hsearch {name : String} (hname : name ∈ names) {r : Searched}
        (hr : searchIn search output store name = .ok r) :
        searchIn search output p.store name = .ok r := by
      obtain ⟨loaded, hload⟩ := hreadable name hname
      exact (searchIn_of_grows hgrows hload).1 hr
    refine ⟨?_, ⟨texts, ?_, hsummaries, ?_⟩, ?_⟩
    · intro name hname
      obtain ⟨r, hr, hexported⟩ := hfound name hname
      exact ⟨r, hsearch hname hr, hexported⟩
    · rw [mapM_eq_ok_iff] at htexts ⊢
      rw [← htexts]
      refine List.map_congr_left fun name hname => ?_
      obtain ⟨r, hr, _⟩ := hfound name hname
      rw [hr, hsearch hname hr]
    · rw [hprinted]
    · intro path item hread hfree
      refine (hrewrites.read_iff ?_).2 (hgrows.read hread)
      rintro place hplace ⟨name, hname, n, hn, hwritten⟩
      exact hfree place (hrewrites.locate_iff.2 hplace)
        ⟨name, hname, n, hn, hrewrites.locate_iff.2 hwritten⟩
  · intro hready
    exact exists_all hstore hready (hapart.imp Apart.spares)

/-! ## Files in the working directory -/

/-- The label map is exported to the working directory. -/
def labelMapHere : ExportSettings := { labelMap := true }

/-- Two files of images, one of which has the name of the label map of the other. -/
def twoFiles : Store :=
  ⟨[(["x.npy"], .data .plain (Data.ofDoubles ⟨[1, 1], [0.0]⟩)),
    (["x.labelmap.npy"], .data .plain (Data.ofDoubles ⟨[2, 2], [0.0, 0.0, 0.0, 0.0]⟩))]⟩

theorem ofText_dot : Path.ofText "." = ⟨false, ["."]⟩ := by
  simp +decide [Path.ofText, String.splitOn, String.splitOnAux]

/-- The working directory is always there. -/
theorem makeDirectories_here (s : Store) :
    s.makeDirectories (Path.ofText labelMapHere.directory) = .ok s := by
  change s.makeDirectories (Path.ofText ".") = .ok s
  rw [ofText_dot]
  rfl

theorem exportPath_here (n : String) : exportPath labelMapHere n = ⟨false, [n]⟩ := by
  change (Path.ofText ".").clean.child n = _
  rw [ofText_dot]
  rfl

/-- A plain name leads to a place in the working directory. -/
theorem locate_here {n : String} (hn : IsProper n) (hbroken : Path.isBroken ⟨false, [n]⟩ = false)
    (hsize : n.utf8ByteSize ≤ Path.partLimit) : s.locate ⟨false, [n]⟩ = .ok [n] := by
  obtain ⟨hempty, hdot, hdots⟩ := hn
  refine locate_eq_ok_iff.2 ⟨hbroken, ?_, ?_⟩
  · have hwritten : Path.size ⟨false, [n]⟩ = n.utf8ByteSize := by simp [Path.size]
    rw [hwritten]
    exact lt_of_le_of_lt hsize (by decide)
  · have hroot : s.item? [] = some .directory := rfl
    simp [walk, Path.start, hroot, hempty, hdot, hdots, Nat.not_lt.2 hsize]

/-- A name of a file of plain data in the working directory, and what it is without the
extension. -/
structure Names (name stem : String) : Prop where
  ne_empty : name ≠ ""
  format_eq : ImageFile.format name = .plain
  stem_eq : Path.stem (Path.lastPart name) = stem
  locate (s : Store) : s.locate (Path.ofText name) = .ok [name]
  locate_labels (s : Store) :
    s.locate (exportPath labelMapHere (stem ++ ".labelmap.npy")) = .ok [stem ++ ".labelmap.npy"]

theorem names_of {name stem : String} (hformat : ImageFile.format name = .plain)
    (htext : Path.ofText name = ⟨false, [name]⟩) (hstem : Path.stem (Path.lastPart name) = stem)
    (hproper : IsProper name)
    (hbroken : Path.isBroken ⟨false, [name, stem ++ ".labelmap.npy"]⟩ = false)
    (hsize : name.utf8ByteSize ≤ Path.partLimit)
    (hsize' : (stem ++ ".labelmap.npy").utf8ByteSize ≤ Path.partLimit) : Names name stem := by
  obtain ⟨hname, hlabels⟩ : Path.isBroken ⟨false, [name]⟩ = false ∧
      Path.isBroken ⟨false, [stem ++ ".labelmap.npy"]⟩ = false := by
    simpa [Path.isBroken] using hbroken
  refine ⟨hproper.1, hformat, hstem, fun s => htext ▸ locate_here hproper hname hsize, ?_⟩
  intro s
  rw [exportPath_here]
  exact locate_here (isProper_append (by decide)) hlabels hsize'

theorem names_x : Names "x.npy" "x" := by
  refine names_of (by decide +kernel) ?_ ?_ (by decide) ?_ (by decide +kernel) (by decide +kernel)
  · simp +decide [Path.ofText, String.splitOn, String.splitOnAux]
  · simp +decide [Path.lastPart, Path.stem, String.splitOn, String.splitOnAux]
  · simp [Path.isBroken]

theorem names_labels : Names "x.labelmap.npy" "x.labelmap" := by
  refine names_of (by decide +kernel) ?_ ?_ (by decide) ?_ (by decide +kernel) (by decide +kernel)
  · simp +decide [Path.ofText, String.splitOn, String.splitOnAux]
  · simp +decide [Path.lastPart, Path.stem, String.splitOn, String.splitOnAux]
  · simp [Path.isBroken]

/-- The usual settings lead to a survey of every image. -/
theorem exists_survey {rows cols : Nat} (data : Grid rows cols Float) :
    ∃ r, ((searchFor {} labelMapHere).survey data).2 = .ok r := by
  have hc : (searchFor {} labelMapHere).Accepted .edges :=
    ⟨by decide +kernel, by decide, by decide, rfl, by decide +kernel, by decide, by decide,
      by decide⟩
  obtain ⟨found, hs⟩ := Sighting.exists_of ((searchFor {} labelMapHere).planWith .edges) data
  refine ⟨_, (hc.surveyBy_unfitted rfl hs).trans (if_pos ?_)⟩
  exact SearchSettings.eventsUntilTooLarge?_eq_none_iff.2 ⟨rfl, nofun, rfl, rfl, rfl⟩

/-- The file of a name shows an image, and there is a place for its label map. -/
structure Shows (s : Store) (name stem : String) (image : Image Float) : Prop
    extends Names name stem where
  free : s.item? [stem ++ ".labelmap.npy"] ≠ some .directory
  data : ∃ d, s.item? [name] = some (.data .plain d) ∧ d.element ≠ .anything ∧
    d.image? = .ok image

theorem shows_x : Shows twoFiles "x.npy" "x" ⟨⟨#v[#v[0.0]]⟩⟩ :=
  ⟨names_x, nofun, Data.ofDoubles ⟨[1, 1], [0.0]⟩, rfl, by decide, rfl⟩

theorem shows_labels : Shows twoFiles "x.labelmap.npy" "x.labelmap"
    ⟨⟨#v[#v[0.0, 0.0], #v[0.0, 0.0]]⟩⟩ :=
  ⟨names_labels, nofun, Data.ofDoubles ⟨[2, 2], [0.0, 0.0, 0.0, 0.0]⟩, rfl, by decide, rfl⟩

/-- An exported label map can be read as an image of the same shape. -/
theorem exists_data_labelItem {rows cols : Nat} (labels : Grid rows cols Nat)
    (h : rows * cols ≠ 0) : ∃ (d : Data) (g : Grid rows cols Float),
      labelItem labels = .data .plain d ∧ d.element ≠ .anything ∧ d.image? = .ok ⟨g⟩ := by
  let d : Data := ⟨.signed 32, (Image.mk labels).shaped.map fun n => .whole (Int.ofNat n)⟩
  have hsize : d.doubles.cells.toArray.size = rows * cols := by
    simp [d, Data.doubles, Shaped.map, Image.shaped, Image.toList, Grid.toList,
      Pixel.raster_length]
  have himage : ∃ g : Grid rows cols Float, d.doubles.image? = some ⟨g⟩ := ⟨_, dif_pos hsize⟩
  obtain ⟨g, hg⟩ := himage
  refine ⟨d, g, rfl, ElementType.noConfusion, ?_⟩
  rw [Data.image?, hg]
  exact (if_neg h).trans (if_neg Bool.false_ne_true)

namespace Shows
variable {name stem later stem' : String} {image image' : Image Float} {p p' : Progress}

theorem mem_exportNames {n : String} (h : Shows s name stem image)
    (hn : n ∈ exportNames labelMapHere name) : n = stem ++ ".labelmap.npy" := by
  rw [exportNames, h.stem_eq] at hn
  exact List.mem_singleton.1 hn

theorem load (h : Shows s name stem image) :
    ∃ loaded, ImageFile.load s name = .ok loaded ∧ loaded.1.image? = .ok image := by
  obtain ⟨d, hitem, hd, himage⟩ := h.data
  refine ⟨(d, []), load_eq_ok_iff.2 ⟨h.ne_empty, .data .plain d, ?_, ?_⟩, himage⟩
  · exact read_eq_ok_iff.2 ⟨[name], h.locate s, hitem⟩
  · rw [h.format_eq]
    exact if_neg hd

theorem ready (h : Shows s name stem image) : Ready {} labelMapHere s name := by
  obtain ⟨loaded, hload, himage⟩ := h.load
  obtain ⟨r, hr⟩ := exists_survey image.grid
  refine ⟨⟨image, r⟩, _, searchIn_eq_ok_iff.2 ⟨loaded, hload, himage, hr⟩, rfl, ?_⟩
  intro n hn
  rw [h.mem_exportNames hn]
  exact ⟨_, h.locate_labels s, h.free⟩

theorem spares (h : Shows s name stem image) (h' : Shows s later stem' image')
    (hne : stem ++ ".labelmap.npy" ≠ later) : Spares labelMapHere s name later := by
  intro n hn q hq hlater
  rw [h.mem_exportNames hn, h.locate_labels] at hq
  rw [h'.locate] at hlater
  exact hne (List.cons.inj ((Except.ok.inj hq).trans (Except.ok.inj hlater).symm)).1

/-- The label map that is exported has the shape of the image. -/
theorem exists_labelItem {r : Searched} (h : Shows s name stem image)
    (hr : searchIn {} labelMapHere s name = .ok r) (he : Exported labelMapHere t name r) :
    ∃ g : Grid image.rows image.cols Nat,
      t.item? [stem ++ ".labelmap.npy"] = some (labelItem g) := by
  obtain ⟨loaded, hload, himage⟩ := h.load
  obtain ⟨loaded', hload', himage', _⟩ := searchIn_eq_ok_iff.1 hr
  rw [hload] at hload'
  cases hload'
  rw [himage] at himage'
  cases himage'
  obtain ⟨g, _, hread⟩ := he.labelMap rfl
  rw [h.stem_eq] at hread
  obtain ⟨q, hq, hitem⟩ := read_eq_ok_iff.1 hread
  rw [h.locate_labels] at hq
  cases hq
  exact ⟨g, hitem⟩

end Shows

/-- Two files are searched, and the label map of the second one is written over the first
one, which has been read by then. -/
theorem all_exported_after :
    twoFiles.makeDirectories (Path.ofText labelMapHere.directory) = .ok twoFiles ∧
    (∀ name ∈ ["x.labelmap.npy", "x.npy"], ∃ loaded,
      ImageFile.load twoFiles name = .ok loaded) ∧
    ["x.labelmap.npy", "x.npy"].Pairwise (Apart labelMapHere twoFiles) ∧
    ∃ p', (all {} labelMapHere ["x.labelmap.npy", "x.npy"]).run ⟨twoFiles, "", [], ""⟩ =
        .ok () p' ∧
      ∀ name ∈ ["x.labelmap.npy", "x.npy"], ∃ r, searchIn {} labelMapHere twoFiles name = .ok r ∧
        Exported labelMapHere p'.store name r := by
  have hstore := makeDirectories_here twoFiles
  have hreadable : ∀ name ∈ ["x.labelmap.npy", "x.npy"], ∃ loaded,
      ImageFile.load twoFiles name = .ok loaded :=
    List.forall_mem_cons.2 ⟨shows_labels.load.imp fun _ => And.left,
      List.forall_mem_singleton.2 (shows_x.load.imp fun _ => And.left)⟩
  have hapart : ["x.labelmap.npy", "x.npy"].Pairwise (Apart labelMapHere twoFiles) := by
    refine List.pairwise_pair.2
      ⟨fun n => exportNames_disjoint ?_, shows_labels.spares shows_x (by decide)⟩
    rw [shows_labels.stem_eq, shows_x.stem_eq]
    decide
  obtain ⟨hexported, hends⟩ := all_exported {} labelMapHere ["x.labelmap.npy", "x.npy"]
    ⟨twoFiles, "", [], ""⟩ twoFiles hstore hreadable hapart
  obtain ⟨p', hp'⟩ := hends
    (List.forall_mem_cons.2 ⟨shows_labels.ready, List.forall_mem_singleton.2 shows_x.ready⟩)
  exact ⟨hstore, hreadable, hapart, p', hp', (hexported p' hp').1⟩

/-- The same files in the other order: the run comes to an end, but the label map of the
first one is written over the second one before that is read. -/
theorem all_overwritten : ["x.npy", "x.labelmap.npy"].Nodup ∧
    (∀ name ∈ ["x.npy", "x.labelmap.npy"], ∃ loaded,
      ImageFile.load twoFiles name = .ok loaded) ∧
    ∃ p', (all {} labelMapHere ["x.npy", "x.labelmap.npy"]).run ⟨twoFiles, "", [], ""⟩ =
        .ok () p' ∧
      ¬∀ name ∈ ["x.npy", "x.labelmap.npy"], ∃ r,
        searchIn {} labelMapHere twoFiles name = .ok r ∧ Exported labelMapHere p'.store name r := by
  obtain ⟨first, hfirst⟩ :=
    @exists_file {} labelMapHere 1 2 "x.npy" ⟨twoFiles, "", [], ""⟩ shows_x.ready
  obtain ⟨r, hr, he, hrewrites, _⟩ := file_eq_ok hfirst
  obtain ⟨g, hg⟩ := shows_x.exists_labelItem hr he
  -- the second file is the label map of the first one now
  obtain ⟨d, image, hd, helement, himage⟩ := exists_data_labelItem g (by decide)
  have hshows : Shows first.store "x.labelmap.npy" "x.labelmap" ⟨image⟩ :=
    ⟨names_labels, mt (hrewrites.directory _).1 shows_labels.free, d, hd ▸ hg, helement, himage⟩
  obtain ⟨last, hlast⟩ := @exists_file {} labelMapHere 2 2 "x.labelmap.npy" first hshows.ready
  obtain ⟨r', hr', he', _⟩ := file_eq_ok hlast
  obtain ⟨g', hg'⟩ := hshows.exists_labelItem hr' he'
  refine ⟨by decide, List.forall_mem_cons.2 ⟨shows_x.load.imp fun _ => And.left,
    List.forall_mem_singleton.2 (shows_labels.load.imp fun _ => And.left)⟩, _,
    all_eq_ok_iff.2 ⟨twoFiles, makeDirectories_here twoFiles, last, ?_, rfl⟩, ?_⟩
  · exact bind_eq_ok_iff.2 ⟨(), first, hfirst, bind_eq_ok_iff.2 ⟨(), last, hlast, rfl⟩⟩
  · intro hall
    obtain ⟨r₂, hr₂, he₂⟩ := hall "x.labelmap.npy" (by decide)
    obtain ⟨g₂, hg₂⟩ := shows_labels.exists_labelItem hr₂ he₂
    -- one file would have the shapes of both images
    have hsame : labelItem g' = labelItem g₂ := Option.some.inj (hg'.symm.trans hg₂)
    have hshape : (Image.mk g').shaped.shape = (Image.mk g₂).shaped.shape := by
      injection hsame with _ hdata
      exact congrArg (fun d : Data => d.values.shape) hdata
    exact absurd hshape (show [1, 1] ≠ [2, 2] by decide)

end SkySources.Run
