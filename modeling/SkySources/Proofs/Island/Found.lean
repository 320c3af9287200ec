import Mathlib
import SkySources.Labelling
import SkySources.Proofs.Component.Labels
import SkySources.Proofs.Island.Census
import SkySources.Proofs.Traverse

/-!
# The islands that are found

Marked pixels always become islands: every label that is given out has a pixel,
so no box is inverted (`exists_ofMarks`). Label by label, in order from one on,
there is one island, and it describes the pixels of its label (`Describes`): how
many they are and on which side of the background. Its extremum is the value of one of
them, and lies there (`exists_peak`).
-/

namespace SkySources

/-- What is known of each entry by its place, for the whole list. -/
theorem map_eq_map_range {β γ : Type} {xs : List β} {f : β → γ} {g : Nat → γ}
    (h : ∀ k x, xs[k]? = some x → f x = g k) : xs.map f = (List.range xs.length).map g := by
  apply List.ext_getElem?
  intro k
  rw [List.getElem?_map, List.getElem?_map]
  cases hk : xs[k]? with
  | none =>
    rw [List.getElem?_eq_none_iff] at hk
    simp [hk]
  | some x =>
    obtain ⟨hlt, _⟩ := List.getElem?_eq_some_iff.1 hk
    rw [List.getElem?_range hlt, Option.map_some, Option.map_some, h k x hk]

namespace IslandMap
variable {α : Type} [Scalar α] {rows cols : Nat}

/-- The sides of marked pixels. -/
def sides (marks : Grid rows cols Mark) : Grid rows cols Sign := marks.map (·.sign)

/-- Which marked pixels are detected. -/
def hits (marks : Grid rows cols Mark) : Grid rows cols Bool := marks.map (·.detected)

/-- An island describes the pixels of its label: how many they are, on which
side of the background, and where. -/
structure Describes (labels : Grid rows cols Nat) (signs : Grid rows cols Sign) (i : Island α) :
    Prop where
  npix_eq : i.npix = {p | (labels.get p : Int) = i.label}.ncard
  sign_eq : ∀ p, (labels.get p : Int) = i.label → (signs.get p).toInt = i.sign
  inside : (0 ≤ i.box.minRow ∧ i.box.maxRow < rows) ∧ 0 ≤ i.box.minCol ∧ i.box.maxCol < cols
  no_fit : i.fit = none ∧ i.fitFailed = false

variable {c : Connectivity} {data : Grid rows cols α} {marks : Grid rows cols Mark}
  {background : α} {barycentre : Bool} {m : IslandMap rows cols α}

/-- The census of the pixels with a label. -/
def census (data : Grid rows cols α) (signs : Grid rows cols Int) (background : α)
    (labels : Grid rows cols Nat) (k : Nat) : Census α :=
  Census.ofPixels data signs background (labels.pixelsWhere fun label => label = k)

/-- The islands come from the censuses of the labels, in order. -/
theorem ofLabelling_eq_ok_iff {signs : Grid rows cols Int} {l : Component.Labelling rows cols} :
    ofLabelling data signs background barycentre l = .ok m ↔
      ((List.range l.count).map fun k =>
        (census data signs background l.labels (k + 1)).island (k + 1) barycentre) =
          m.islands.map .ok ∧ m.labels = l.labels := by
  -- the places of the censuses are their labels, less one
  have hzip (f : Nat → Census α) : ((List.range l.count).map f).zipIdx =
      (List.range l.count).map fun k => (f k, k) := by
    apply List.ext_getElem <;> simp
  rw [ofLabelling, Census.ofLabels_eq, hzip, List.mapM_map, ← mapM_eq_ok_iff]
  simp only [Function.comp_def, census, Int.ofNat_eq_natCast]
  generalize (List.range l.count).mapM (fun k : Nat =>
    (Census.ofPixels data signs background
      (l.labels.pixelsWhere fun label => label = k + 1)).island (k + 1) barycentre) = result
  cases m with
  | mk islands labels =>
    cases result with
    | error e => simp [bind, Except.bind]
    | ok found => simp [bind, Except.bind, pure, Except.pure, eq_comm]

theorem map_ofInt_sides (marks : Grid rows cols Mark) :
    (marks.map fun m => m.sign.toInt).map Sign.ofInt = sides marks :=
  Grid.ext_get fun p => by simp [sides, Sign.ofInt_toInt]

/-- The islands of marked pixels, with the labels of their components. -/
theorem ofMarks_eq_ok_iff : ofMarks c data marks background barycentre = .ok m ↔
    ((List.range (Component.label c (sides marks) (hits marks)).count).map fun k =>
      (census data (marks.map fun m => m.sign.toInt) background m.labels (k + 1)).island (k + 1)
        barycentre) = m.islands.map .ok ∧
      m.labels = (Component.label c (sides marks) (hits marks)).labels := by
  rw [ofMarks, ofSigns, map_ofInt_sides, ofLabelling_eq_ok_iff]
  change (_ ∧ m.labels = (Component.label c (sides marks) (hits marks)).labels) ↔ _
  constructor
  · rintro ⟨h, hl⟩
    exact ⟨hl ▸ h, hl⟩
  · rintro ⟨h, hl⟩
    exact ⟨hl ▸ h, hl⟩

/-- Marked pixels always become islands. -/
theorem exists_ofMarks (c : Connectivity) (data : Grid rows cols α) (marks : Grid rows cols Mark)
    (background : α) (barycentre : Bool) :
    ∃ m, ofMarks c data marks background barycentre = .ok m := by
  let l := Component.label c (sides marks) (hits marks)
  let attempt (k : Nat) := (census data (marks.map fun m => m.sign.toInt) background l.labels
    (k + 1)).island (k + 1) barycentre
  have hall : ∀ k ∈ List.range l.count, ∃ i, attempt k = .ok i := by
    intro k hk
    apply Census.exists_island_ofPixels
    obtain ⟨_, p, hp⟩ := ((Component.label_numbered c (sides marks) (hits marks)).used (k + 1)).2
      ⟨Nat.succ_pos k, List.mem_range.1 hk⟩
    exact List.ne_nil_of_mem (Grid.mem_pixelsWhere.2 (decide_eq_true hp))
  obtain ⟨islands, hi⟩ := exists_mapM_eq_ok hall
  exact ⟨⟨islands, l.labels⟩, ofMarks_eq_ok_iff.2 ⟨mapM_eq_ok_iff.1 hi, rfl⟩⟩

section Found
variable (h : ofMarks c data marks background barycentre = .ok m)
include h

theorem labels_eq : m.labels = (Component.label c (sides marks) (hits marks)).labels :=
  (ofMarks_eq_ok_iff.1 h).2

theorem islands_length :
    m.islands.length = (Component.label c (sides marks) (hits marks)).count := by
  have hlength := congrArg List.length (ofMarks_eq_ok_iff.1 h).1
  rw [List.length_map, List.length_map, List.length_range] at hlength
  exact hlength.symm

/-- The labels number the components of the marked pixels, and there is one
island for each. -/
theorem numbered : Component.Numbered c (sides marks) (hits marks)
    ⟨m.labels, m.islands.length⟩ := by
  rw [labels_eq h, islands_length h]
  exact Component.label_numbered c (sides marks) (hits marks)

/-- The island at a place comes from the census of the label after it. -/
theorem getElem?_islands {k : Nat} {i : Island α} (hk : m.islands[k]? = some i) :
    (census data (marks.map fun m => m.sign.toInt) background m.labels (k + 1)).island (k + 1)
      barycentre = .ok i := by
  have hi := congrArg (·[k]?) (ofMarks_eq_ok_iff.1 h).1
  simp only [List.getElem?_map, hk, Option.map_some, Option.map_eq_some_iff] at hi
  obtain ⟨n, hn, he⟩ := hi
  obtain ⟨_, rfl⟩ := List.getElem?_eq_some_iff.1 hn
  simpa using he

/-- The labels of the islands are the numbers from one on. -/
theorem map_label_islands :
    m.islands.map (·.label) = (List.range m.islands.length).map fun k : Nat => (k : Int) + 1 :=
  map_eq_map_range fun _ _ hk => (Census.island_eq_ok (getElem?_islands h hk)).1.1

/-- The labels in the map are those of the islands. -/
theorem exists_label_iff {k : Nat} :
    (∃ i ∈ m.islands, i.label = (k : Int)) ↔ k ≠ 0 ∧ ∃ p, m.labels.get p = k := by
  have hmem : (k : Int) ∈ m.islands.map (·.label) ↔ 1 ≤ k ∧ k ≤ m.islands.length := by
    rw [map_label_islands h]
    simp only [List.mem_map, List.mem_range]
    constructor
    · rintro ⟨n, hn, he⟩
      omega
    · intro hk
      exact ⟨k - 1, by omega, by omega⟩
  rw [← List.mem_map, hmem]
  exact ((numbered h).used k).symm

theorem label_pos {i : Island α} (hi : i ∈ m.islands) : 0 < i.label := by
  have hl := List.mem_map_of_mem (f := (·.label)) hi
  rw [map_label_islands h, List.mem_map] at hl
  obtain ⟨n, _, he⟩ := hl
  omega

/-- The pixels of an island have a label. -/
theorem ne_zero_of_label {i : Island α} (hi : i ∈ m.islands) {p : Pixel rows cols}
    (hp : (m.labels.get p : Int) = i.label) : m.labels.get p ≠ 0 := by
  have := label_pos h hi
  omega

theorem label_increasing : m.islands.Pairwise fun i j => i.label < j.label := by
  rw [← List.pairwise_map, map_label_islands h, List.pairwise_map]
  exact List.pairwise_lt_range.imp fun hlt => by omega

theorem label_injective {i j : Island α} (hi : i ∈ m.islands) (hj : j ∈ m.islands)
    (hij : i.label = j.label) : i = j := by
  have hnodup : (m.islands.map (·.label)).Nodup := by
    rw [List.Nodup, List.pairwise_map]
    exact (label_increasing h).imp Int.ne_of_lt
  exact List.inj_on_of_nodup_map hnodup hi hj hij

theorem describes {i : Island α} (hi : i ∈ m.islands) : Describes m.labels (sides marks) i := by
  obtain ⟨k, hk⟩ := List.getElem?_of_mem hi
  obtain ⟨⟨hlabel, hsign, hnpix⟩, hfit, hbox⟩ := Census.island_eq_ok (getElem?_islands h hk)
  have hsame (n : Nat) : (n : Int) = i.label ↔ n = k + 1 := by rw [hlabel]; omega
  have hmem {p : Pixel rows cols} : p ∈ m.labels.pixelsWhere (fun label => label = k + 1) ↔
      m.labels.get p = k + 1 := by rw [Grid.mem_pixelsWhere, decide_eq_true_iff]
  obtain ⟨hlt, _⟩ := List.getElem?_eq_some_iff.1 hk
  obtain ⟨_, q, hq⟩ := ((numbered h).used (k + 1)).2 ⟨Nat.succ_pos k, hlt⟩
  constructor
  · rw [hnpix, census, Census.ofPixels_count, Grid.length_pixelsWhere]
    simp only [hsame, decide_eq_true_iff]
  · intro p hp
    rw [hsame] at hp
    -- the pixels of a label are joined, so they lie on one side
    have hside (r : Pixel rows cols) (hr : m.labels.get r = k + 1) :
        (sides marks).get r = (sides marks).get p := by
      have hp0 : m.labels.get p ≠ 0 := by omega
      have hr0 : m.labels.get r ≠ 0 := by omega
      exact (((numbered h).shared p r hp0 hr0).1 (by rw [hp, hr])).sign_eq
    rw [hsign]
    symm
    apply Census.ofPixels_sign
    · exact List.ne_nil_of_mem (hmem.2 hq)
    · intro r hr
      have := hside r (hmem.1 hr)
      simp only [sides, Grid.get_map] at this ⊢
      rw [this]
  · have hin := Census.ofPixels_inside data (marks.map fun m => m.sign.toInt) background
      (m.labels.pixelsWhere fun label => label = k + 1)
    have hb := Census.make_eq_ok hbox
    simp only [census] at hb
    simp only at hin
    omega
  · exact hfit

/-- What stands out most in an island is the value of one of its pixels, at its place in the
box. -/
theorem exists_peak {i : Island α} (hi : i ∈ m.islands) :
    ∃ p, (m.labels.get p : Int) = i.label ∧ i.box.holds p = true ∧ i.extremum = data.get p ∧
      i.row = p.row.val ∧ i.column = p.col.val := by
  obtain ⟨k, hk⟩ := List.getElem?_of_mem hi
  obtain ⟨box, hbox, rfl⟩ := Census.island_eq_ok_iff.1 (getElem?_islands h hk)
  obtain ⟨hlt, _⟩ := List.getElem?_eq_some_iff.1 hk
  obtain ⟨_, q, hq⟩ := ((numbered h).used (k + 1)).2 ⟨Nat.succ_pos k, hlt⟩
  have hq : q ∈ m.labels.pixelsWhere (fun label => label = k + 1) :=
    Grid.mem_pixelsWhere.2 (decide_eq_true hq)
  have hne := List.ne_nil_of_mem hq
  let signs := marks.map fun m => m.sign.toInt
  obtain ⟨p, hp, hpeak⟩ := Census.exists_ofPixels_peak data signs background hne
  have himage {x : Pixel rows cols → Int} :
      x p ∈ x '' {q | q ∈ m.labels.pixelsWhere fun label => label = k + 1} := ⟨p, hp, rfl⟩
  have hminRow := (Census.ofPixels_minRow data signs background hne).2 himage
  have hmaxRow := (Census.ofPixels_maxRow data signs background hne).2 himage
  have hminCol := (Census.ofPixels_minCol data signs background hne).2 himage
  have hmaxCol := (Census.ofPixels_maxCol data signs background hne).2 himage
  obtain ⟨⟨hboxMinRow, hboxMaxRow⟩, hboxMinCol, hboxMaxCol⟩ := Census.make_eq_ok hbox
  simp only [Census.peak, Prod.mk.injEq] at hpeak
  refine ⟨p, ?_, ?_, hpeak.1, congrArg Nat.cast hpeak.2.1, congrArg Nat.cast hpeak.2.2⟩
  · rw [Grid.mem_pixelsWhere, decide_eq_true_iff] at hp
    rw [hp]
    rfl
  · simp only [BoundingBox.holds, Bool.and_eq_true, decide_eq_true_eq]
    rw [hboxMinRow, hboxMaxRow, hboxMinCol, hboxMaxCol]
    exact ⟨⟨⟨hminRow, hmaxRow⟩, hminCol⟩, hmaxCol⟩

theorem exists_extremum {i : Island α} (hi : i ∈ m.islands) :
    ∃ p, (m.labels.get p : Int) = i.label ∧ i.extremum = data.get p := by
  obtain ⟨p, hp, -, he, -⟩ := exists_peak h hi
  exact ⟨p, hp, he⟩

end Found
end IslandMap
end SkySources
