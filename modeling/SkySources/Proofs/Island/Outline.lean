import Mathlib
import SkySources.Proofs.Double.Arithmetic
import SkySources.Proofs.Island.Found

/-!
# The outline of an island

One pass over an image keeps the censuses of all islands at once. What they say of an island
is what its pixels say: how many they are, the tightest bounds around them, the sign that they
share, and the first one in raster order whose value stands out most in the direction of the
sign. The values are doubles that are finite, so all of them compare; the extremum starts at
zero, but the first pixel takes its place whatever its value.

What is proved:
  1. `Census.exists_foremost`: the extremum is the first largest value;
  2. `IslandMap.outline_eq`: an island has the outline of its census;
  3. `IslandMap.sum_npix`: the pixels of all islands, added up;
  4. `IslandMap.outline_shows`: the outline of a census shows the pixels of its label;
  5. `IslandMap.exists_outlines`: so do the islands of any marks on an image.
-/

namespace SkySources
variable {rows cols : Nat}

/-- The first of some pixels in raster order at which a quantity is largest. -/
structure Foremost {β : Type} [LE β] [LT β] (f : Pixel rows cols → β)
    (pixels : Set (Pixel rows cols)) (p : Pixel rows cols) : Prop where
  mem : p ∈ pixels
  largest : ∀ q ∈ pixels, f q ≤ f p
  first : ∀ q ∈ pixels, q.index < p.index → f q < f p

namespace Foremost
variable {β : Type} [LinearOrder β] {f : Pixel rows cols → β} {pixels : Set (Pixel rows cols)}
  {p r : Pixel rows cols}

theorem singleton (f : Pixel rows cols → β) (p : Pixel rows cols) : Foremost f {p} p := by
  refine ⟨rfl, ?_, ?_⟩
  · rintro q rfl
    exact le_rfl
  · rintro q rfl hlt
    exact absurd hlt (lt_irrefl _)

/-- A larger value takes over. -/
theorem insert_of_lt (h : Foremost f pixels p) (hlt : f p < f r) :
    Foremost f (insert r pixels) r := by
  refine ⟨Set.mem_insert r pixels, ?_, ?_⟩
  · rintro q (rfl | hq)
    · exact le_rfl
    · exact ((h.largest q hq).trans_lt hlt).le
  · rintro q (rfl | hq) hindex
    · exact absurd hindex (lt_irrefl _)
    · exact (h.largest q hq).trans_lt hlt

/-- A later value that is not larger does not. -/
theorem insert_of_le (h : Foremost f pixels p) (hle : f r ≤ f p) (hlater : p.index < r.index) :
    Foremost f (insert r pixels) p := by
  refine ⟨Set.mem_insert_of_mem r h.mem, ?_, ?_⟩
  · rintro q (rfl | hq)
    · exact hle
    · exact h.largest q hq
  · rintro q (rfl | hq) hindex
    · exact absurd hlater hindex.asymm
    · exact h.first q hq hindex

end Foremost

/-- What a census and its island both tell of their pixels. -/
structure Outline (α : Type) where
  (minRow maxRow minCol maxCol : Int)
  npix : Int
  sign : Int
  extremum : α
  (row column : Int)

/-- The outline that a census tells of. -/
def Census.outline {α : Type} (c : Census α) : Outline α :=
  ⟨c.minRow, c.maxRow, c.minCol, c.maxCol, c.count, c.sign, c.extremum, c.extremumRow,
    c.extremumCol⟩

/-- The outline of an island. -/
def Island.outline {α : Type} (i : Island α) : Outline α :=
  ⟨i.box.minRow, i.box.maxRow, i.box.minCol, i.box.maxCol, i.npix, i.sign, i.extremum, i.row,
    i.column⟩

section Scalar
variable {α : Type} [Scalar α]

/-- An outline shows some pixels of an image. -/
structure Outline.Shows (o : Outline α) (data : Grid rows cols α) (signs : Grid rows cols Int)
    (pixels : Set (Pixel rows cols)) : Prop where
  npix_eq : o.npix = pixels.ncard
  npix_pos : 1 ≤ o.npix
  /-- The bounds are those of the tightest box around the pixels. -/
  bounds : (IsLeast ((fun p => (p.row.val : Int)) '' pixels) o.minRow ∧
      IsGreatest ((fun p => (p.row.val : Int)) '' pixels) o.maxRow) ∧
    IsLeast ((fun p => (p.col.val : Int)) '' pixels) o.minCol ∧
      IsGreatest ((fun p => (p.col.val : Int)) '' pixels) o.maxCol
  inside : (0 ≤ o.minRow ∧ o.maxRow < rows) ∧ 0 ≤ o.minCol ∧ o.maxCol < cols
  sign_eq : ∀ p ∈ pixels, signs.get p = o.sign
  /-- The extremum lies at the first pixel whose value stands out most. -/
  peak : ∃ p, Foremost (fun q => Scalar.ofInt o.sign * data.get q) pixels p ∧
    o.extremum = data.get p ∧ o.row = p.row.val ∧ o.column = p.col.val

/-! ## The outline of a census -/

namespace Census
variable {data : Grid rows cols α} {signs : Grid rows cols Int} {background : α}

variable (data signs background) in
/-- The extremum of a census in raster order is the first largest value. -/
theorem exists_foremost {β : Type} [LinearOrder β] {f : Pixel rows cols → β} {s : Int}
    {ps : List (Pixel rows cols)} (hne : ps ≠ []) (horder : ps.Pairwise fun p q => p.index < q.index)
    (hsign : ∀ p ∈ ps, signs.get p = s)
    (hf : ∀ p ∈ ps, ∀ q ∈ ps,
      Scalar.ofInt s * data.get p < Scalar.ofInt s * data.get q ↔ f p < f q) :
    ∃ p, Foremost f {q | q ∈ ps} p ∧
      (ofPixels data signs background ps).peak = (data.get p, p.row.val, p.col.val) := by
  induction ps using List.reverseRecOn with
  | nil => exact absurd rfl hne
  | append_singleton ps r ih =>
    have hr : r ∈ ps ++ [r] := List.mem_append_right _ List.mem_cons_self
    have hbefore {q : Pixel rows cols} (hq : q ∈ ps) : q ∈ ps ++ [r] := List.mem_append_left _ hq
    rw [ofPixels_concat, add_peak, hsign r hr, setOf_mem_concat]
    rcases eq_or_ne ps [] with rfl | hsome
    · exact ⟨r, by simpa using Foremost.singleton f r, if_pos (.inl rfl)⟩
    · obtain ⟨horder, -, hlast⟩ := List.pairwise_append.1 horder
      obtain ⟨p, hp, hpeak⟩ := ih hsome horder (fun q hq => hsign q (hbefore hq))
        (fun q hq q' hq' => hf q (hbefore hq) q' (hbefore hq'))
      have hraised : ((ofPixels data signs background ps).count = 0 ∨
          Scalar.ofInt s * (ofPixels data signs background ps).peak.1 <
            Scalar.ofInt s * data.get r) ↔ f p < f r := by
        rw [ofPixels_count, List.length_eq_zero_iff, hpeak, hf p (hbefore hp.mem) r hr]
        exact or_iff_right hsome
      by_cases hlt : f p < f r
      · exact ⟨r, hp.insert_of_lt hlt, if_pos (hraised.2 hlt)⟩
      · have hindex : p.index < r.index := hlast p hp.mem r List.mem_cons_self
        refine ⟨p, hp.insert_of_le (not_lt.1 hlt) hindex, ?_⟩
        rw [if_neg (mt hraised.1 hlt), hpeak]

end Census

/-! ## The outline of an island -/

namespace IslandMap
variable {c : Connectivity} {data : Grid rows cols α} {marks : Grid rows cols Mark}
  {background : α} {barycentre : Bool} {m : IslandMap rows cols α}
  (h : ofMarks c data marks background barycentre = .ok m)
include h

/-- An island has the outline of the census of its label. -/
theorem outline_eq {k : Nat} {i : Island α} (hk : m.islands[k]? = some i) :
    i.outline =
      (census data (marks.map fun m => m.sign.toInt) background m.labels (k + 1)).outline := by
  obtain ⟨box, hbox, rfl⟩ := Census.island_eq_ok_iff.1 (getElem?_islands h hk)
  obtain ⟨⟨hminRow, hmaxRow⟩, hminCol, hmaxCol⟩ := Census.make_eq_ok hbox
  simp only [Island.outline, Census.outline, hminRow, hmaxRow, hminCol, hmaxCol]

/-- One pass over the image makes the outlines of all islands. -/
theorem map_outline : m.islands.map (·.outline) =
    (Census.ofLabels data (marks.map fun m => m.sign.toInt) m.labels m.islands.length
      background).map (·.outline) := by
  rw [map_eq_map_range fun k i hk => outline_eq h hk, Census.ofLabels_eq, List.map_map]
  rfl

/-- Every pixel with a label belongs to one of the islands. -/
theorem sum_npix : (m.islands.map (·.npix)).sum = {p | m.labels.get p ≠ 0}.ncard := by
  have hsize (k : Nat) (i : Island α) (hk : m.islands[k]? = some i) :
      i.npix = ({p | m.labels.get p = k + 1}.ncard : Nat) := by
    rw [(describes h (List.mem_of_getElem? hk)).npix_eq,
      (Census.island_eq_ok (getElem?_islands h hk)).1.1]
    norm_cast
  have hlabels : {p | m.labels.get p ≠ 0} =
      {p | m.labels.get p ≠ 0 ∧ m.labels.get p ≤ m.islands.length} := by
    ext p
    refine ⟨fun hp => ⟨hp, ?_⟩, And.left⟩
    exact (((numbered h).used (m.labels.get p)).1 ⟨hp, p, rfl⟩).2
  rw [map_eq_map_range hsize, hlabels, ← Grid.sum_ncard, Nat.cast_list_sum, List.map_map]
  rfl

end IslandMap
end Scalar

/-! ## Doubles -/

open Double

/-- Doubles are ordered by their places, as long as none is missing. -/
theorem Foremost.of_place {f : Pixel rows cols → Float} {pixels : Set (Pixel rows cols)}
    {p : Pixel rows cols} (hf : ∀ q ∈ pixels, place (f q) ≤ top)
    (h : Foremost (fun q => place (f q)) pixels p) : Foremost f pixels p where
  mem := h.mem
  largest q hq := le_iff.2 ⟨h.largest q hq, hf p h.mem⟩
  first q hq hindex := lt_iff.2 ⟨h.first q hq hindex, hf p h.mem⟩

theorem isFinite_toInt (s : Sign) : (Scalar.ofInt s.toInt : Float).isFinite = true := by
  cases s <;> decide +kernel

namespace IslandMap
variable {data : Grid rows cols Float} {signs : Grid rows cols Int} {background : Float}

/-- The census of a label shows the pixels of the label, if they are on one side and finite. -/
theorem outline_shows {labels : Grid rows cols Nat} {k : Nat} {s : Sign}
    (hused : ∃ p, labels.get p = k) (hsign : ∀ p, labels.get p = k → signs.get p = s.toInt)
    (hfinite : ∀ p, labels.get p = k → (data.get p).isFinite = true) :
    (census data signs background labels k).outline.Shows data signs {p | labels.get p = k} := by
  unfold census
  set ps := labels.pixelsWhere fun label => label = k with hps
  have hmem {p : Pixel rows cols} : p ∈ ps ↔ labels.get p = k := by
    rw [hps, Grid.mem_pixelsWhere, decide_eq_true_iff]
  have hlength : ps.length = {p | labels.get p = k}.ncard := by
    simpa only [decide_eq_true_eq] using Grid.length_pixelsWhere labels fun label => label = k
  have hset : {p | labels.get p = k} = {p | p ∈ ps} := Set.ext fun _ => hmem.symm
  obtain ⟨r, hr⟩ := hused
  have hne : ps ≠ [] := List.ne_nil_of_mem (hmem.2 hr)
  have horder : ps.Pairwise fun p q => p.index < q.index :=
    (Pixel.raster_pairwise rows cols).filter _
  have hcommon : ∀ p ∈ ps, signs.get p = s.toInt := fun p hp => hsign p (hmem.1 hp)
  have hproduct : ∀ p ∈ ps, place (Scalar.ofInt s.toInt * data.get p) ≤ top :=
    fun p hp => place_mul_le_top (isFinite_toInt s) (hfinite p (hmem.1 hp))
  have hcensus : (Census.ofPixels data signs background ps).sign = s.toInt :=
    Census.ofPixels_sign hne hcommon
  obtain ⟨p, hp, hpeak⟩ := Census.exists_foremost data signs background hne horder hcommon
    fun p _ q hq => lt_iff.trans (and_iff_left (hproduct q hq))
  constructor
  · rw [← hlength]
    exact congrArg Nat.cast (Census.ofPixels_count ps)
  · have hpos := List.length_pos_iff.2 hne
    change (1 : Int) ≤ (Census.ofPixels data signs background ps).count
    rw [Census.ofPixels_count]
    omega
  · rw [hset]
    exact ⟨⟨Census.ofPixels_minRow data signs background hne,
      Census.ofPixels_maxRow data signs background hne⟩,
      Census.ofPixels_minCol data signs background hne,
      Census.ofPixels_maxCol data signs background hne⟩
  · exact Census.ofPixels_inside data signs background ps
  · intro q hq
    exact (hsign q hq).trans hcensus.symm
  · simp only [Census.peak, Prod.mk.injEq] at hpeak
    obtain ⟨hextremum, hrow, hcol⟩ := hpeak
    refine ⟨p, ?_, hextremum, congrArg Nat.cast hrow, congrArg Nat.cast hcol⟩
    rw [hset]
    change Foremost (fun q => Scalar.ofInt (Census.ofPixels data signs background ps).sign *
      data.get q) _ p
    rw [hcensus]
    exact hp.of_place hproduct

/-- Marked pixels always become islands, whatever the marks. The islands are numbered from one
on in their order, and one pass over the image makes the outlines of all of them. If the image
is finite where it is labelled, each outline shows the pixels of its label: how many they are,
the tightest bounds around them, the sign that they share, and where the value lies that stands
out most, or the first of several. All pixels with a label are in one of the islands. -/
theorem exists_outlines (c : Connectivity) (data : Grid rows cols Float)
    (marks : Grid rows cols Mark) (background : Float) (barycentre : Bool)
    (hfinite : ∀ p, (Component.label c (sides marks) (hits marks)).labels.get p ≠ 0 →
      (data.get p).isFinite = true) :
    let l := Component.label c (sides marks) (hits marks)
    let signs := marks.map fun m => m.sign.toInt
    ∃ m, ofMarks c data marks background barycentre = .ok m ∧ m.labels = l.labels ∧
      m.islands.map (·.label) = (List.range l.count).map (fun k : Nat => (k : Int) + 1) ∧
      m.islands.map (·.outline) =
        (Census.ofLabels data signs l.labels l.count background).map (·.outline) ∧
      (∀ (k : Nat) i, m.islands[k]? = some i →
        i.outline.Shows data signs {p | l.labels.get p = k + 1}) ∧
      (m.islands.map (·.npix)).sum = {p | l.labels.get p ≠ 0}.ncard := by
  intro l signs
  obtain ⟨m, h⟩ := exists_ofMarks c data marks background barycentre
  have hlabels : m.labels = l.labels := labels_eq h
  have hcount : m.islands.length = l.count := islands_length h
  have hshows (k : Nat) (i : Island Float) (hk : m.islands[k]? = some i) :
      i.outline.Shows data signs {p | l.labels.get p = k + 1} := by
    have hmem := List.mem_of_getElem? hk
    obtain ⟨hlt, -⟩ := List.getElem?_eq_some_iff.1 hk
    obtain ⟨r, hr⟩ : ∃ r, m.labels.get r = k + 1 :=
      (((numbered h).used (k + 1)).2 ⟨Nat.succ_pos k, hlt⟩).2
    have hlabel (p : Pixel rows cols) (hp : m.labels.get p = k + 1) :
        (m.labels.get p : Int) = i.label := by
      rw [hp, (Census.island_eq_ok (getElem?_islands h hk)).1.1]
      norm_cast
    rw [outline_eq h hk, ← hlabels]
    apply outline_shows ⟨r, hr⟩ (s := (marks.get r).sign)
    · intro p hp
      have hside := (describes h hmem).sign_eq p (hlabel p hp)
      rw [← (describes h hmem).sign_eq r (hlabel r hr)] at hside
      simpa only [signs, sides, Grid.get_map] using hside
    · intro p hp
      apply hfinite p
      have hlabelled : m.labels.get p ≠ 0 := by omega
      rwa [hlabels] at hlabelled
  refine ⟨m, h, hlabels, ?_, ?_, hshows, ?_⟩
  · rw [← hcount]
    exact map_label_islands h
  · rw [← hcount, ← hlabels]
    exact map_outline h
  · rw [← hlabels]
    exact sum_npix h

/-- Two pixels that are equally bright, and a dark one. -/
def twins : Grid 1 3 Float := ⟨#v[#v[8.0, 8.0, -7.0]]⟩

/-- The marks of the bright and the dark pixels, all of them detected. -/
def twinMarks : Grid 1 3 Mark := ⟨#v[#v[⟨.above, true⟩, ⟨.above, true⟩, ⟨.below, true⟩]]⟩

def twinLabels : Grid 1 3 Nat := ⟨#v[#v[1, 1, 2]]⟩

theorem label_twins :
    Component.label .edges (sides twinMarks) (hits twinMarks) = ⟨twinLabels, 2⟩ := by
  cbv

/-- The bright pixels and the dark one are two islands. -/
theorem exists_outlines_twins :
    (∀ p, (Component.label .edges (sides twinMarks) (hits twinMarks)).labels.get p ≠ 0 →
      (twins.get p).isFinite = true) ∧
    ∃ m, ofMarks .edges twins twinMarks 0.0 true = .ok m ∧ m.labels = twinLabels ∧
      m.islands.map (·.label) = [1, 2] ∧
      (∀ (k : Nat) i, m.islands[k]? = some i → i.outline.Shows twins
        (twinMarks.map fun m => m.sign.toInt) {p | twinLabels.get p = k + 1}) ∧
      (m.islands.map (·.npix)).sum = {p | twinLabels.get p ≠ 0}.ncard := by
  have hvalues : ∀ p, (twins.get p).isFinite = true := by decide +kernel
  have hfinite : ∀ p, (Component.label .edges (sides twinMarks)
      (hits twinMarks)).labels.get p ≠ 0 → (twins.get p).isFinite = true := by
    intro p _
    exact hvalues p
  obtain ⟨m, h, hlabels, hnumbers, -, hshows, hsum⟩ :=
    exists_outlines .edges twins twinMarks 0.0 true hfinite
  rw [label_twins] at hlabels hnumbers hshows hsum
  exact ⟨hfinite, m, h, hlabels, hnumbers, hshows, hsum⟩

end IslandMap
end SkySources
