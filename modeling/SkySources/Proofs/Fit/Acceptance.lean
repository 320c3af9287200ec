import Mathlib
import SkySources.Proofs.Fit.Isolation
import SkySources.Proofs.Fit.Range
import SkySources.Proofs.Raster

/-!
# What a fit accepts

A minimiser is not trusted. It is only asked about an island with enough pixels that differ
(`Posed`), and whatever it answers, infinities and missing numbers included, is only accepted
as a Gaussian that makes sense (`WellFormed`). All numbers are doubles, so the bounds hold for
them as they are computed.

What is proved:
  1. `accept_eq_ok_iff`, `rejection?_eq_none_iff`: when an answer is accepted;
  2. `canonical_sound`: the standard form of finite parameters;
  3. `place_axisLimit`: the longest axis that is accepted is a number;
  4. `wellFormed_of_accept`: so what is accepted is well-formed;
  5. `select_eq_ok`: what is asked of a minimiser;
  6. `ofIsland_wellFormed`: the whole fit of an island.
-/

namespace SkySources
namespace Fit

section Scalar
variable {α : Type} [Scalar α] {box : BoundingBox} {sign : Int}

/-! ## When an answer is accepted -/

theorem ite_some_eq_none {β : Type} {c : Prop} [Decidable c] {b : β} {x : Option β} :
    (if c then some b else x) = none ↔ ¬c ∧ x = none := by
  by_cases h : c <;> simp [h]

theorem rejection?_eq_none_iff {g : Gaussian α} : rejection? box g = none ↔
    ¬g.semiminor ≤ 0.0 ∧ ¬axisLimit box < g.semimajor ∧ isNear box g.xCentre g.yCentre = true ∧
      ¬g.amplitude ≤ 0.0 := by
  simp only [rejection?, ite_some_eq_none, Bool.not_eq_true', Bool.not_eq_false, and_true]

theorem accept_eq_ok_iff {o : Outcome α} {fit : GaussianFit α} : accept box sign o = .ok fit ↔
    o.converged = true ∧ ∃ found, Gaussian.ofList? o.params = some found ∧
      found.isFinite = true ∧ Scalar.isFinite o.cost = true ∧
      rejection? box (canonical found) = none ∧
      fit = { gaussian := { canonical found with
                amplitude := Scalar.ofInt sign * (canonical found).amplitude }
              sign := sign, converged := true, iterations := o.iterations, cost := o.cost
              report := o.report } := by
  unfold accept
  constructor
  · intro h
    split at h
    · cases h
    · next hconverged =>
      split at h
      · cases h
      · next found hfound =>
        split at h
        · cases h
        · next hfinite =>
          simp only at h
          split at h
          · cases h
          · next hreject =>
            cases h
            simp only [Bool.not_eq_true', Bool.not_eq_false, Bool.and_eq_true] at hconverged hfinite
            exact ⟨hconverged, found, hfound, hfinite.1, hfinite.2, hreject, rfl⟩
  · rintro ⟨hconverged, found, hfound, hfinite, hcost, hreject, rfl⟩
    simp only [hconverged, hfound, hfinite, hcost, hreject, Bool.not_true, Bool.and_self,
      Bool.false_eq_true, if_false]

theorem isNear_iff {x y : α} : isNear box x y = true ↔
    (Scalar.ofInt (box.minCol - 1) ≤ x ∧ x ≤ Scalar.ofInt (box.maxCol + 1)) ∧
      Scalar.ofInt (box.minRow - 1) ≤ y ∧ y ≤ Scalar.ofInt (box.maxRow + 1) := by
  simp only [isNear, Bool.and_eq_true, decide_eq_true_eq]

theorem isFinite_iff_all {g : Gaussian α} : g.isFinite = true ↔
    Scalar.isFinite g.amplitude = true ∧ Scalar.isFinite g.xCentre = true ∧
      Scalar.isFinite g.yCentre = true ∧ Scalar.isFinite g.semimajor = true ∧
      Scalar.isFinite g.semiminor = true ∧ Scalar.isFinite g.theta = true := by
  simp only [Gaussian.isFinite, Gaussian.toList, List.all_cons, List.all_nil, Bool.and_true,
    Bool.and_eq_true]

/-- The angle that is normalised: that of the longer axis. -/
def longerAngle (g : Gaussian α) : α :=
  if Scalar.abs g.semimajor < Scalar.abs g.semiminor then g.theta + Scalar.pi / 2.0 else g.theta

/-- The standard form, by which axis is the longer one. -/
theorem canonical_cases (g : Gaussian α) :
    (Scalar.abs g.semimajor < Scalar.abs g.semiminor ∧
      canonical g = { g with
        semimajor := Scalar.abs g.semiminor
        semiminor := Scalar.abs g.semimajor
        theta := normaliseAngle (longerAngle g) }) ∨
    ¬Scalar.abs g.semimajor < Scalar.abs g.semiminor ∧
      canonical g = { g with
        semimajor := Scalar.abs g.semimajor
        semiminor := Scalar.abs g.semiminor
        theta := normaliseAngle (longerAngle g) } := by
  by_cases h : Scalar.abs g.semimajor < Scalar.abs g.semiminor
  · exact .inl ⟨h, by simp only [canonical, longerAngle, if_pos h]⟩
  · exact .inr ⟨h, by simp only [canonical, longerAngle, if_neg h]⟩

theorem canonical_theta (g : Gaussian α) :
    (canonical g).theta = normaliseAngle (longerAngle g) := by
  rcases canonical_cases g with ⟨-, h⟩ | ⟨-, h⟩ <;> rw [h]

end Scalar

/-! ## The standard form of doubles -/

section Double
open Double

theorem isFinite_longerAngle {g : Gaussian Float} (h : g.isFinite = true) :
    (longerAngle g).isFinite = true := by
  obtain ⟨-, -, -, -, -, htheta⟩ := isFinite_iff_all.1 h
  rw [longerAngle]
  split
  · exact isFinite_add_quarter htheta
  · exact htheta

/-- The angle of finite parameters can be normalised, also after a quarter turn. -/
theorem normaliseAngle?_longerAngle {g : Gaussian Float} (h : g.isFinite = true) :
    normaliseAngle? (longerAngle g) = some (canonical g).theta := by
  have hfinite : Scalar.isFinite (longerAngle g) = true := isFinite_longerAngle h
  rw [normaliseAngle?, hfinite, Bool.not_true, Bool.and_false, canonical_theta]
  rfl

theorem isFinite_abs {x : Float} (h : x.isFinite = true) : (Scalar.abs x).isFinite = true := by
  have := isFinite_iff.1 h
  rw [isFinite_iff, place_abs h]
  have := abs_lt.2 this
  have := abs_nonneg (place x)
  have := top_pos
  omega

/-- The standard form of finite parameters: they stay finite, the longer axis comes first, and
the angle is in its range. -/
theorem canonical_sound {g : Gaussian Float} (h : g.isFinite = true) :
    (canonical g).isFinite = true ∧ (canonical g).semiminor ≤ (canonical g).semimajor ∧
      quarterBack < (canonical g).theta ∧ (canonical g).theta ≤ quarter := by
  obtain ⟨hamplitude, hx, hy, hmajor, hminor, -⟩ := isFinite_iff_all.1 h
  have hrange : quarterBack < (canonical g).theta ∧ (canonical g).theta ≤ quarter := by
    rw [canonical_theta]
    exact normaliseAngle_between (isFinite_longerAngle h)
  have htheta : (canonical g).theta.isFinite = true := by
    have hlow := (lt_iff.1 hrange.1).1
    have hhigh := (le_iff.1 hrange.2).1
    have hquarter := place_quarter
    rw [place_quarterBack] at hlow
    exact isFinite_iff.2 ⟨by omega, by omega⟩
  have hmajor' := isFinite_abs hmajor
  have hminor' := isFinite_abs hminor
  have hmajorTop := (isFinite_iff.1 hmajor').2.le
  have hminorTop := (isFinite_iff.1 hminor').2.le
  rcases canonical_cases g with ⟨hlt, hg⟩ | ⟨hle, hg⟩
  · rw [hg] at htheta hrange ⊢
    refine ⟨isFinite_iff_all.2 ⟨hamplitude, hx, hy, hminor', hmajor', htheta⟩, ?_, hrange⟩
    exact le_iff.2 ⟨(lt_iff.1 hlt).1.le, hminorTop⟩
  · rw [hg] at htheta hrange ⊢
    refine ⟨isFinite_iff_all.2 ⟨hamplitude, hx, hy, hmajor', hminor', htheta⟩, ?_, hrange⟩
    refine le_iff.2 ⟨not_lt.1 fun hlt => hle (lt_iff.2 ⟨hlt, hminorTop⟩), hmajorTop⟩

/-! ## The longest axis -/

theorem place_ofInt_between {n : Int} (h : 0 < n) :
    0 < place (Scalar.ofInt n : Float) ∧ place (Scalar.ofInt n : Float) ≤ top := by
  have hone : 0 < place (Float.ofInt 1) := by decide +kernel
  have hplace : place (Scalar.ofInt n : Float) = standing (n * unity) := place_ofInt n
  have hmono : standing (1 * unity) ≤ standing (n * unity) :=
    standing_mono (Int.mul_le_mul_of_nonneg_right h (Int.natCast_nonneg _))
  rw [hplace]
  rw [place_ofInt] at hone
  refine ⟨hone.trans_le hmono, ?_⟩
  exact (standing_between (Int.mul_nonneg h.le (Int.natCast_nonneg _))).2

/-- The longest axis that is accepted is a number, though it may be infinite. -/
theorem place_axisLimit (box : BoundingBox) : place (axisLimit box : Float) ≤ top := by
  have hsquare {n : Int} (h : 0 < n) : 0 ≤ place (Scalar.square (Scalar.ofInt n) : Float) ∧
      place (Scalar.square (Scalar.ofInt n) : Float) ≤ top := by
    obtain ⟨hpos, hle⟩ := place_ofInt_between h
    exact place_mul_between ⟨hpos.le, hle⟩ ⟨hpos.le, hle⟩ hpos (.inr hpos)
  have hten : 0 < place 10.0 ∧ place 10.0 < top := by decide +kernel
  exact (place_mul_between ⟨hten.1.le, hten.2.le⟩ (place_sqrt_between (place_add_between
    (hsquare box.width_pos) (hsquare box.height_pos))) hten.1 (.inl hten.2)).2

/-! ## What is accepted -/

/-- A Gaussian that makes sense near a region, for an island of some sign. -/
structure WellFormed (box : BoundingBox) (sign : Int) (fit : GaussianFit Float) : Prop where
  finite : fit.gaussian.isFinite = true
  cost_finite : fit.cost.isFinite = true
  converged : fit.converged = true
  sign_eq : fit.sign = sign
  /-- It points to the side of the island. -/
  amplitude : 0.0 < Scalar.ofInt sign * fit.gaussian.amplitude
  minor_pos : 0.0 < fit.gaussian.semiminor
  longer : fit.gaussian.semiminor ≤ fit.gaussian.semimajor
  limited : fit.gaussian.semimajor ≤ axisLimit box
  angle : -Scalar.pi / 2.0 < fit.gaussian.theta ∧ fit.gaussian.theta ≤ Scalar.pi / 2.0
  /-- The centre is at most one pixel beside the region. -/
  near : (Scalar.ofInt (box.minCol - 1) ≤ fit.gaussian.xCentre ∧
      fit.gaussian.xCentre ≤ Scalar.ofInt (box.maxCol + 1)) ∧
    Scalar.ofInt (box.minRow - 1) ≤ fit.gaussian.yCentre ∧
      fit.gaussian.yCentre ≤ Scalar.ofInt (box.maxRow + 1)

theorem place_pos_of_not_le {x : Float} (h : ¬x ≤ 0.0) : 0 < place x := by
  by_contra hle
  exact h (le_iff.2 ⟨by rw [place_zero]; omega, by rw [place_zero]; exact top_pos.le⟩)

theorem lt_of_place_pos {x : Float} (hle : place x ≤ top) (h : 0 < place x) : 0.0 < x :=
  lt_iff.2 ⟨by rwa [place_zero], hle⟩

/-- Turned over by its sign or not, an amplitude stays finite, and turned twice it is the
same. -/
theorem amplitude_unit {sign : Int} (hsign : sign = 1 ∨ sign = -1) {x : Float}
    (hx : x.isFinite = true) : (Scalar.ofInt sign * x).isFinite = true ∧
      place (Scalar.ofInt sign * (Scalar.ofInt sign * x)) = place x := by
  obtain ⟨hlow, hhigh⟩ := isFinite_iff.1 hx
  have hplace := place_unit_mul hsign hx
  have hfinite : (Scalar.ofInt sign * x).isFinite = true := by
    rw [isFinite_iff, hplace]
    rcases hsign with rfl | rfl <;> omega
  refine ⟨hfinite, ?_⟩
  rw [place_unit_mul hsign hfinite, hplace]
  rcases hsign with rfl | rfl <;> omega

/-- Whatever a minimiser ends with, it is only accepted as a Gaussian that makes sense. -/
theorem wellFormed_of_accept {box : BoundingBox} {sign : Int} (hsign : sign = 1 ∨ sign = -1)
    {o : Outcome Float} {fit : GaussianFit Float} (h : accept box sign o = .ok fit) :
    WellFormed box sign fit := by
  obtain ⟨-, found, -, hfound, hcost, hreject, rfl⟩ := accept_eq_ok_iff.1 h
  obtain ⟨hminor, hmajor, hnear, hamplitude⟩ := rejection?_eq_none_iff.1 hreject
  obtain ⟨hfinite, hlonger, hangle⟩ := canonical_sound hfound
  obtain ⟨hamplitudeFinite, hx, hy, hmajorFinite, hminorFinite, htheta⟩ :=
    isFinite_iff_all.1 hfinite
  obtain ⟨hturned, htwice⟩ := amplitude_unit hsign hamplitudeFinite
  constructor
  · exact isFinite_iff_all.2 ⟨hturned, hx, hy, hmajorFinite, hminorFinite, htheta⟩
  · exact hcost
  · rfl
  · rfl
  · have htop := (isFinite_iff.1 hamplitudeFinite).2.le
    exact lt_of_place_pos (htwice.trans_le htop) (htwice ▸ place_pos_of_not_le hamplitude)
  · exact lt_of_place_pos (isFinite_iff.1 hminorFinite).2.le (place_pos_of_not_le hminor)
  · exact hlonger
  · have hlimit := place_axisLimit box
    refine le_iff.2 ⟨not_lt.1 fun hlt => hmajor (lt_iff.2 ⟨hlt, ?_⟩), hlimit⟩
    exact (isFinite_iff.1 hmajorFinite).2.le
  · exact hangle
  · exact isNear_iff.1 hnear

end Double

/-! ## What is asked -/

section Asked
variable {α : Type} [Scalar α] {rows cols : Nat} {data : Grid rows cols α}
  {labels : Option (Grid rows cols Int)} {island : Island α} {background : α} {box : BoundingBox}
  {margin : Int}

/-- The pixels that a minimiser is asked about: six at least, all of them finite and in the
region, where two pixels that belong to the island have different values. -/
structure Posed (data : Grid rows cols α) (labels : Option (Grid rows cols Int)) (label : Int)
    (box : BoundingBox) (pixels : List (Pixel rows cols)) : Prop where
  enough : 6 ≤ pixels.length
  distinct : pixels.Nodup
  usable : ∀ p ∈ pixels, box.holds p = true ∧ Scalar.isFinite (data.get p) = true ∧
    ∀ map ∈ labels, map.get p = 0 ∨ map.get p = label
  varied : ∃ p q, (box.holds p = true ∧ isMember data labels label p = true) ∧
    (box.holds q = true ∧ isMember data labels label q = true) ∧
      Scalar.sameValue (data.get p) (data.get q) = false

theorem exists_of_not_allAlike {xs : List α} (h : allAlike xs = false) :
    ∃ x ∈ xs, ∃ y ∈ xs, Scalar.sameValue x y = false := by
  cases xs with
  | nil => cases h
  | cons first rest =>
    obtain ⟨x, hx, hne⟩ := List.all_eq_false.1 h
    exact ⟨x, List.mem_cons_of_mem _ hx, first, List.mem_cons_self, by simpa using hne⟩

/-- What is selected is worth asking about. -/
theorem select_eq_ok {points : List (Observation α)}
    (h : select data labels island background box = .ok points) : ∃ pixels,
      Posed data labels island.label box pixels ∧
        points = observations data island.sign background pixels := by
  unfold select at h
  simp only at h
  split at h
  · cases h
  · next hvaried =>
    split at h
    · cases h
    · next henough =>
      cases h
      refine ⟨_, ⟨not_lt.1 henough, ?_, ?_, ?_⟩, rfl⟩
      · exact ((Pixel.raster_nodup rows cols).filter _).filter _
      · intro p hp
        obtain ⟨hregion, husable⟩ := List.mem_filter.1 hp
        exact ⟨List.of_mem_filter hregion, isUsable_iff.1 husable⟩
      · obtain ⟨x, hx, y, hy, hne⟩ := exists_of_not_allAlike (Bool.eq_false_iff.2 hvaried)
        obtain ⟨p, hp, rfl⟩ := List.mem_map.1 hx
        obtain ⟨q, hq, rfl⟩ := List.mem_map.1 hy
        obtain ⟨hp, hpmember⟩ := List.mem_filter.1 hp
        obtain ⟨hq, hqmember⟩ := List.mem_filter.1 hq
        exact ⟨p, q, ⟨List.of_mem_filter hp, hpmember⟩, ⟨List.of_mem_filter hq, hqmember⟩, hne⟩

/-- A minimiser is asked one question that makes sense, or none. -/
theorem asked (d : Differencing) (data : Grid rows cols α) (labels : Option (Grid rows cols Int))
    (background : α) (island : Island α) (box : BoundingBox) :
    (∃ failure, ∀ minimiser, ofRegion minimiser d data labels island background box =
      .ok (.error failure)) ∨
    ∃ pixels, Posed data labels island.label box pixels ∧ ∀ minimiser,
      ofRegion minimiser d data labels island background box =
        conclude box island.sign (minimiser
          (Residuals.ofObservations d (observations data island.sign background pixels))
          (initialGuess island background).toList) := by
  cases h : select data labels island background box with
  | error failure => exact .inl ⟨failure, fun minimiser => by rw [ofRegion, h]⟩
  | ok points =>
    obtain ⟨pixels, hposed, rfl⟩ := select_eq_ok h
    exact .inr ⟨pixels, hposed, fun minimiser => by rw [ofRegion, h]⟩

/-- An island in an image has a region in it. -/
theorem exists_padded (hmargin : 0 ≤ margin) {b : BoundingBox} (h : b.Inside rows cols) :
    ∃ box, b.padded margin rows cols = .ok box := by
  have hrows := b.rows_le
  have hcols := b.cols_le
  obtain ⟨hminRow, hmaxRow, hminCol, hmaxCol⟩ := h
  rw [BoundingBox.padded, BoundingBox.make, dif_pos (by omega)]
  exact ⟨_, rfl⟩

/-- What a minimiser may answer: six numbers of any kind, at any cost, or that it failed. -/
def Answers (answer : Except SearchFailure (Outcome α)) : Prop :=
  (∃ text, answer = .error (.refused text)) ∨ ∃ o, answer = .ok o ∧ o.params.length = 6

theorem conclude_of_answers {sign : Int} {answer : Except SearchFailure (Outcome α)}
    (h : Answers answer) : ∃ result, conclude box sign answer = .ok result ∧
      ∀ fit, result = .ok fit → ∃ o, accept box sign o = .ok fit := by
  rcases h with ⟨text, rfl⟩ | ⟨o, rfl, -⟩
  · refine ⟨.error (.raised text), rfl, ?_⟩
    rintro fit ⟨⟩
  · exact ⟨accept box sign o, rfl, fun fit hfit => ⟨o, hfit⟩⟩

/-- The fit of an island with a label map and a name is that with the map and the way itself. -/
theorem named_eq_ofIsland (minimiser : Minimiser α) (d : Differencing) (margin : Int)
    (data : Grid rows cols α) (labels : Option (Grid rows cols Int)) (background : α)
    (island : Island α) : named minimiser d.name margin data (labels.map Image.mk) background
      island = ofIsland minimiser d margin data labels background island := by
  have hname : Differencing.ofName? d.name = some d := by cases d <;> decide
  rw [named, ofIsland]
  cases hbox : island.box.padded margin rows cols with
  | error inverted => rfl
  | ok box =>
    obtain ⟨spread, hspread, hget⟩ := exists_labelsIn labels (BoundingBox.inside_padded hbox)
    -- inside the region both maps have the same labels
    have hregion (f : Pixel rows cols → Bool) (g : Pixel rows cols → Bool)
        (h : ∀ p : Pixel rows cols, box.holds p = true → f p = g p) :
        ((Pixel.raster rows cols).filter box.holds).filter f =
          ((Pixel.raster rows cols).filter box.holds).filter g :=
      List.filter_congr fun p hp => h p (List.of_mem_filter hp)
    have hiff (p : Pixel rows cols) (hp : box.holds p = true) (P : Int → Prop) :
        (∀ map ∈ spread, P (map.get p)) ↔ ∀ map ∈ labels, P (map.get p) := by
      have := hget p hp
      cases spread <;> cases labels <;> simp_all
    have husable := hregion (isUsable data spread island.label) (isUsable data labels island.label)
      fun p hp => by
        rw [Bool.eq_iff_iff, isUsable_iff, isUsable_iff,
          hiff p hp fun k => k = 0 ∨ k = island.label]
    have hmember := hregion (isMember data spread island.label) (isMember data labels island.label)
      fun p hp => by
        rw [Bool.eq_iff_iff, isMember_iff, isMember_iff, hiff p hp fun k => k = island.label]
    have hselect : select data spread island background box =
        select data labels island background box := by
      simp only [select, husable, hmember]
    simp only [hspread, hname, ofRegion, hselect]

end Asked

/-! ## The fit of an island -/

/-- Whatever a minimiser answers, the fit of an island comes to an end, and if it is accepted it
makes sense in the region, the box of the island with a margin inside the image. The angle that
is normalised for it is never infinite. The minimiser is asked one question at most, about six
finite pixels at least, and only if the pixels of the island differ in value. It does not matter
whether the way to find derivatives is given or named. -/
theorem ofIsland_wellFormed {rows cols : Nat} (d : Differencing) {margin : Int}
    (hmargin : 0 ≤ margin) (data : Grid rows cols Float) (labels : Option (Grid rows cols Int))
    (background : Float) {island : Island Float} (hinside : island.box.Inside rows cols)
    (hsign : island.sign = 1 ∨ island.sign = -1) :
    ∃ box, island.box.padded margin rows cols = .ok box ∧
      (∀ minimiser : Minimiser Float, (∀ problem start, Answers (minimiser problem start)) →
        ∃ result, ofIsland minimiser d margin data labels background island = .ok result ∧
          ∀ fit, result = .ok fit → WellFormed box island.sign fit) ∧
      (∀ found : Gaussian Float, found.isFinite = true →
        normaliseAngle? (longerAngle found) = some (canonical found).theta) ∧
      ((∃ failure, ∀ minimiser, ofIsland minimiser d margin data labels background island =
          .ok (.error failure)) ∨
        ∃ pixels, Posed data labels island.label box pixels ∧ ∀ minimiser,
          ofIsland minimiser d margin data labels background island =
            conclude box island.sign (minimiser
              (Residuals.ofObservations d (observations data island.sign background pixels))
              (initialGuess island background).toList)) ∧
      ∀ minimiser, named minimiser d.name margin data (labels.map Image.mk) background island =
        ofIsland minimiser d margin data labels background island := by
  obtain ⟨box, hbox⟩ := exists_padded hmargin hinside
  have hregion (minimiser : Minimiser Float) :
      ofIsland minimiser d margin data labels background island =
        ofRegion minimiser d data labels island background box := by
    rw [ofIsland, hbox]
  have hasked := asked d data labels background island box
  refine ⟨box, hbox, fun minimiser hanswers => ?_, fun found => normaliseAngle?_longerAngle, ?_,
    fun minimiser => named_eq_ofIsland minimiser d margin data labels background island⟩
  · rw [hregion]
    rcases hasked with ⟨failure, hfailure⟩ | ⟨pixels, -, hquestion⟩
    · refine ⟨.error failure, hfailure minimiser, ?_⟩
      rintro fit ⟨⟩
    · rw [hquestion]
      obtain ⟨result, hresult, haccept⟩ := conclude_of_answers (hanswers _ _)
      refine ⟨result, hresult, fun fit hfit => ?_⟩
      obtain ⟨o, ho⟩ := haccept fit hfit
      exact wellFormed_of_accept hsign ho
  · simp only [hregion]
    exact hasked

/-- A minimiser that always ends with the same parameters: a Gaussian across the island, with a
negative axis and beyond a turn. -/
def hasty : Minimiser Float := fun _ _ =>
  .ok ⟨[8.0, 0.0, 1.0, -1.0, 2.0, 7.0], true, 1, 0.5, "hasty"⟩

/-- The Gaussian is accepted, and makes sense. -/
theorem ofIsland_wellFormed_hasty : (0 : Int) ≤ 1 ∧ corner.box.Inside 4 3 ∧
    (corner.sign = 1 ∨ corner.sign = -1) ∧ (∀ problem start, Answers (hasty problem start)) ∧
    ∃ box fit, corner.box.padded 1 4 3 = .ok box ∧
      ofIsland hasty .analytic 1 holed (some neighboured) 0.0 corner = .ok (.ok fit) ∧
      WellFormed box corner.sign fit := by
  have hinside : corner.box.Inside 4 3 := ⟨by decide, by decide, by decide, by decide⟩
  have hsign : corner.sign = 1 ∨ corner.sign = -1 := .inl rfl
  have hanswers (problem : Residuals Float) (start : List Float) :
      Answers (hasty problem start) := .inr ⟨_, rfl, rfl⟩
  obtain ⟨box, hbox, hall, -⟩ := ofIsland_wellFormed .analytic (by decide : (0 : Int) ≤ 1) holed
    (some neighboured) 0.0 hinside hsign
  obtain ⟨result, hresult, hfit⟩ := hall hasty hanswers
  have haccepted : (match ofIsland hasty .analytic 1 holed (some neighboured) 0.0 corner with
      | .ok (.ok _) => true
      | _ => false) = true := by decide +kernel
  rw [hresult] at haccepted
  cases result with
  | error failure => cases haccepted
  | ok fit => exact ⟨by decide, hinside, hsign, hanswers, box, fit, hbox, hresult, hfit fit rfl⟩

end Fit
end SkySources
