import SkySources.Settings.Reader
import SkySources.Median
import SkySources.Solver

/-!
# Settings of a search

How sources are searched for in one image. Every setting has a name and a
default. The settings are typed: what a file or a command line gives is checked
when it is read, kinds first and choices last.
-/

namespace SkySources

/-- The settings of a search. -/
structure SearchSettings where
  /-- The threshold of detection, in deviations of the background. -/
  detection : Quantity := .float 5.0
  /-- The threshold of the analysis, in deviations of the background. -/
  analysis : Quantity := .float 3.0
  /-- The deviation of the background, if it is not to be estimated. -/
  rms : Option Quantity := none
  /-- Whether islands below the background count as well. -/
  negatives : Bool := true
  /-- The most rounds of clipping. -/
  clipRounds : Count := .whole 5
  /-- The limit of clipping, in deviations from the median. -/
  clipLimit : Quantity := .float 3.0
  /-- How medians are found. -/
  median : Median.Method := .exact
  /-- The number of bins of a binned median. -/
  bins : Count := .whole 1000
  /-- Whether barycentres are found. -/
  barycentre : Bool := true
  /-- Whether Gaussians are fitted. -/
  fitting : Bool := false
  /-- The number of neighbours of a pixel. -/
  connectivity : Count := .whole 4
  /-- Whether the label map and the masks are kept. -/
  labelMap : Bool := false
  /-- The fewest pixels of an island. -/
  minArea : Count := .whole 1
  /-- How the derivatives of a fit are found. -/
  differencing : Differencing := .analyticSingleBlock
  /-- How a fit is found. -/
  solver : Solver := .trustRegion
  /-- By how many pixels the box of an island is grown for its fit. -/
  margin : Count := .whole 0
  /-- The most rounds of a fit. -/
  rounds : Count := .whole 200
  /-- How many fits are made at the same time, if that is set. -/
  workers : Option Count := none
  /-- Whether every stage reports. -/
  debug : Bool := false

namespace SearchSettings

/-- The values of the settings by their names. -/
def toTable (s : SearchSettings) : Table :=
  [("detection_n_sigma", s.detection.toValue),
    ("analysis_n_sigma", s.analysis.toValue),
    ("rms_estimate", (s.rms.map Quantity.toValue).getD .nothing),
    ("find_negative_sources", .truth s.negatives),
    ("sigma_clip_iters", s.clipRounds.toValue),
    ("clip_n_sigma", s.clipLimit.toValue),
    ("median_method", .text s.median.name),
    ("binapprox_bins", s.bins.toValue),
    ("compute_barycentre", .truth s.barycentre),
    ("gaussian_fitting", .truth s.fitting),
    ("connectivity", s.connectivity.toValue),
    ("generate_labelmap", .truth s.labelMap),
    ("source_min_area", s.minArea.toValue),
    ("diff_method", .text s.differencing.name),
    ("solver_type", .text s.solver.name),
    ("fit_margin", s.margin.toValue),
    ("max_iterations", s.rounds.toValue),
    ("nr_threads", (s.workers.map Count.toValue).getD .nothing),
    ("debug", .truth s.debug)]

/-- The names of the settings. -/
def names : List String := (toTable {}).names

/-- The settings that a table gives for some that it changes. A text for a choice
is looked at when all kinds are known to be right. -/
def changed (s : SearchSettings) (t : Table) : Except Mismatch SearchSettings := do
  let detection ← t.quantity "detection_n_sigma" s.detection
  let analysis ← t.quantity "analysis_n_sigma" s.analysis
  let rms ← t.quantityOrAbsent "rms_estimate" s.rms
  let negatives ← t.truth "find_negative_sources" s.negatives
  let clipRounds ← t.count "sigma_clip_iters" s.clipRounds
  let clipLimit ← t.quantity "clip_n_sigma" s.clipLimit
  let median ← t.text "median_method" s.median.name
  let bins ← t.count "binapprox_bins" s.bins
  let barycentre ← t.truth "compute_barycentre" s.barycentre
  let fitting ← t.truth "gaussian_fitting" s.fitting
  let connectivity ← t.count "connectivity" s.connectivity
  let labelMap ← t.truth "generate_labelmap" s.labelMap
  let minArea ← t.count "source_min_area" s.minArea
  let differencing ← t.text "diff_method" s.differencing.name
  let solver ← t.text "solver_type" s.solver.name
  let margin ← t.count "fit_margin" s.margin
  let rounds ← t.count "max_iterations" s.rounds
  let workers ← t.countOrAbsent "nr_threads" s.workers
  let debug ← t.truth "debug" s.debug
  let median ← Table.choose "median_method" median Median.Method.all Median.Method.name
  let differencing ← Table.choose "diff_method" differencing Differencing.all Differencing.name
  let solver ← Table.choose "solver_type" solver Solver.all Solver.name
  return {
    detection, analysis, rms, negatives, clipRounds, clipLimit, median, bins, barycentre, fitting,
    connectivity, labelMap, minArea, differencing, solver, margin, rounds, workers, debug }

/-- The settings that a table gives; the others have their defaults. -/
def ofTable? (t : Table) : Except SectionFault SearchSettings := t.read names (changed {} t)

end SearchSettings
end SkySources
