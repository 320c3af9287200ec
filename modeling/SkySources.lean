import SkySources.Main
import SkySources.SkipRule
import SkySources.Synthetic
import SkySources.Value.KindText
import SkySources.Proofs.Component.Search
import SkySources.Proofs.Component.Numbering
import SkySources.Proofs.Component.Labels
import SkySources.Proofs.Island.Census
import SkySources.Proofs.Island.Found
import SkySources.Proofs.Double
import SkySources.Proofs.Survey.Outcome
import SkySources.Proofs.Survey.Accepted
import SkySources.Proofs.Survey.Agreement
import SkySources.Proofs.Survey.Area
import SkySources.Proofs.Survey.Switches
import SkySources.Proofs.Exact
import SkySources.Proofs.Mirror.Background
import SkySources.Proofs.Mirror.Marks
import SkySources.Proofs.Mirror.Island
import SkySources.Proofs.Mirror.Survey
import SkySources.Proofs.Double.Order
import SkySources.Proofs.Double.Rounding
import SkySources.Proofs.Double.Arithmetic
import SkySources.Proofs.Double.Whole
import SkySources.Proofs.Level
import SkySources.Proofs.Quantity
import SkySources.Proofs.Island.Renumbered
import SkySources.Proofs.Survey.Hysteresis
import SkySources.Proofs.Component.Coarser
import SkySources.Proofs.Island.Merging
import SkySources.Proofs.Frame.Grid
import SkySources.Proofs.Frame.Component
import SkySources.Proofs.Frame.Island
import SkySources.Proofs.Frame.Survey
import SkySources.Proofs.Double.Difference
import SkySources.Proofs.Survey.Discipline
import SkySources.Proofs.Survey.Completion
import SkySources.Proofs.Estimate
import SkySources.Proofs.Unit.Scale
import SkySources.Proofs.Unit.Background
import SkySources.Proofs.Unit.Survey
import SkySources.Proofs.Store
import SkySources.Proofs.Run.Steps
import SkySources.Proofs.Run.File
import SkySources.Proofs.Run.Exports
import SkySources.Proofs.Fit.Isolation
import SkySources.Proofs.Residuals.Blocks
import SkySources.Proofs.Residuals.Methods
import SkySources.Proofs.Settings.Schema
import SkySources.Proofs.Settings.Document
import SkySources.Proofs.CommandLine.Reads
import SkySources.Proofs.CommandLine.Layout
import SkySources.Proofs.CommandLine.Options
import SkySources.Proofs.CommandLine.Precedence
import SkySources.Proofs.Clipping.Rounds
import SkySources.Proofs.Clipping.Budget
import SkySources.Proofs.Moments
import SkySources.Proofs.Median
import SkySources.Proofs.Clipping.Kept
import SkySources.Proofs.Clipping.Deviation
import SkySources.Proofs.Clipping.Outlier
import SkySources.Proofs.Clipping.Rearranged
import SkySources.Proofs.Median.Binned
import SkySources.Proofs.Median.Accuracy
import SkySources.Proofs.Island.Outline
import SkySources.Proofs.Gaussian.Height
import SkySources.Proofs.Gaussian.Slopes
import SkySources.Proofs.Fit.Angle
import SkySources.Proofs.Fit.Canonical
import SkySources.Proofs.Fit.Margin
import SkySources.Proofs.Fit.Start
import SkySources.Proofs.Island.Barycentre
import SkySources.Proofs.Double.Sum
import SkySources.Proofs.Double.Magnitude
import SkySources.Proofs.Fit.Range
import SkySources.Proofs.Fit.Acceptance
import SkySources.Proofs.Residuals.Objective
import SkySources.Proofs.Gaussian.Axes
import SkySources.Proofs.Count
import SkySources.Proofs.Fit.Problem
import SkySources.Proofs.Plane
import SkySources.Proofs.Decimal
import SkySources.Proofs.Catalogue
import SkySources.Proofs.Word
import SkySources.Proofs.Settings.Absent
