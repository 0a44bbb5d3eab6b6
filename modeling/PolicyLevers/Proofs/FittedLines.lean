import PolicyLevers.Projection.Baseline
import PolicyLevers.Proofs.NeutralNumbers

/-!
# Fitted lines

The line through some observations is the one of least squares: it goes through their means, and its slope is how
far their values vary with their years.  One observation alone says nothing about the slope, so its line is level.
-/

namespace PolicyLevers

set_option autoImplicit false

open Decimal

def sumOver (points : List Observation) (term : Observation → Float) : Float :=
  points.foldl (fun sum point => sum + term point) (-0.0)

/-- The line has the slope and the height of least squares.  Observations that all fall on the mean of their years
leave no slope. -/
structure Line.Fits (line : Line) (points : List Observation) (meanYear meanValue : Float) : Prop where
  years : meanYear = sumOver points Observation.year / Float.ofNat points.length
  values : meanValue = sumOver points Observation.value / Float.ofNat points.length
  level : (sumOver points (fun point => (point.year - meanYear) * (point.year - meanYear)) == 0.0) = true →
    line.slope = 0.0
  sloping : (sumOver points (fun point => (point.year - meanYear) * (point.year - meanYear)) == 0.0) = false →
    line.slope = sumOver points (fun point => (point.year - meanYear) * (point.value - meanValue)) /
      sumOver points (fun point => (point.year - meanYear) * (point.year - meanYear))
  intercept : line.intercept = meanValue - line.slope * meanYear

theorem total_terms (points : List Observation) (term : Observation → Float) :
    total (points.map term) = sumOver points term :=
  List.foldl_map

theorem fit_fits (points : List Observation) :
    ∃ meanYear meanValue, (Line.fit points).Fits points meanYear meanValue := by
  refine ⟨_, _, rfl, rfl, fun still => ?_, fun varied => ?_, ?_⟩
  · simp only [Line.fit, total_terms, still, if_true]
  · simp only [Line.fit, total_terms, varied, Bool.false_eq_true, if_false]
  · simp only [Line.fit, total_terms]

theorem Line.Fits.unique {line other : Line} {points : List Observation}
    {meanYear meanValue otherYear otherValue : Float} (fits : line.Fits points meanYear meanValue)
    (also : other.Fits points otherYear otherValue) : line = other := by
  obtain ⟨rfl, rfl, level, sloping, height⟩ := fits
  obtain ⟨rfl, rfl, otherLevel, otherSloping, otherHeight⟩ := also
  have slope : line.slope = other.slope := by
    generalize sumOver points (fun point => (point.year - _) * (point.year - _)) = spread at *
    cases still : spread == 0.0 with
    | true => rw [level still, otherLevel still]
    | false => rw [sloping still, otherSloping still]
  obtain ⟨intercept, _⟩ := line
  obtain ⟨otherIntercept, _⟩ := other
  dsimp only at slope height otherHeight
  rw [height, otherHeight, slope]

theorem at_fitted_iff {points : List Observation} {year value : Float} :
    value = (Line.fit points).at year ↔ ∃ line meanYear meanValue,
      Line.Fits line points meanYear meanValue ∧ value = line.intercept + line.slope * year := by
  obtain ⟨meanYear, meanValue, fitted⟩ := fit_fits points
  constructor
  · rintro rfl
    exact ⟨_, meanYear, meanValue, fitted, rfl⟩
  · rintro ⟨line, otherYear, otherValue, fits, rfl⟩
    rw [fits.unique fitted]
    rfl

theorem sum_over_one (point : Observation) (term : Observation → Float) :
    sumOver [point] term = term point :=
  negative_zero_add (term point)

/-- The line of a single observation stays at its value in every year; a zero may change its sign. -/
theorem Line.Fits.single {line : Line} {year value meanYear meanValue : Float}
    (fits : line.Fits [⟨year, value⟩] meanYear meanValue) (dated : year.isFinite = true) :
    line.slope = 0.0 ∧ ∀ later : Float, later.isFinite = true →
      AlikeButZeros (line.intercept + line.slope * later) value := by
  obtain ⟨years, values, level, _, height⟩ := fits
  have one : Float.ofNat 1 = 1.0 := by decide +kernel
  rw [sum_over_one, List.length_singleton, one, over_one] at years values
  rw [years] at level height
  -- the mean of the years is the only year, so there is no spread and with it no slope
  have spread : (sumOver [⟨year, value⟩]
      (fun point : Observation => (point.year - year) * (point.year - year)) == 0.0) = true := by
    rw [sum_over_one, subtracted_from_itself dated]
    rfl
  have flat := level spread
  refine ⟨flat, fun later counted => ?_⟩
  have zero : ((0.0 : Float) == 0.0) = true := rfl
  have away := zero_times zero dated
  have gained := zero_times zero counted
  rw [height, flat, values]
  cases visible : value == 0.0 with
  | true => exact .inr ⟨add_zeros (sub_zeros visible away) gained, visible⟩
  | false =>
      rw [number_sub_zero away visible, number_add_zero gained visible]
      exact .inl rfl

end PolicyLevers
