import PolicyLevers.Lever.Debouncer
import PolicyLevers.Main
import PolicyLevers.Projection.WorkerSystem
import PolicyLevers.Proofs.EarliestFailure
import PolicyLevers.Proofs.AtomicStatements
import PolicyLevers.Proofs.ParserRules
import PolicyLevers.Proofs.ScannedWords
import PolicyLevers.Proofs.ScriptPrinting
import PolicyLevers.Proofs.WorkerHistory
import PolicyLevers.Proofs.NestingHeight
import PolicyLevers.Proofs.PrintedWords
import PolicyLevers.Proofs.PrintedExpressions
import PolicyLevers.Proofs.PrintedScripts
import PolicyLevers.Proofs.DoubleParts
import PolicyLevers.Proofs.StateLocations
import PolicyLevers.Proofs.ProgramEffects
import PolicyLevers.Proofs.RegistryHistory
import PolicyLevers.Proofs.GrammarMatching
import PolicyLevers.Proofs.JoinedScans
import PolicyLevers.Proofs.JoinedScripts
import PolicyLevers.Proofs.EvaluatedParts
import PolicyLevers.Proofs.IndependentYears
import PolicyLevers.Proofs.RandomInfluence
import PolicyLevers.Proofs.DirectInterpretation
import PolicyLevers.Proofs.UniformWidths
import PolicyLevers.Proofs.Breakdowns
import PolicyLevers.Proofs.LeverIsolation
import PolicyLevers.Proofs.RollupLaws
import PolicyLevers.Proofs.WrittenBaselines
import PolicyLevers.Proofs.DocumentRoundTrips
import PolicyLevers.Proofs.LeverChecks
import PolicyLevers.Proofs.BaselineYears
import PolicyLevers.Proofs.CompactLabels
import PolicyLevers.Proofs.NumberTexts
import PolicyLevers.Proofs.RespacedScripts
import PolicyLevers.Proofs.PathResolution
import PolicyLevers.Proofs.DebouncerHistory
import PolicyLevers.Proofs.DistributedShares
import PolicyLevers.Proofs.OperatorChains
import PolicyLevers.Proofs.NestingLimits
import PolicyLevers.Proofs.ReportedPlaces
import PolicyLevers.Proofs.NeutralNumbers
import PolicyLevers.Proofs.NormalizedShares
import PolicyLevers.Proofs.FaultPlaces
import PolicyLevers.Proofs.GivenInputs
import PolicyLevers.Proofs.RunningTotals
import PolicyLevers.Proofs.IndexedRecords
import PolicyLevers.Proofs.YearRamps
import PolicyLevers.Proofs.LimitedNumbers
import PolicyLevers.Proofs.RecordLines
import PolicyLevers.Proofs.RepeatedBodies
