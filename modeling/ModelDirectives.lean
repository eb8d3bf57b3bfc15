import ModelDirectives.Document.Writing
import ModelDirectives.Main
import ModelDirectives.Model.Growth
import ModelDirectives.Proofs.CommandRuns
import ModelDirectives.Proofs.DocumentReports
import ModelDirectives.Proofs.Grammar
import ModelDirectives.Proofs.LookupOutcomes
import ModelDirectives.Proofs.RoundTrip
import ModelDirectives.Proofs.Scanning
import ModelDirectives.Proofs.Tokenizing
import ModelDirectives.Proofs.Skipping
import ModelDirectives.Proofs.TreeReading
import ModelDirectives.Proofs.RecordReading
import ModelDirectives.Proofs.ReportTexts
import ModelDirectives.Proofs.ReportCoverage
import ModelDirectives.Proofs.Paths
import ModelDirectives.Proofs.ReportGrowth
import ModelDirectives.Proofs.OptionEffects
import ModelDirectives.Proofs.DiagnosticLines
import ModelDirectives.Proofs.Remarks
import ModelDirectives.Proofs.FirstViolation
import ModelDirectives.Proofs.ResolutionInputs
import ModelDirectives.Proofs.RepetitionPositions
import ModelDirectives.Proofs.RepetitionWarnings
import ModelDirectives.Proofs.ContextTokens
import ModelDirectives.Proofs.AnnotationHistories
import ModelDirectives.Proofs.RepeatedKeys
import ModelDirectives.Proofs.Summaries
import ModelDirectives.Proofs.TableLines
