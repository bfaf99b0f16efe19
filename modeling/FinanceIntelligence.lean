import FinanceIntelligence.Transaction
import FinanceIntelligence.RelyGuarantee
import FinanceIntelligence.Binary64
import FinanceIntelligence.Regex
import FinanceIntelligence.QualityGate
import FinanceIntelligence.AnalysisStore
import FinanceIntelligence.ClaimAuthority
import FinanceIntelligence.ClarificationService
import FinanceIntelligence.OrchestratorEngine
import FinanceIntelligence.AnalysisCalls
import FinanceIntelligence.AnalysisDiscipline
import FinanceIntelligence.JobTransaction
import FinanceIntelligence.EngineSafe
import FinanceIntelligence.CallsSafe
import FinanceIntelligence.EventLog
import FinanceIntelligence.TerminalStatus
import FinanceIntelligence.Fencing
import FinanceIntelligence.JobLease
import FinanceIntelligence.NumericGate
import FinanceIntelligence.RequestNormalizer
import FinanceIntelligence.UnderstoodRequest
import FinanceIntelligence.FactReview
import FinanceIntelligence.VersionChain
import FinanceIntelligence.ReviewDiscipline
import FinanceIntelligence.ReviewSafe
import FinanceIntelligence.CleanExceptions
import FinanceIntelligence.ReviewRuns
import FinanceIntelligence.ClarificationLifecycle
import FinanceIntelligence.EndAnnounced
import FinanceIntelligence.AttemptsAgree
import FinanceIntelligence.ClarificationDeadlock
import FinanceIntelligence.ClarificationAnswer
import FinanceIntelligence.IngestionStore
import FinanceIntelligence.IngestionWorker
import FinanceIntelligence.IngestionDiscipline
import FinanceIntelligence.IngestionSafe
import FinanceIntelligence.IngestionRuns
import FinanceIntelligence.IngestionAttempts
import FinanceIntelligence.QueueProgress
import FinanceIntelligence.LeaseRecovery
import FinanceIntelligence.MaintenanceWorker
import FinanceIntelligence.MaintenanceRuns
import FinanceIntelligence.Observations
import FinanceIntelligence.AnalysisCreation
import FinanceIntelligence.PromptTransmission
import FinanceIntelligence.PyText
import FinanceIntelligence.TenantGate
import FinanceIntelligence.EventStream
import FinanceIntelligence.EventAttribution
import FinanceIntelligence.ResumeStore
import FinanceIntelligence.AnalysisController
import FinanceIntelligence.StepRuns
import FinanceIntelligence.Numbering
import FinanceIntelligence.ControllerTerminal
import FinanceIntelligence.ControllerStream
import FinanceIntelligence.ControllerEvents
import FinanceIntelligence.ControllerStore
import FinanceIntelligence.ComparisonRequest
import FinanceIntelligence.DecimalArithmetic
import FinanceIntelligence.NumberParsing
import FinanceIntelligence.CandidateCreation
import FinanceIntelligence.Datetime
import FinanceIntelligence.CommandEnvelope
import FinanceIntelligence.TransactionTrace
import FinanceIntelligence.CommandClaims
import FinanceIntelligence.EvidenceLineage
import FinanceIntelligence.ReferenceCounts
import FinanceIntelligence.CalculationCalls
import FinanceIntelligence.CalculationRuns
import FinanceIntelligence.Alone
import FinanceIntelligence.CalculationAlone
import FinanceIntelligence.CircuitBreaker
import FinanceIntelligence.DocumentContext
import FinanceIntelligence.ReportingPeriods
import FinanceIntelligence.XlsxArchive
import FinanceIntelligence.FigureGrammar
import FinanceIntelligence.PrintedAmounts
import FinanceIntelligence.CandidateCurrency
import FinanceIntelligence.TabularParsers
import FinanceIntelligence.CalculationAgain
import FinanceIntelligence.CalculationLookups
import FinanceIntelligence.UnrelatedFacts
import FinanceIntelligence.ComparisonCells
import FinanceIntelligence.ComparisonQuality
import FinanceIntelligence.DecimalRounding
import FinanceIntelligence.ComparisonCompleteness
import FinanceIntelligence.ComparisonPages
import FinanceIntelligence.ComparisonRanking
import FinanceIntelligence.Annualization
import FinanceIntelligence.FormulaInputs
import FinanceIntelligence.LocaleMirror
import FinanceIntelligence.DecimalCharacters
import FinanceIntelligence.LoneComma
import FinanceIntelligence.LabelLookup
import FinanceIntelligence.ComparisonReadBack
import FinanceIntelligence.ComparisonBasis
import FinanceIntelligence.CandidateRaces
import FinanceIntelligence.CompleteFigures
import FinanceIntelligence.MetricResolution
import FinanceIntelligence.NextFit
import FinanceIntelligence.ReadingBatches
import FinanceIntelligence.ValueLocator
import FinanceIntelligence.NumberScanner
import FinanceIntelligence.GroupPatterns
import FinanceIntelligence.PeriodExpression
import FinanceIntelligence.PeriodSafety
import FinanceIntelligence.ListedPeriods
import FinanceIntelligence.FailingClosed
import FinanceIntelligence.FilingPeriods
import FinanceIntelligence.CalculationBackfill
import FinanceIntelligence.CharacterLimit
import FinanceIntelligence.CsvEncoding
import FinanceIntelligence.CsvGrid
import FinanceIntelligence.ExemptPlaces
import FinanceIntelligence.Replacement
import FinanceIntelligence.UntrustedContent
import FinanceIntelligence.EditScripts
import FinanceIntelligence.Redaction
import FinanceIntelligence.RedactionPasses
import FinanceIntelligence.SecretLeaks
import FinanceIntelligence.AuthContext
import FinanceIntelligence.FactReviewQueue
import FinanceIntelligence.LocalStorage
import FinanceIntelligence.Onboarding
import FinanceIntelligence.RequestAuthority
import FinanceIntelligence.UploadStreams
