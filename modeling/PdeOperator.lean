import PdeOperator.AnsiColours
import PdeOperator.AnsiHtml
import PdeOperator.ApiAuth
import PdeOperator.ApiReads
import PdeOperator.ApiRoutes
import PdeOperator.ArgoBackend
import PdeOperator.ArgoReadOnly
import PdeOperator.BaseDict
import PdeOperator.BaseFetch
import PdeOperator.BaseFiles
import PdeOperator.BaseForest
import PdeOperator.BaseHtml
import PdeOperator.BaseJoin
import PdeOperator.BaseJs
import PdeOperator.BaseJson
import PdeOperator.BaseJsonText
import PdeOperator.BaseJsonb
import PdeOperator.BaseLayers
import PdeOperator.BaseMarked
import PdeOperator.BaseMultipart
import PdeOperator.BaseOccurrences
import PdeOperator.BaseOrder
import PdeOperator.BasePaging
import PdeOperator.BasePath
import PdeOperator.BaseProgram
import PdeOperator.BaseSession
import PdeOperator.BaseSystem
import PdeOperator.BaseTable
import PdeOperator.BaseText
import PdeOperator.BaseUuid
import PdeOperator.Catalog
import PdeOperator.CatalogRows
import PdeOperator.CatalogRuns
import PdeOperator.ConfigImport
import PdeOperator.ConfigImportAgain
import PdeOperator.ConfigImportAtomic
import PdeOperator.CronIntervals
import PdeOperator.CronUtils
import PdeOperator.DeclarativeContract
import PdeOperator.DeclarativeDecode
import PdeOperator.DeclarativeEngine
import PdeOperator.DeclarativeFormAgreement
import PdeOperator.DeclarativeFormDisplay
import PdeOperator.DeclarativeFormRun
import PdeOperator.DeclarativeFormShows
import PdeOperator.DeclarativeFormView
import PdeOperator.DeclarativeMultiSelect
import PdeOperator.DeclarativeNotations
import PdeOperator.DeclarativeParser
import PdeOperator.DeclarativeParserErrors
import PdeOperator.DeclarativeRouting
import PdeOperator.DeclarativeSecrets
import PdeOperator.DeclarativeServer
import PdeOperator.DeclarativeStore
import PdeOperator.EditForm
import PdeOperator.EditFormFields
import PdeOperator.EditFormRoundTrip
import PdeOperator.EditFormVars
import PdeOperator.FiringClaims
import PdeOperator.FiringDisabled
import PdeOperator.FiringOverlap
import PdeOperator.FiringPreview
import PdeOperator.FiringRuns
import PdeOperator.FiringSteps
import PdeOperator.FiringSystem
import PdeOperator.FiringVersions
import PdeOperator.GitRepoCache
import PdeOperator.InputCrypto
import PdeOperator.InputCryptoEntries
import PdeOperator.InputCryptoOutline
import PdeOperator.InputCryptoRoundTrip
import PdeOperator.JobEntrypoint
import PdeOperator.JobEnv
import PdeOperator.JobHandover
import PdeOperator.JobInputs
import PdeOperator.JobLabels
import PdeOperator.JobPrepare
import PdeOperator.JobRequests
import PdeOperator.JobResources
import PdeOperator.JobResume
import PdeOperator.JobServer
import PdeOperator.JobSignals
import PdeOperator.JobTokens
import PdeOperator.LifecycleCalls
import PdeOperator.LifecycleCap
import PdeOperator.LifecycleFinish
import PdeOperator.LifecycleHistory
import PdeOperator.LifecycleJobs
import PdeOperator.LifecycleQueueCancel
import PdeOperator.LifecycleRetries
import PdeOperator.LifecycleRows
import PdeOperator.LifecycleStarts
import PdeOperator.LifecycleSteps
import PdeOperator.LifecycleSystem
import PdeOperator.LifecycleTerminal
import PdeOperator.LifecycleTracking
import PdeOperator.LifecycleUploads
import PdeOperator.PipelineLayout
import PdeOperator.PipelineLayoutPlaced
import PdeOperator.QueueFairness
import PdeOperator.QueueProgress
import PdeOperator.QueueTick
import PdeOperator.ReconcilerOutcome
import PdeOperator.ReconcilerTick
import PdeOperator.RunInputs
import PdeOperator.RunQueue
import PdeOperator.RunReconciler
import PdeOperator.RunRetention
import PdeOperator.RunRow
import PdeOperator.RunService
import PdeOperator.RunStore
import PdeOperator.RunViews
import PdeOperator.RunViewsSelected
import PdeOperator.ScheduleAnchors
import PdeOperator.ScheduleCalls
import PdeOperator.ScheduleClaim
import PdeOperator.ScheduleDispatcher
import PdeOperator.ScheduleRow
import PdeOperator.ScheduleSecretEdits
import PdeOperator.ScheduleSecrets
import PdeOperator.ScheduleService
import PdeOperator.ScheduleStore
import PdeOperator.ScheduleTick
import PdeOperator.ScheduleUpdates
import PdeOperator.Settings
import PdeOperator.StorageCleanup
import PdeOperator.StorageDeletion
import PdeOperator.StorageOrphans
import PdeOperator.StorageSystem
import PdeOperator.UiRouting
import PdeOperator.BaseHistory
import PdeOperator.UiGuards
