import AgentVoice.Foundations.FixedWidth
import AgentVoice.Foundations.Gregorian
import AgentVoice.Foundations.Rfc3339
import AgentVoice.Foundations.EarlyExit
import AgentVoice.Foundations.FirstElements
import AgentVoice.Foundations.HalfOpen
import AgentVoice.Availability.Policy
import AgentVoice.Foundations.Text
import AgentVoice.Availability.Busy
import AgentVoice.Availability.Slots
import AgentVoice.Availability.Specification
import AgentVoice.Availability.Recheck
import AgentVoice.Foundations.Result
import AgentVoice.Foundations.Transaction
import AgentVoice.Store.Error
import AgentVoice.Store.ReplayNonces
import AgentVoice.Auth.ReplayGuard
import AgentVoice.Auth.Request
import AgentVoice.Auth.ReplaySafety
import AgentVoice.Foundations.Machine
import AgentVoice.Foundations.Table
import AgentVoice.Domain.Values
import AgentVoice.Store.Columns
import AgentVoice.Store.Schema
import AgentVoice.Foundations.IdempotentInsert
import AgentVoice.Store.Proposals
import AgentVoice.Store.EventMappings
import AgentVoice.Store.ComparisonKey
import AgentVoice.Store.NotificationRows
import AgentVoice.Store.Notifications
import AgentVoice.Store.NotificationEffects
import AgentVoice.Store.Audit
import AgentVoice.Store.Messages
import AgentVoice.Store.Tasks
import AgentVoice.Domain.Drafts
import AgentVoice.Store.AppointmentDrafts
import AgentVoice.Store.AppointmentQuotes
import AgentVoice.Store.OwnerTasks
import AgentVoice.Store.QuoteEffects
import AgentVoice.Store.OwnerTaskEffects
import AgentVoice.Store.Commands
import AgentVoice.Store.Consistency
import AgentVoice.Store.Effects
import AgentVoice.Foundations.CompareAndSet
import AgentVoice.Store.ProviderCursors
import AgentVoice.Foundations.Lifecycle
import AgentVoice.Store.Lifecycles
import AgentVoice.Store.InsertLaws
import AgentVoice.RealtimeVoice.QueuedAudio
import AgentVoice.RealtimeVoice.BargeIn
import AgentVoice.Accounting.Usage
import AgentVoice.Foundations.Json
import AgentVoice.RealtimeVoice.EventMapper
import AgentVoice.RealtimeVoice.Session
import AgentVoice.RealtimeVoice.Transcripts
import AgentVoice.RealtimeVoice.StaleAudio
import AgentVoice.Foundations.Lines
import AgentVoice.SherpaOnnx.BridgeProcess
import AgentVoice.SherpaOnnx.Pairing
import AgentVoice.Service.Playback
import AgentVoice.Foundations.Saga
import AgentVoice.PaService.RecordMessage
import AgentVoice.PaService.Service
import AgentVoice.Providers.Values
import AgentVoice.Store.InsertedRows
import AgentVoice.Store.Standing
import AgentVoice.PaService.Resumption
import AgentVoice.Store.Delivery
import AgentVoice.Store.EnqueueRetry
import AgentVoice.Store.TaskRetry
import AgentVoice.Domain.Chrono
import AgentVoice.Foundations.Bytes
import AgentVoice.Foundations.JsonText
import AgentVoice.Backup.Envelope
import AgentVoice.Backup.Metadata
import AgentVoice.Backup.FileSystem
import AgentVoice.Foundations.Program
import AgentVoice.Backup.Writer
import AgentVoice.Backup.WriterSafety
import AgentVoice.Admin.Configuration
import AgentVoice.Admin.ConfigStore
import AgentVoice.Store.TokenCipher
import AgentVoice.Store.OAuthCredentials
import AgentVoice.Store.OAuthHistory
import AgentVoice.Foundations.Base64Url
import AgentVoice.OAuth.Start
import AgentVoice.OAuth.Reservations
import AgentVoice.Auth.GuardEquivalence
import AgentVoice.Foundations.ExpiringSet
import AgentVoice.Http.HmacAdmission
import AgentVoice.Foundations.JsonKeys
import AgentVoice.Realtime.Fields
import AgentVoice.Realtime.Values
import AgentVoice.Realtime.SessionEvents
import AgentVoice.Realtime.TakenEvents
import AgentVoice.Realtime.Events
import AgentVoice.Realtime.ParserAgreement
import AgentVoice.Realtime.DecoderAgreement
import AgentVoice.Store.ClaimOrder
import AgentVoice.Store.DraftDeletion
import AgentVoice.Store.PendingOrder
import AgentVoice.Foundations.JsonWriter
import AgentVoice.Realtime.ClientEvents
import AgentVoice.Realtime.Serialization
import AgentVoice.Realtime.RoundTrip
import AgentVoice.Foundations.AsciiText
import AgentVoice.Callers.Access
import AgentVoice.Callers.CallerId
import AgentVoice.Callers.Persistence
import AgentVoice.Callers.PhoneBook
import AgentVoice.Turns.Classification
import AgentVoice.Turns.MatchText
import AgentVoice.Turns.CallerUpdates
import AgentVoice.Turns.EndCall
import AgentVoice.Turns.Turn
import AgentVoice.Turns.EmailConfirmation
import AgentVoice.Turns.Chaining
import AgentVoice.Store.Migrations
import AgentVoice.Store.SchemaMigrations
import AgentVoice.Store.OutboxMigration
import AgentVoice.Availability.MergedBusy
import AgentVoice.Audio.MuLaw
import AgentVoice.Audio.Wav
import AgentVoice.Foundations.LittleEndian
import AgentVoice.Audio.StreamingWav
import AgentVoice.Audio.Resample
import AgentVoice.Auth.Signing
import AgentVoice.Foundations.Separators
import AgentVoice.Foundations.Percent
import AgentVoice.SigV4.PercentEncoding
import AgentVoice.SigV4.CanonicalRequest
import AgentVoice.SigV4.Query
import AgentVoice.SigV4.HeaderNormalization
import AgentVoice.SigV4.NormalForm
import AgentVoice.Accounting.CallSummary
import AgentVoice.Foundations.SortedMap
import AgentVoice.Foundations.Base64
import AgentVoice.Realtime.AudioText
import AgentVoice.Accounting.Billing
import AgentVoice.Accounting.Catalog
import AgentVoice.Accounting.CsvRows
import AgentVoice.Accounting.PricingPage
import AgentVoice.Accounting.PricingRefresh
import AgentVoice.Callers.Stability
import AgentVoice.Foundations.Csv
import AgentVoice.Foundations.SpacedText
import AgentVoice.Foundations.Stretches
import AgentVoice.PaService.OwnerVerification
import AgentVoice.Service.CallEnd
import AgentVoice.Service.TtsSegments
import AgentVoice.Service.TurnDetector
import AgentVoice.Turns.Farewells
import AgentVoice.Turns.TurnPlan
import AgentVoice.Foundations.SqlText
import AgentVoice.PaService.SubmissionTime
import AgentVoice.Store.ColumnChecks
import AgentVoice.Availability.Windows
import AgentVoice.Callers.Merge
import AgentVoice.Config.BackupPolicy
import AgentVoice.Config.YamlEvents
import AgentVoice.Config.YamlTree
import AgentVoice.Foundations.Uri
import AgentVoice.Store.ImmutableUri
import AgentVoice.Store.QuoteHistory
import AgentVoice.Store.QuoteLifecycle
import AgentVoice.PaService.PreparedRequest
import AgentVoice.PaService.OwnerTaskAdmission
import AgentVoice.PaService.OwnerTasks
import AgentVoice.Providers.CalendarEvents
import AgentVoice.Store.PlacementHistory
import AgentVoice.PaService.OwnerTaskSubmission
import AgentVoice.Admin.Snapshot
import AgentVoice.Admin.SnapshotReads
import AgentVoice.Store.ProposalRows
import AgentVoice.Availability.Soundness
import AgentVoice.Backup.Source
import AgentVoice.Backup.SourceSafety
import AgentVoice.Foundations.Paging
import AgentVoice.Foundations.SagaQuestions
import AgentVoice.PaService.Booking
import AgentVoice.PaService.ClashFree
import AgentVoice.PaService.RequestSubmission
import AgentVoice.PaService.SharedCalendars
import AgentVoice.PaService.SlotSearch
import AgentVoice.PaService.SubmissionConvergence
import AgentVoice.PaService.SubmissionStages
import AgentVoice.PaService.SubmittedRows
import AgentVoice.Store.Listings
import AgentVoice.Store.QuoteOrigins
import AgentVoice.Service.RealtimeTranscript
import AgentVoice.Service.RtpStream
