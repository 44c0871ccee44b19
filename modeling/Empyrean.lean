import Empyrean.Theory.Runs
import Empyrean.Theory.Expiry
import Empyrean.Theory.RowStore
import Empyrean.Theory.PyNumeral
import Empyrean.Theory.SlidingWindow
import Empyrean.Theory.GroupBy
import Empyrean.Theory.Rounding
import Empyrean.Theory.Custody
import Empyrean.Theory.Csv
import Empyrean.Theory.CacheAside
import Empyrean.Theory.Strengths
import Empyrean.Theory.BoundedDeque
import Empyrean.Theory.PartialUpdate
import Empyrean.Theory.DistinctOn
import Empyrean.Theory.PyDict
import Empyrean.Theory.OrderBy
import Empyrean.Theory.Buckets
import Empyrean.Theory.Paging
import Empyrean.Theory.RowNumber
import Empyrean.Theory.Losses
import Empyrean.Auth.Tables
import Empyrean.Auth.Handlers
import Empyrean.Auth.Devices
import Empyrean.Auth.Requests
import Empyrean.Auth.Ownership
import Empyrean.Auth.Rotation
import Empyrean.Auth.CredentialChange
import Empyrean.Auth.ResetTokens
import Empyrean.Auth.Redemption
import Empyrean.Auth.ResetLinks
import Empyrean.Auth.AccessToken
import Empyrean.Auth.UserCache
import Empyrean.Auth.Profile
import Empyrean.Auth.ProfileReads
import Empyrean.Admin.Settings
import Empyrean.Admin.Holding
import Empyrean.Admin.Thresholds
import Empyrean.Admin.AuditTrail
import Empyrean.Admin.Readers
import Empyrean.Alerts.Upsert
import Empyrean.Alerts.OneOpen
import Empyrean.Alerts.Escalation
import Empyrean.Alerts.Acknowledgement
import Empyrean.Alerts.LatestAqi
import Empyrean.Alerts.Listing
import Empyrean.Ingest.Tables
import Empyrean.Ingest.ParseTime
import Empyrean.Ingest.Fuzzy
import Empyrean.Ingest.Aqi
import Empyrean.Ingest.Worker
import Empyrean.Ingest.Delivery
import Empyrean.Ingest.AqiOrder
import Empyrean.Ingest.FuzzyPartition
import Empyrean.Ingest.FuzzyOrder
import Empyrean.Ingest.FuzzyMix
import Empyrean.Ingest.FuzzyMoves
import Empyrean.Ingest.FuzzyDip
import Empyrean.Rollup.Aggregation
import Empyrean.Rollup.Exact
import Empyrean.Rollup.Retention
import Empyrean.Rollup.RefreshTokenCleanup
import Empyrean.Rollup.Sweeps
import Empyrean.Broker.CircuitBreaker
import Empyrean.Broker.CircuitWindow
import Empyrean.Mqtt.Drain
import Empyrean.Mqtt.DrainDeadline
import Empyrean.Mqtt.Subscriptions
import Empyrean.Mqtt.Publisher
import Empyrean.Mqtt.PublishErrors
import Empyrean.Mqtt.RetryInterrupted
import Empyrean.Mqtt.NodeRateLimit
import Empyrean.Mqtt.OnMessage
import Empyrean.Ingest.Provenance
import Empyrean.Fleet.Nodes
import Empyrean.Fleet.DeviceConfig
import Empyrean.Fleet.Snapshots
import Empyrean.Fleet.Registrations
import Empyrean.Forecast.Regression
import Empyrean.Forecast.BulkTraining
import Empyrean.Forecast.Retraining
import Empyrean.Forecast.Horizon
import Empyrean.Api.RateLimit
import Empyrean.Api.PartialUpdates
import Empyrean.Api.RangeParams
import Empyrean.Api.CsvExport
import Empyrean.Api.History
import Empyrean.Api.AlertSockets
import Empyrean.Api.Broadcast
import Empyrean.Theory.UniqueRows
import Empyrean.Rollup.Accounts
import Empyrean.Rollup.Anonymisation
import Empyrean.Theory.ReadThrough
import Empyrean.Api.CacheAge
import Empyrean.Theory.TopicFilter
import Empyrean.Mqtt.Topics
import Empyrean.Api.Burst
import Empyrean.Theory.Handover
import Empyrean.Alerts.Emails
import Empyrean.Theory.PrefixCode
import Empyrean.Api.KeySpace
import Empyrean.Api.ExportCooldown
import Empyrean.Theory.Unwinding
import Empyrean.Ingest.Isolation
import Empyrean.Theory.Spread
import Empyrean.Ingest.Anomaly
