import ProxmoxTool.Lib.Stateful
import ProxmoxTool.Lib.Text
import ProxmoxTool.Lib.System
import ProxmoxTool.Lib.Slots
import ProxmoxTool.Lib.Rows
import ProxmoxTool.GuestAgent.Exec
import ProxmoxTool.GuestAgent.Streaming
import ProxmoxTool.Updates.Bulk
import ProxmoxTool.Updates.HostApply
import ProxmoxTool.Updates.GuestApply
import ProxmoxTool.Updates.Outcome
import ProxmoxTool.Auth.Epoch
import ProxmoxTool.Auth.Refresh
import ProxmoxTool.Auth.Sessions
import ProxmoxTool.AiTools.Handlers
import ProxmoxTool.AiTools.Chat
import ProxmoxTool.Apps.Validate
import ProxmoxTool.Apps.UpgradeLock
import ProxmoxTool.Apps.PrometheusConfig
import ProxmoxTool.Mastodon.Remote
import ProxmoxTool.Mastodon.Runtime
import ProxmoxTool.Mastodon.EnvFile
import ProxmoxTool.Mastodon.Upgrade
import ProxmoxTool.ConfigBackup.Data
import ProxmoxTool.ConfigBackup.Settings
import ProxmoxTool.ConfigBackup.Import
import ProxmoxTool.ConfigBackup.Export
import ProxmoxTool.ConfigBackup.Restore
import ProxmoxTool.ConfigBackup.Rebuild
import ProxmoxTool.ConfigBackup.RoundTrip
import ProxmoxTool.ConfigBackup.Secrets
import ProxmoxTool.Discovery.Listing
import ProxmoxTool.Discovery.Inventory
import ProxmoxTool.Discovery.Merge
import ProxmoxTool.Discovery.Links
import ProxmoxTool.Discovery.Pass
import ProxmoxTool.Discovery.Tracking
import ProxmoxTool.Discovery.AllHosts
import ProxmoxTool.Discovery.Cleanup
import ProxmoxTool.Discovery.Atomic
import ProxmoxTool.Discovery.Agree
import ProxmoxTool.Lib.Dedupe
import ProxmoxTool.Lib.Turns
import ProxmoxTool.Moderation.Settings
import ProxmoxTool.Moderation.Alerts
import ProxmoxTool.Moderation.Client
import ProxmoxTool.Moderation.Poll
import ProxmoxTool.Moderation.Effects
import ProxmoxTool.Moderation.World
import ProxmoxTool.Moderation.Posts
import ProxmoxTool.Moderation.Overlap
import ProxmoxTool.Moderation.WatchedPosts
import ProxmoxTool.Moderation.Signups
import ProxmoxTool.Moderation.NewAccounts
import ProxmoxTool.Moderation.Duplicates
import ProxmoxTool.Moderation.Welcomes
import ProxmoxTool.Moderation.Queue
import ProxmoxTool.Moderation.Polls
import ProxmoxTool.Moderation.CrossCheck
import ProxmoxTool.Moderation.Transport
import ProxmoxTool.Lib.Queue
import ProxmoxTool.Lib.Dict
import ProxmoxTool.Collaboration.Terminal
import ProxmoxTool.Collaboration.Hub
import ProxmoxTool.Lib.Utf8
import ProxmoxTool.Lib.Lines
import ProxmoxTool.Lib.Url
import ProxmoxTool.Ssh.Capture
import ProxmoxTool.Lib.Json
import ProxmoxTool.Sidekiq.RetryAll
import ProxmoxTool.Services.Alerts
import ProxmoxTool.Services.Execute
import ProxmoxTool.Lib.Sha256
import ProxmoxTool.Scans.Scan
import ProxmoxTool.Scans.Discovered
import ProxmoxTool.Scans.Notify
import ProxmoxTool.Updates.SnapshotGate
import ProxmoxTool.Auth.Users
import ProxmoxTool.Guests.Routes
import ProxmoxTool.Guests.Access
import ProxmoxTool.Moderation.Maintenance
import ProxmoxTool.Moderation.AdminClient
import ProxmoxTool.Moderation.Routes
import ProxmoxTool.Moderation.Audited
import ProxmoxTool.Moderation.StaffTargets
import ProxmoxTool.Moderation.Requests
import ProxmoxTool.Moderation.Backoff
import ProxmoxTool.Moderation.PollInterval
import ProxmoxTool.Moderation.LogPolling
import ProxmoxTool.Lib.KeyedLog
import ProxmoxTool.Moderation.DirectMessages
import ProxmoxTool.Tasks.Tracking
import ProxmoxTool.Auth.Generations
import ProxmoxTool.Lib.Window
import ProxmoxTool.Auth.RateLimit
import ProxmoxTool.Auth.Grants
import ProxmoxTool.ConfigBackup.RoleImport
import ProxmoxTool.Auth.Roles
import ProxmoxTool.ConfigBackup.RoleTiers
import ProxmoxTool.ConfigBackup.RolesAgain
import ProxmoxTool.ConfigBackup.ImportAgain
import ProxmoxTool.ConfigBackup.HostsAgain
import ProxmoxTool.ConfigBackup.GuestsAgain
import ProxmoxTool.ConfigBackup.Automation
import ProxmoxTool.ConfigBackup.SecretFlow
import ProxmoxTool.Lib.HeaderList
import ProxmoxTool.Auth.ClientIp
import ProxmoxTool.AiTools.Usage
import ProxmoxTool.Lib.Script
import ProxmoxTool.Mastodon.Commands
import ProxmoxTool.Mastodon.Protection
import ProxmoxTool.Mastodon.Stash
import ProxmoxTool.Settings.Cache
import ProxmoxTool.Auth.AdhocCredentials
import ProxmoxTool.Auth.Backfills
import ProxmoxTool.Collaboration.SudoGate
import ProxmoxTool.Mastodon.SaveSettings
import ProxmoxTool.SelfUpdate.Rollback
import ProxmoxTool.Lib.DayTime
import ProxmoxTool.Schedules.MaintenanceWindow
import ProxmoxTool.Updates.HostCheck
import ProxmoxTool.Auth.CloudflareKeys
import ProxmoxTool.SelfUpdate.AutoUpdate
import ProxmoxTool.Unifi.Events
import ProxmoxTool.Auth.LocalBypass
import ProxmoxTool.Ghost.Readings
import ProxmoxTool.Ghost.Upgrade
import ProxmoxTool.Ghost.Proven
import ProxmoxTool.Ghost.Aborted
import ProxmoxTool.Lib.Utf8Cut
import ProxmoxTool.Ssh.Streaming
import ProxmoxTool.Ssh.Drain
import ProxmoxTool.Lib.SemVer
import ProxmoxTool.Apps.VersionTags
import ProxmoxTool.Lib.SemVerRange
import ProxmoxTool.Ghost.NodeRange
import ProxmoxTool.Scans.StatusRows
import ProxmoxTool.Lib.Fields
import ProxmoxTool.Scans.AptOutput
import ProxmoxTool.Lib.Base64
import ProxmoxTool.Lib.Posix
import ProxmoxTool.Ssh.SudoWrap
import ProxmoxTool.Lib.PosixRun
import ProxmoxTool.Apps.RemoteWrite
import ProxmoxTool.Lib.RubyLex
import ProxmoxTool.Lib.PosixLogin
import ProxmoxTool.Moderation.GuestCommand
import ProxmoxTool.Moderation.StatusScript
import ProxmoxTool.Moderation.MaintenanceCommands
import ProxmoxTool.Lib.WebUrl
import ProxmoxTool.Collaboration.RelativePage
import ProxmoxTool.Lib.PromQL
import ProxmoxTool.Metrics.Selectors
import ProxmoxTool.Metrics.RangeSeries
import ProxmoxTool.Metrics.SnapshotHistory
import ProxmoxTool.Lib.PlainLine
import ProxmoxTool.Services.UnitOperands
import ProxmoxTool.Services.PlanAnalysis
import ProxmoxTool.Lib.MySql
import ProxmoxTool.Lib.LongestSuffix
import ProxmoxTool.Collaboration.CatchUp
import ProxmoxTool.Ghost.OneDatabase
import ProxmoxTool.Lib.Regex
import ProxmoxTool.Moderation.Domains
import ProxmoxTool.Lib.Resp
import ProxmoxTool.Sidekiq.RedisClient
import ProxmoxTool.Settings.SecretSettings
import ProxmoxTool.Lib.UrlParse
import ProxmoxTool.Auth.LocalRedirect
import ProxmoxTool.Auth.KeyFile
import ProxmoxTool.Lib.Yaml
import ProxmoxTool.Lib.YamlBlock
import ProxmoxTool.Lib.Toml
import ProxmoxTool.Lib.EnvFile
import ProxmoxTool.Apps.ConfigText
import ProxmoxTool.Apps.ScrapeConfig
import ProxmoxTool.Apps.ScrapeText
import ProxmoxTool.Apps.ScrapeJobs
import ProxmoxTool.Metrics.Lifecycle
import ProxmoxTool.AiTools.Conversation
