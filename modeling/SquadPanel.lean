import SquadPanel.Rcon.FailureResult
import SquadPanel.Rcon.ResponseText
import SquadPanel.Presence.Daily
import SquadPanel.Presence.PollerRuns
import SquadPanel.Economy.LedgerRuns
import SquadPanel.Economy.RenewalRuns
import SquadPanel.Audit.TamperEvidence
import SquadPanel.AdminsCfg.Grants
import SquadPanel.AdminsCfg.SyncRuns
import SquadPanel.Access.RoleRaces
import SquadPanel.Access.LastOwner
import SquadPanel.Auth.Revocation
import SquadPanel.Configs.ConfigTip
import SquadPanel.Bans.Prefilter
import SquadPanel.Configs.SecretCoverage
import SquadPanel.Configs.Blame
import SquadPanel.Bans.MergeConverges
import SquadPanel.Streams.EventualDelivery
import SquadPanel.Discord.NotifyRuns
import SquadPanel.Bridge.StreamEnd
import SquadPanel.LogIngest.SshTail
import SquadPanel.Bridge.Confinement
import SquadPanel.Dossier.Drift
import SquadPanel.LogIngest.CombatOnce
import SquadPanel.Rcon.ProbeTail
import SquadPanel.Bridge.ClientClose
import SquadPanel.LogIngest.Correlation
import SquadPanel.LogIngest.Match
import SquadPanel.LogIngest.Vote
import SquadPanel.Economy.SeedingWindows
import SquadPanel.Access.PermissionCache
import SquadPanel.Servers.Reconciler
import SquadPanel.Rcon.ReadBack
import SquadPanel.AdminsCfg.Canonical
import SquadPanel.AdminsCfg.Rotation
import SquadPanel.Bans.Csv
import SquadPanel.Media.Storage
