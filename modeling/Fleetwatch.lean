import Fleetwatch.Proofs.Acknowledged
import Fleetwatch.Proofs.Alerting
import Fleetwatch.Proofs.AllClear
import Fleetwatch.Proofs.ArrivalOrder
import Fleetwatch.Proofs.Auth
import Fleetwatch.Proofs.Board
import Fleetwatch.Proofs.Browser
import Fleetwatch.Proofs.Config
import Fleetwatch.Proofs.Confined
import Fleetwatch.Proofs.CreateRetirement
import Fleetwatch.Proofs.DeadProducer
import Fleetwatch.Proofs.Disclosure
import Fleetwatch.Proofs.History
import Fleetwatch.Proofs.Interleaved
import Fleetwatch.Proofs.LatestReport
import Fleetwatch.Proofs.Links
import Fleetwatch.Proofs.Migrations
import Fleetwatch.Proofs.MuteOverlay
import Fleetwatch.Proofs.MutePhases
import Fleetwatch.Proofs.PendingLogin
import Fleetwatch.Proofs.ProblemSince
import Fleetwatch.Proofs.Readers
import Fleetwatch.Proofs.Recent
import Fleetwatch.Proofs.Retention
import Fleetwatch.Proofs.RetentionRow
import Fleetwatch.Proofs.Retired
import Fleetwatch.Proofs.RetirementMachine
import Fleetwatch.Proofs.ReturnTo
import Fleetwatch.Proofs.Selfcheck
import Fleetwatch.Proofs.Session
import Fleetwatch.Proofs.SignInLasts
import Fleetwatch.Proofs.SignInReturn
import Fleetwatch.Proofs.SignedCookies
import Fleetwatch.Proofs.Silencing
import Fleetwatch.Proofs.Staleness
import Fleetwatch.Proofs.Surgery
import Fleetwatch.Proofs.Telemetry
import Fleetwatch.Proofs.Unmute
import Fleetwatch.Proofs.Watched
