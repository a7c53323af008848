import StandingQuery.Bench.Basic
import StandingQuery.Main
import StandingQuery.Proofs.Bench.First
import StandingQuery.Proofs.Bench.Latest
import StandingQuery.Proofs.Bench.Subscriptions
import StandingQuery.Proofs.CommandLine.Simulation
import StandingQuery.Proofs.Observer.Unnoticed
import StandingQuery.Proofs.Query.Building
import StandingQuery.Proofs.Query.Collecting
import StandingQuery.Proofs.Query.Numbers
import StandingQuery.Proofs.Query.Spelled
import StandingQuery.Proofs.Query.StatusLine
import StandingQuery.Proofs.Session.Coalescing
import StandingQuery.Proofs.Session.Recording
import StandingQuery.Proofs.Session.Release
import StandingQuery.Proofs.Settings
