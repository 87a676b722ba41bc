import RateMonotonic.Directory
import RateMonotonic.Json.Command
import RateMonotonic.Main
import RateMonotonic.Scheduler.Bench
import RateMonotonic.Timers.Bench
import RateMonotonic.Proofs.QueueOrder
import RateMonotonic.Proofs.ScheduleInvariant
import RateMonotonic.Proofs.RegistryAgreement
import RateMonotonic.Proofs.Runs
import RateMonotonic.Proofs.ExactLoad
import RateMonotonic.Proofs.Lineup
import RateMonotonic.Proofs.Coalescing
import RateMonotonic.Proofs.System
import RateMonotonic.Proofs.NoLostWake
import RateMonotonic.Proofs.SlotHolder
import RateMonotonic.Proofs.HolderPriority
import RateMonotonic.Proofs.ShortestPeriod
import RateMonotonic.Proofs.StartedJobs
import RateMonotonic.Proofs.RaisedPriority
import RateMonotonic.Proofs.ReleaseTimers
import RateMonotonic.Proofs.Boundaries
import RateMonotonic.Proofs.JobCounts
import RateMonotonic.Proofs.EarliestRelease
import RateMonotonic.LiveSession
import RateMonotonic.Proofs.Ledger
import RateMonotonic.Proofs.LiveSessions
import RateMonotonic.Proofs.SessionEnd
import RateMonotonic.Proofs.TextLines
import RateMonotonic.Proofs.SessionAnswers
import RateMonotonic.Proofs.TimerAgenda
import RateMonotonic.Proofs.DeadlineMap
import RateMonotonic.Proofs.KeptDeadlines
import RateMonotonic.Proofs.CancelAndWait
import RateMonotonic.Proofs.Requests
import RateMonotonic.Proofs.PreemptedPriority
import RateMonotonic.Proofs.YieldDemotion
import RateMonotonic.Proofs.Brackets
import RateMonotonic.Proofs.Refusals
import RateMonotonic.Proofs.Departures
import RateMonotonic.Proofs.DepartingCalls
import RateMonotonic.Scheduler.Waiter
import RateMonotonic.Proofs.WaitingRoom
import RateMonotonic.Proofs.FinalStop
import RateMonotonic.Proofs.QueueCalls
import RateMonotonic.Proofs.CommandGrammar
import RateMonotonic.Proofs.CommandRoundTrip
import RateMonotonic.Proofs.EndedJobs
import RateMonotonic.Proofs.AdmissionArithmetic
import RateMonotonic.Proofs.ElevatedHandles
import RateMonotonic.Proofs.JsonGrammar
import RateMonotonic.Proofs.JsonSkipping
import RateMonotonic.Proofs.ReportDecoding
import RateMonotonic.Proofs.JsonReading
import RateMonotonic.Proofs.ConfigText
