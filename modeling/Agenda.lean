import Agenda.Main
import Agenda.Parker.Trial
import Agenda.Scenario.Run
import Agenda.Session
import Agenda.System
import Agenda.Timeline
import Agenda.Proofs.Arena.Edits
import Agenda.Proofs.Queue.Producing
import Agenda.Proofs.Queue.Consuming
import Agenda.Proofs.Queue.Runs
import Agenda.Proofs.Queue.Eligibility
import Agenda.Proofs.Queue.Ledger
import Agenda.Proofs.Queue.Barrier
import Agenda.Proofs.Queue.Wakeup
import Agenda.Proofs.Queue.Order
import Agenda.Proofs.Queue.Quitting
import Agenda.Proofs.System.Course
import Agenda.Proofs.System.Quitting
import Agenda.Proofs.System.SafeQuit
import Agenda.Worker
import Agenda.Proofs.System.Accounts
import Agenda.Proofs.Worker.Course
import Agenda.Proofs.Worker.Conservation
import Agenda.Proofs.Scenario.Course
import Agenda.Proofs.Queue.Disposal
import Agenda.Proofs.Queue.Tokens
import Agenda.Proofs.System.IdlePass
import Agenda.Errand
import Agenda.Proofs.Queue.Isolation
import Agenda.Proofs.Queue.Waking
import Agenda.Proofs.System.Refusals
import Agenda.Proofs.System.Polling
import Agenda.Proofs.Dump
import Agenda.Proofs.Queue.Lifting
import Agenda.Proofs.Queue.Removal
import Agenda.Proofs.Queue.Discarding
import Agenda.Proofs.Queue.Delays
import Agenda.Proofs.Queue.HighWater
import Agenda.Parker.Berth
import Agenda.Proofs.Parker.Wakes
import Agenda.Proofs.Queue.Snapshot
import Agenda.Proofs.Config
import Agenda.Queue.Checked
import Agenda.Proofs.Arena.Checked
import Agenda.Proofs.Queue.Checked
import Agenda.Proofs.Clock
