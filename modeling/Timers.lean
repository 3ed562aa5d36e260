import Timers.Arena.Lemmas
import Timers.PriorityQueue.Builder
import Timers.System.Fuel
import Timers.Ticker
import Timers.Demo.Blink
import Timers.Demo.Pulse
import Timers.Proofs.ArenaKeys
import Timers.Proofs.QueueLinks
import Timers.Proofs.QueueEntries
import Timers.Proofs.QueueOrder
import Timers.Proofs.Collection
import Timers.Proofs.Moments
import Timers.Proofs.Executions
import Timers.Proofs.QueueRefinement
import Timers.Proofs.Effects
import Timers.Proofs.Revisions
import Timers.Proofs.Representation
import Timers.Proofs.Registry
import Timers.Proofs.Refusals
import Timers.Proofs.Schedule
import Timers.Proofs.FiringTime
import Timers.Proofs.Halting
import Timers.Proofs.FiringOrder
import Timers.Proofs.Published
import Timers.Proofs.Replay
import Timers.Proofs.Timetable
import Timers.Proofs.Cadence
import Timers.Proofs.Together
import Timers.Proofs.Vacancies
import Timers.Proofs.CheckedQueue
import Timers.Proofs.QueueLedger
import Timers.Proofs.Shapes
import Timers.Proofs.Summaries
import Timers.Proofs.Resemblance
import Timers.Proofs.KeyHistory
import Timers.Proofs.Recycling
import Timers.Proofs.Departures
import Timers.Proofs.Lockstep
import Timers.Proofs.Enrolment
import Timers.Proofs.Errands
import Timers.Proofs.Matching
import Timers.Proofs.Pairing
import Timers.Proofs.Renewal
import Timers.Proofs.Seclusion
import Timers.Proofs.Independence
import Timers.Proofs.Reentrance
import Timers.Proofs.EventLog
import Timers.Proofs.Custody
import Timers.Proofs.Twins
import Timers.Proofs.Abreast
import Timers.Proofs.Commutation
import Timers.Proofs.Conduct
import Timers.Proofs.Rearming
import Timers.Proofs.Reordering
import Timers.Proofs.Driving
import Timers.Proofs.Endings
import Timers.Proofs.Backlog
import Timers.Proofs.OneShots
import Timers.Proofs.Endless
import Timers.Proofs.Termination
import Timers.Proofs.IdleTicks
