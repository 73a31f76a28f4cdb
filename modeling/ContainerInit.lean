import ContainerInit.Main
import ContainerInit.Proofs.Calendar.Stepping
import ContainerInit.Proofs.Config.Acceptance
import ContainerInit.Proofs.CommandLine.Register
import ContainerInit.Proofs.Cron.Bounds
import ContainerInit.Proofs.Cron.Shortcut
import ContainerInit.Proofs.Log.Initialization
import ContainerInit.Proofs.Supervision.Attended
import ContainerInit.Proofs.Supervision.Boot
import ContainerInit.Proofs.Supervision.CommandFault
import ContainerInit.Proofs.Supervision.DependencyOrder
import ContainerInit.Proofs.Supervision.ElapsedMinutes
import ContainerInit.Proofs.Supervision.Escalation
import ContainerInit.Proofs.Supervision.Idle
import ContainerInit.Proofs.Supervision.MinuteWait
import ContainerInit.Proofs.Supervision.Reaping
import ContainerInit.Proofs.Supervision.RunningService
import ContainerInit.Proofs.Supervision.ScheduledStarts
import ContainerInit.Proofs.Supervision.Shutdown
import ContainerInit.Proofs.Supervision.SignalOrder
import ContainerInit.Proofs.Supervision.StateMachine
import ContainerInit.Proofs.Supervision.StopAll
import ContainerInit.Proofs.Supervision.StopBudget
import ContainerInit.Proofs.Supervision.StopRequest
import ContainerInit.Proofs.Supervision.Sweep
import ContainerInit.Proofs.Supervision.TargetMembers
import ContainerInit.Proofs.Supervision.ValidRegistry
import ContainerInit.Proofs.Supervision.Verdict
import ContainerInit.Proofs.Supervision.WakeUp
import ContainerInit.Simulation.Session
import ContainerInit.Proofs.Kernel.Notice
import ContainerInit.Proofs.Log.Delivery
import ContainerInit.Proofs.Kernel.Mask
import ContainerInit.Proofs.Supervision.Succession
import ContainerInit.Proofs.Registry.Insertion
import ContainerInit.Proofs.CommandLine.InsertionOrder
import ContainerInit.Proofs.Registry.Searches
import ContainerInit.Proofs.Simulation.Realization
