import LockService.Proofs.CallbackRace
import LockService.Proofs.Deadlines
import LockService.Proofs.Displacement
import LockService.Proofs.Ensembles
import LockService.Proofs.Events
import LockService.Proofs.FirstAnswers
import LockService.Proofs.FlowCallbacks
import LockService.Proofs.FlowCrowds
import LockService.Proofs.FrameRoundTrip
import LockService.Proofs.FreedSlots
import LockService.Proofs.GroupVersions
import LockService.Proofs.HostEntries
import LockService.Proofs.KeyCollisions
import LockService.Proofs.LeafCalls
import LockService.Proofs.LifeCycle
import LockService.Proofs.LiveWatch
import LockService.Proofs.OneGo
import LockService.Proofs.Outflow
import LockService.Proofs.RetriedWaits
import LockService.Proofs.Routing
import LockService.Proofs.Semaphores
import LockService.Proofs.SharedReads
import LockService.Proofs.SharedReentrantLock
import LockService.Proofs.SharedSources
import LockService.Proofs.SoloReads
import LockService.Proofs.SoloReentrantLock
import LockService.Proofs.TokenBuckets
import LockService.Proofs.Traffic
import LockService.Proofs.Trees
import LockService.Rehearsal.Basic
import LockService.Rehearsal.Concealment
import LockService.Rehearsal.Desk
import LockService.Rehearsal.Network
import LockService.Wire.Survey
