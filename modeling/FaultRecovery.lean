import FaultRecovery.Signal.History
import FaultRecovery.Spinlock.Crowd
import FaultRecovery.Proofs.Registry.Recovery
import FaultRecovery.Proofs.Registry.Failures
import FaultRecovery.Proofs.Registry.Separation
import FaultRecovery.Signal.Dispatcher
import FaultRecovery.Proofs.Signal.Redirection
import FaultRecovery.Proofs.Allocator
import FaultRecovery.Proofs.Registry.Allocator
import FaultRecovery.Proofs.Registry.Locality
import FaultRecovery.Proofs.Registry.Verification
import FaultRecovery.Proofs.Registry.Relocation
import FaultRecovery.Proofs.Registry.Growth
import FaultRecovery.Proofs.Diagnosis
import FaultRecovery.Proofs.Registry.Arrival
import FaultRecovery.Proofs.Registry.Records
import FaultRecovery.Proofs.Signal.Forwarding
import FaultRecovery.Proofs.Signal.Installation
import FaultRecovery.Proofs.Signal.Recoveries
import FaultRecovery.Proofs.Signal.Invocation
import FaultRecovery.Proofs.Registry.Overlap
import FaultRecovery.Proofs.Signal.Presence
import FaultRecovery.Proofs.Landing
import FaultRecovery.Proofs.Slab.Steps
import FaultRecovery.Proofs.Registry.Reversal
import FaultRecovery.Proofs.Spinlock.Attempts
import FaultRecovery.Proofs.Spinlock.Workers
import FaultRecovery.Proofs.Spinlock.Holder
