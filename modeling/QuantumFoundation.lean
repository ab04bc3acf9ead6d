import QuantumFoundation.Distributed.BroadcastAccounting
import QuantumFoundation.Distributed.CatchUp
import QuantumFoundation.Distributed.Divergence
import QuantumFoundation.Distributed.Enforcement
import QuantumFoundation.Distributed.Lockstep
import QuantumFoundation.Distributed.MergeReport
import QuantumFoundation.Distributed.ReplayRange
import QuantumFoundation.Distributed.Service
import QuantumFoundation.Distributed.Snapshots
import QuantumFoundation.Enforcement.Decisions
import QuantumFoundation.Enforcement.Replay
import QuantumFoundation.Enforcement.Severity
import QuantumFoundation.Karma.AuditEnhancer
import QuantumFoundation.Karma.CompletionRewards
import QuantumFoundation.Karma.DebtBooks
import QuantumFoundation.Karma.EventBus
import QuantumFoundation.Karma.Rebirths
import QuantumFoundation.Karma.StpBridge
import QuantumFoundation.Lib.Entropy
import QuantumFoundation.Lib.OrderStatistics
import QuantumFoundation.Lib.Repetition
import QuantumFoundation.Marine.Accumulation
import QuantumFoundation.Marine.Service
import QuantumFoundation.Network.Convergence
import QuantumFoundation.Network.Redelivery
import QuantumFoundation.Network.SharedHistory
import QuantumFoundation.Physical.ContractTable
import QuantumFoundation.Physical.FailStop
import QuantumFoundation.Physical.HashConsensus
import QuantumFoundation.Physical.LatencyTracking
import QuantumFoundation.Physical.Lockstep
import QuantumFoundation.Physical.Observability
import QuantumFoundation.Physical.Persistence
import QuantumFoundation.Physical.Provenance
import QuantumFoundation.Physical.QueueStatistics
import QuantumFoundation.Physical.SimulationWire
import QuantumFoundation.Physical.Submission
import QuantumFoundation.Physical.TamperEvidence
import QuantumFoundation.Physical.TimeStep
import QuantumFoundation.Quantum.AuditTrail
import QuantumFoundation.Quantum.Branching
import QuantumFoundation.Quantum.BuiltInRules
import QuantumFoundation.Quantum.InsertionOrder
import QuantumFoundation.Quantum.IntegrationChain
import QuantumFoundation.Quantum.NoiseIndependence
import QuantumFoundation.Quantum.OperatorProducts
import QuantumFoundation.Quantum.SealTolerance
import QuantumFoundation.Quantum.StateRuns
import QuantumFoundation.Quantum.TokenHistory
import QuantumFoundation.Quantum.UnitaryEvolution
import QuantumFoundation.Quantum.WeakCouplings
import QuantumFoundation.Quantum.WeakEntropy
