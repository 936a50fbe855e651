import TlsAttestation.Crypto.NonceReuse
import TlsAttestation.Node.OnchainExport
import TlsAttestation.Contracts.OptionRuns
import TlsAttestation.Contracts.IncomeRuns
import TlsAttestation.Zk.Backend
import TlsAttestation.Attestation.DecoDxDctls
import TlsAttestation.Attestation.DistefanoDxDctls
import TlsAttestation.Attestation.Binding
import TlsAttestation.Node.Auxiliary
import TlsAttestation.Node.AttestRuns
import TlsAttestation.CoSnarkProver.Uniformity
import TlsAttestation.Storage.Recycling
import TlsAttestation.Storage.Faults
import TlsAttestation.Storage.Sections
import TlsAttestation.Crypto.QuorumCount
import TlsAttestation.Node.DkgEquivalence
import TlsAttestation.Crypto.RegistryEvolution
import TlsAttestation.Crypto.DkgSealing
import TlsAttestation.Node.SignerSets
import TlsAttestation.Node.IdentifierAssignment
import TlsAttestation.Attestation.Engine
import TlsAttestation.Attestation.RcPhase
import TlsAttestation.Attestation.OnchainSecp256k1
import TlsAttestation.Node.PendingRounds
import TlsAttestation.Contracts.CanonicalInputs
import TlsAttestation.Network.FrameStream
import TlsAttestation.Node.EnvelopeReplay
import TlsAttestation.Node.HttpBody
import TlsAttestation.Node.InProcessTransport
import TlsAttestation.CoSnarkProver.MpcProver
import TlsAttestation.Zk.CoSnarkDistributed
import TlsAttestation.Zk.CoSnarkSplit
import TlsAttestation.CoSnarkProver.MpcGroth
import TlsAttestation.Zk.Uniformity
import TlsAttestation.Zk.NativeCommitments
