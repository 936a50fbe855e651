import TlsAttestation.Core.Hash
import TlsAttestation.Lib.Fallible

/-!
# Identifiers and protocol types

`tls_attestation_core::ids` and `tls_attestation_core::types`. A `QuorumSpec` is deserialised as it
comes, so it carries no invariant, and a verifier may be listed twice. `usize` is 64 bits wide.
-/

namespace TlsAttestation

open ByteEncoding Fallible

/-! ### Identifiers -/

structure SessionId where fromBytes :: asBytes : Vector UInt8 16
deriving DecidableEq

structure VerifierId where fromBytes :: asBytes : Bytes32
deriving DecidableEq

structure ProverId where fromBytes :: asBytes : Bytes32
deriving DecidableEq

structure RandomnessId where fromBytes :: asBytes : Vector UInt8 16
deriving DecidableEq

def SessionId.display (id : SessionId) : String := "session:" ++ hexEncode id.asBytes.toList

def VerifierId.display (id : VerifierId) : String :=
  "verifier:" ++ hexEncode (id.asBytes.toList.take 8)

def VerifierId.fromPublicKey (pkBytes : Bytes) : VerifierId := .fromBytes (Sha2.sha256 pkBytes)

theorem SessionId.asBytes_injective : Function.Injective SessionId.asBytes := by
  rintro ⟨_⟩ ⟨_⟩ h
  exact congrArg _ h

theorem VerifierId.asBytes_injective : Function.Injective VerifierId.asBytes := by
  rintro ⟨_⟩ ⟨_⟩ h
  exact congrArg _ h

/-! ### Nonces, epochs and times -/

structure Nonce where fromBytes :: asBytes : Bytes32
deriving DecidableEq

structure Epoch where
  val : UInt64
deriving DecidableEq

structure UnixTimestamp where
  secs : UInt64
deriving DecidableEq

def UnixTimestamp.hasExpired (t now : UnixTimestamp) : Bool := now.secs > t.secs

/-! ### The quorum of a session -/

inductive CoreError where
  | invalidQuorum (reason : String)
deriving DecidableEq

def CoreError.display : CoreError → String
  | .invalidQuorum reason => "invalid quorum: " ++ reason

structure QuorumSpec where
  verifiers : RVec VerifierId
  threshold : UInt64
deriving DecidableEq

namespace QuorumSpec

def new (verifiers : RVec VerifierId) (threshold : UInt64) : Except CoreError QuorumSpec := do
  ensure (verifiers.1 ≠ []) (.invalidQuorum "verifier set must not be empty")
  ensure (threshold ≠ 0) (.invalidQuorum "threshold must be at least 1")
  ensure (threshold.toNat ≤ verifiers.1.length)
    (.invalidQuorum s!"threshold {threshold} exceeds verifier count {verifiers.1.length}")
  return { verifiers, threshold }

/-- A verifier that is listed twice is counted twice. -/
def isSatisfiedBy (q : QuorumSpec) (approvers : List VerifierId) : Bool :=
  q.threshold.toNat ≤ (q.verifiers.1.filter fun id => approvers.contains id).length

/-- **A checked quorum** lists as many verifiers as it asks for, and asks for one at least. -/
theorem new_eq_ok {verifiers : RVec VerifierId} {threshold : UInt64} {q : QuorumSpec}
    (h : new verifiers threshold = .ok q) :
    q = ⟨verifiers, threshold⟩ ∧ 0 < q.threshold.toNat ∧
      q.threshold.toNat ≤ q.verifiers.1.length := by
  simp only [new, do_eq_ok] at h
  obtain ⟨_, _, _, hpos, _, hle, rfl⟩ := h
  refine ⟨rfl, Nat.pos_of_ne_zero fun h0 => hpos (UInt64.toNat_inj.1 h0), hle⟩

end QuorumSpec

end TlsAttestation
