import TlsAttestation.Core.CanonicalRuns
import TlsAttestation.Crypto.Threshold

/-!
# What a handshake binding signs

`tls_attestation_attestation::tls_2pc`: after the handshake the group signs a hash of what the
coordinator knows of the session, with the key for approvals, under another tag.
-/

namespace TlsAttestation

structure TlsSessionParams where
  serverCertHash : DigestBytes
  tlsVersion : UInt16
  serverName : RString
  establishedAt : UInt64
  sessionNonce : DigestBytes
deriving DecidableEq

def bindingInputHasher (sessionId : SessionId) (randValue : DigestBytes)
    (params : TlsSessionParams) : CanonicalHasher :=
  (CanonicalHasher.new "tls-attestation/2pc-binding/v1")
    |>.updateFixed sessionId.asBytes
    |>.updateDigest randValue
    |>.updateDigest params.serverCertHash
    |>.updateU64 params.tlsVersion.toUInt64
    |>.updateBytes (strBytes params.serverName.1)
    |>.updateDigest params.sessionNonce

/-- A digest of the session, the randomness and the parameters of the handshake. -/
def compute2pcBindingInput (sessionId : SessionId) (randValue : DigestBytes)
    (params : TlsSessionParams) : DigestBytes :=
  (bindingInputHasher sessionId randValue params).finalize

def bindingInputUpdates (sid : SessionId) (rand : DigestBytes) (params : TlsSessionParams) :
    List Update :=
  [⟨.fixed 16, sid.asBytes⟩, ⟨.digest, rand⟩, ⟨.digest, params.serverCertHash⟩,
    ⟨.u64, params.tlsVersion.toUInt64⟩, ⟨.bytes, strBytes params.serverName.1, params.serverName.2⟩,
    ⟨.digest, params.sessionNonce⟩]

section

variable {sid sid' : SessionId} {rand rand' : DigestBytes} {params params' : TlsSessionParams}

theorem bindingInputHasher_inj
    (h : (bindingInputHasher sid rand params).inner =
      (bindingInputHasher sid' rand' params').inner) :
    sid = sid' ∧ rand = rand' ∧
      params = { params' with establishedAt := params.establishedAt } := by
  have hupd := CanonicalHasher.run_inj (bindingInputUpdates sid rand params)
    (bindingInputUpdates sid' rand' params') h rfl
  simp [bindingInputUpdates, SessionId.asBytes_injective.eq_iff, strBytes_injective.eq_iff,
    UInt16.toUInt64_inj] at hupd
  obtain ⟨hsid, hrand, hcert, hvers, hname, hnonce⟩ := hupd
  refine ⟨hsid, hrand, ?_⟩
  rw [TlsSessionParams.mk.injEq]
  exact ⟨hcert, hvers, Subtype.ext hname, rfl, hnonce⟩

/-- **A binding input fixes the session, the randomness and all of the parameters but the time**,
or the two streams are a collision. -/
theorem compute2pcBindingInput_eq_iff :
    compute2pcBindingInput sid rand params = compute2pcBindingInput sid' rand' params' ↔
      sid = sid' ∧ rand = rand' ∧ params = { params' with establishedAt := params.establishedAt } ∨
        ¬ NoCollision {(bindingInputHasher sid rand params).inner,
          (bindingInputHasher sid' rand' params').inner} := by
  constructor
  · intro h
    refine or_iff_not_imp_right.2 fun hhash => ?_
    exact bindingInputHasher_inj ((not_not.1 hhash).eq h)
  · rintro (⟨rfl, rfl, hpars⟩ | hhash)
    · rw [hpars]
      rfl
    · by_contra h
      exact hhash (.of_ne h)

end

end TlsAttestation
