import TlsAttestation.Core.CanonicalRuns

/-!
# Digests of a dx-DCTLS proof

For TLS 1.2 and TLS 1.3 the same fields are hashed in the same order, in different domains. A digest
is given by its hasher, so that what is assumed of SHA-256 can name the strings.
-/

namespace TlsAttestation

open ByteEncoding

variable (domain : String)

def sessionBindingHasher (sessionId : SessionId)
    (rand commitment serverCertHash : DigestBytes) : CanonicalHasher :=
  (CanonicalHasher.new domain)
    |>.updateFixed sessionId.asBytes
    |>.updateDigest rand
    |>.updateDigest commitment
    |>.updateDigest serverCertHash

def transcriptHasher (queryCommitment responseCommitment : DigestBytes) :
    CanonicalHasher :=
  (CanonicalHasher.new domain)
    |>.updateDigest queryCommitment
    |>.updateDigest responseCommitment

def crossBindingHasher (sessionBinding transcriptCommitment : DigestBytes) :
    CanonicalHasher :=
  (CanonicalHasher.new domain)
    |>.updateDigest sessionBinding
    |>.updateDigest transcriptCommitment

def proofHasher (sessionId : SessionId) (transcriptCommitment : DigestBytes)
    (statement : Bytes) : CanonicalHasher :=
  (CanonicalHasher.new domain)
    |>.updateFixed sessionId.asBytes
    |>.updateDigest transcriptCommitment
    |>.updateBytes statement

/-! ### The fields, read back -/

section

variable {domain : String}

theorem crossBindingHasher_inj {sb sb' tc tc' : DigestBytes}
    (h : (crossBindingHasher domain sb tc).inner = (crossBindingHasher domain sb' tc').inner) :
    sb = sb' ∧ tc = tc' := by
  simpa using CanonicalHasher.run_inj [⟨.digest, sb⟩, ⟨.digest, tc⟩]
    [⟨.digest, sb'⟩, ⟨.digest, tc'⟩] h rfl

theorem sessionBindingHasher_inj {sid sid' : SessionId} {rand rand' c c' cert cert' : DigestBytes}
    (h : (sessionBindingHasher domain sid rand c cert).inner =
      (sessionBindingHasher domain sid' rand' c' cert').inner) :
    sid = sid' ∧ rand = rand' ∧ c = c' ∧ cert = cert' := by
  simpa [SessionId.asBytes_injective.eq_iff] using CanonicalHasher.run_inj
    [⟨.fixed 16, sid.asBytes⟩, ⟨.digest, rand⟩, ⟨.digest, c⟩, ⟨.digest, cert⟩]
    [⟨.fixed 16, sid'.asBytes⟩, ⟨.digest, rand'⟩, ⟨.digest, c'⟩, ⟨.digest, cert'⟩] h rfl

theorem proofHasher_inj {sid sid' : SessionId} {tc tc' : DigestBytes} {st st' : RVec UInt8}
    (h : (proofHasher domain sid tc st.1).inner = (proofHasher domain sid' tc' st'.1).inner) :
    sid = sid' ∧ tc = tc' ∧ st = st' := by
  simpa [SessionId.asBytes_injective.eq_iff] using CanonicalHasher.run_inj
    [⟨.fixed 16, sid.asBytes⟩, ⟨.digest, tc⟩, ⟨.bytes, st⟩]
    [⟨.fixed 16, sid'.asBytes⟩, ⟨.digest, tc'⟩, ⟨.bytes, st'⟩] h rfl

end

end TlsAttestation
