import TlsAttestation.Contracts.FrostVerifier
import TlsAttestation.Core.Hash
import TlsAttestation.Lib.Transaction

/-!
# Attestations on the chain

The contract `TLSAttestation`: the key has to be registered and the signature good. Five of the nine
fields go into that check (`Attestation.signed`), without the statement and the randomness:
`TLSAttestation.bindsStatement_iff`.
-/

namespace TlsAttestation

open ByteEncoding Evm Transaction

structure Attestation where
  (statementDigest dvrfValue envelopeDigest groupKeyX groupKeyY sigRX sigS : Word)
  (threshold verifierCount : UInt8)
deriving DecidableEq

inductive AttestationEvent where
  | attestationAccepted (statementDigest randValue : Word) (threshold : UInt8)
  | attestationRejected (statementDigest : Word) (reason : String)
  | groupKeyAuthorized (keyX keyY : Word)
  | groupKeyRevoked (keyX keyY : Word)
deriving DecidableEq

/-- The keys that the owner has authorized, by hash. -/
structure TLSAttestation where
  owner : Address
  authorizedGroupKeys : Word → Bool
  events : List AttestationEvent

structure TxContext where
  sender : Address
  value : Word
  timestamp : Word

namespace TLSAttestation

def keyHash (keyX keyY : Word) : Word := keccak (keyX.bytes ++ keyY.bytes)

def emit (e : AttestationEvent) : Tx TLSAttestation Unit :=
  modify fun s => { s with events := s.events ++ [e] }

def new (ctx : TxContext) : TLSAttestation := ⟨ctx.sender, fun _ => false, []⟩

def setKey (keyX keyY : Word) (b : Bool) : Tx TLSAttestation Unit :=
  modify fun s => { s with
    authorizedGroupKeys := Function.update s.authorizedGroupKeys (keyHash keyX keyY) b }

def authorizeGroupKey (ctx : TxContext) (keyX keyY : Word) : Tx TLSAttestation Unit := do
  require (ctx.sender = (← get).owner) "TLSAttestation: not owner"
  setKey keyX keyY true
  emit (.groupKeyAuthorized keyX keyY)

def revokeGroupKey (ctx : TxContext) (keyX keyY : Word) : Tx TLSAttestation Unit := do
  require (ctx.sender = (← get).owner) "TLSAttestation: not owner"
  setKey keyX keyY false
  emit (.groupKeyRevoked keyX keyY)

def isGroupKeyAuthorized (s : TLSAttestation) (keyX keyY : Word) : Bool :=
  s.authorizedGroupKeys (keyHash keyX keyY)

/-- **The check of an attestation**, which never reverts. -/
def verifyAttestation (att : Attestation) : Tx TLSAttestation Bool := do
  if att.statementDigest = 0 then
    emit (.attestationRejected att.statementDigest "empty statement")
    return false
  if att.threshold = 0 then
    emit (.attestationRejected att.statementDigest "threshold is zero")
    return false
  if att.threshold > att.verifierCount then
    emit (.attestationRejected att.statementDigest "threshold > verifierCount")
    return false
  if ¬ (← get).isGroupKeyAuthorized att.groupKeyX att.groupKeyY then
    emit (.attestationRejected att.statementDigest "unauthorized group key")
    return false
  let valid := FrostVerifier.verify att.envelopeDigest att.groupKeyX att.groupKeyY att.sigRX
    att.sigS
  emit (if valid then .attestationAccepted att.statementDigest att.dvrfValue att.threshold
    else .attestationRejected att.statementDigest "invalid FROST signature")
  return valid

def decode (raw : Bytes) : Attestation where
  statementDigest := .ofNat 256 (ofBeBytes (bytesAt 32 0 raw).toList)
  dvrfValue := .ofNat 256 (ofBeBytes (bytesAt 32 32 raw).toList)
  envelopeDigest := .ofNat 256 (ofBeBytes (bytesAt 32 64 raw).toList)
  groupKeyX := .ofNat 256 (ofBeBytes (bytesAt 32 96 raw).toList)
  groupKeyY := .ofNat 256 (ofBeBytes (bytesAt 32 128 raw).toList)
  sigRX := .ofNat 256 (ofBeBytes (bytesAt 32 160 raw).toList)
  sigS := .ofNat 256 (ofBeBytes (bytesAt 32 192 raw).toList)
  threshold := raw.getD 255 0
  verifierCount := raw.getD 287 0

def verifyRaw (raw : Bytes) : Tx TLSAttestation Bool := do
  require (raw.length = 352) "TLSAttestation: expected 352 bytes"
  verifyAttestation (decode raw)

/-! ### What is accepted -/

structure Signed where
  (envelopeDigest groupKeyX groupKeyY sigRX sigS : Word)
deriving DecidableEq

end TLSAttestation

def Attestation.signed (att : Attestation) : TLSAttestation.Signed :=
  ⟨att.envelopeDigest, att.groupKeyX, att.groupKeyY, att.sigRX, att.sigS⟩

namespace TLSAttestation

variable (s : TLSAttestation) (g : Signed)

def SignatureAccepted : Prop :=
  s.isGroupKeyAuthorized g.groupKeyX g.groupKeyY = true ∧
    FrostVerifier.verify g.envelopeDigest g.groupKeyX g.groupKeyY g.sigRX g.sigS = true

instance (s : TLSAttestation) (g : Signed) : Decidable (s.SignatureAccepted g) :=
  inferInstanceAs (Decidable (_ ∧ _))

def accept (att : Attestation) : TLSAttestation :=
  { s with events := s.events ++
      [.attestationAccepted att.statementDigest att.dvrfValue att.threshold] }

theorem not_run_reject {e : AttestationEvent} {s s' : TLSAttestation} :
    ¬ (do emit e; return false : Tx TLSAttestation Bool).run s = .ok (true, s') := by
  intro h
  obtain ⟨_, _, _, h⟩ := run_bind.1 h
  exact Bool.false_ne_true (run_pure.1 h).1

theorem verifyAttestation_eq_true {att : Attestation} {s s' : TLSAttestation} :
    (verifyAttestation att).run s = .ok (true, s') ↔
      (att.statementDigest ≠ 0 ∧ att.threshold ≠ 0 ∧ ¬ att.threshold > att.verifierCount) ∧
        s.SignatureAccepted att.signed ∧ s.accept att = s' := by
  rw [verifyAttestation]
  by_cases hstmt : att.statementDigest = 0
  · rw [if_pos hstmt]
    exact iff_of_false not_run_reject fun h => h.1.1 hstmt
  rw [if_neg hstmt]
  by_cases hzero : att.threshold = 0
  · rw [if_pos hzero]
    exact iff_of_false not_run_reject fun h => h.1.2.1 hzero
  rw [if_neg hzero]
  by_cases hcount : att.threshold > att.verifierCount
  · rw [if_pos hcount]
    exact iff_of_false not_run_reject fun h => h.1.2.2 hcount
  rw [if_neg hcount, run_get_bind]
  by_cases hkey : s.isGroupKeyAuthorized att.groupKeyX att.groupKeyY = true
  · simp only [if_neg (not_not.2 hkey), emit, run_modify_bind, run_pure]
    constructor
    · rintro ⟨hvalid, hs⟩
      rw [hvalid] at hs
      exact ⟨⟨hstmt, hzero, hcount⟩, ⟨hkey, hvalid⟩, hs⟩
    · rintro ⟨-, ⟨-, hvalid⟩, hs⟩
      simp only [Attestation.signed] at hvalid
      rw [hvalid]
      exact ⟨rfl, hs⟩
  · rw [if_pos hkey]
    exact iff_of_false not_run_reject fun h => hkey h.2.1.1

def Accepts (att : Attestation) : Prop :=
  ∃ s', (verifyAttestation att).run s = .ok (true, s')

theorem accepts_iff {s : TLSAttestation} {att : Attestation} :
    s.Accepts att ↔
      (att.statementDigest ≠ 0 ∧ att.threshold ≠ 0 ∧ ¬ att.threshold > att.verifierCount) ∧
        s.SignatureAccepted att.signed := by
  simp only [Accepts, verifyAttestation_eq_true]
  exact ⟨fun ⟨_, hfields, hsig, _⟩ => ⟨hfields, hsig⟩,
    fun ⟨hfields, hsig⟩ => ⟨_, hfields, hsig, rfl⟩⟩

/-- **A signature is for one statement** and one randomness, if it is accepted. -/
def BindsStatement : Prop :=
  ∀ att₁ att₂ : Attestation, att₁.signed = g → att₂.signed = g → s.Accepts att₁ → s.Accepts att₂ →
    att₁.statementDigest = att₂.statementDigest ∧ att₁.dvrfValue = att₂.dvrfValue

def Signed.attest (statementDigest dvrfValue : Word) : Attestation where
  statementDigest := statementDigest
  dvrfValue := dvrfValue
  envelopeDigest := g.envelopeDigest
  groupKeyX := g.groupKeyX
  groupKeyY := g.groupKeyY
  sigRX := g.sigRX
  sigS := g.sigS
  threshold := 1
  verifierCount := 1

/-- A signature can be put next to any statement. -/
theorem accepts_attest {s : TLSAttestation} {g : Signed} {statementDigest dvrfValue : Word}
    (hg : s.SignatureAccepted g) (hstmt : statementDigest ≠ 0) :
    s.Accepts (g.attest statementDigest dvrfValue) :=
  accepts_iff.2 ⟨⟨hstmt, (by decide : (1 : UInt8) ≠ 0), (by decide : ¬ (1 : UInt8) > 1)⟩, hg⟩

/-- **When a signature is for one statement**: only if it is for none. -/
theorem bindsStatement_iff :
    s.BindsStatement g ↔ ¬ s.SignatureAccepted g := by
  constructor
  · intro hbinds hg
    have hone : s.Accepts (g.attest 1 0) := accepts_attest hg (by decide)
    have htwo : s.Accepts (g.attest 2 0) := accepts_attest hg (by decide)
    have heq : (1 : Word) = 2 := (hbinds _ _ rfl rfl hone htwo).1
    exact absurd heq (by decide)
  · rintro hg att₁ att₂ rfl - h₁ -
    exact absurd (accepts_iff.1 h₁).2 hg

end TLSAttestation

end TlsAttestation
