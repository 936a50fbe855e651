import TlsAttestation.Core.Hash
import TlsAttestation.Lib.Hmac

/-!
# Key derivation in TLS 1.2

A pre-master secret and the two random values of the handshake make a master secret, and that, with
the same values in the other order, a block of keys, of which the first 32 bytes are `K_MAC`. It is
shared between the prover and the coordinating verifier, by exclusive or.
-/

namespace TlsAttestation.Zk

open ByteEncoding Sha2

variable (secret label seed : Bytes)

/-- The pseudorandom function of TLS 1.2: `label ++ seed` expanded under the secret. -/
def tlsPrfSha256 (outputLen : ℕ) : Bytes :=
  (pHash (m := Id) (fun a => (hmacSha256 secret a).toList) (label ++ seed) outputLen).run

def labelMasterSecret : Bytes := strBytes "master secret"

def labelKeyExpansion : Bytes := strBytes "key expansion"

def tls12KeyExpansion (masterSecret clientRandom serverRandom : Bytes) : Bytes :=
  tlsPrfSha256 masterSecret labelKeyExpansion (serverRandom ++ clientRandom) 128

/-- **`K_MAC`** of a pre-master secret and two random values. -/
def deriveKMacFromPms (pms clientRandom serverRandom : Bytes) : Bytes :=
  let masterSecret := tlsPrfSha256 pms labelMasterSecret (clientRandom ++ serverRandom) 48
  (tls12KeyExpansion masterSecret clientRandom serverRandom).take 32

theorem length_tlsPrfSha256 (outputLen : ℕ) :
    (tlsPrfSha256 secret label seed outputLen).length = outputLen :=
  length_pHash (fun _ => by simp) _ outputLen

theorem take_tlsPrfSha256 {n n' : ℕ} (hn : 32 ≤ n) (hn' : 32 ≤ n') :
    (tlsPrfSha256 secret label seed n).take 32 = (tlsPrfSha256 secret label seed n').take 32 := by
  rw [tlsPrfSha256, tlsPrfSha256, take_pHash _ _ (by omega) hn (by simp),
    take_pHash _ _ (by omega) hn' (by simp)]

/-! ### Shares -/

def combineMacKeyShares (pShare vShare : Bytes32) : Bytes32 :=
  Vector.zipWith (· ^^^ ·) pShare vShare

end TlsAttestation.Zk
