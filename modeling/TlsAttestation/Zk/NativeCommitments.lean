import TlsAttestation.Zk.TlsSessionBinding

/-!
# Native and enforced commitments

`new` packs bytes natively, a circuit packs its byte variables, to the same field elements
(`packing_agrees`). So for its own witnesses a circuit enforces the commitments it was made with,
and no others. The exception are the MACs of the session binding: the circuit computes them, and
`new` commits to those it is given.
-/

namespace TlsAttestation.Zk

open Ark ByteEncoding Sha2 TlsSessionBindingCircuit

open Ark.Bn254 (Fr)

/-! ### What a circuit enforces -/

theorem packed_toList (b : Bytes32) : packed (ofLeBytes b.toList) = bytes32ToFr b :=
  (bytes32ToFr_eq b).symm

namespace TlsPrfCircuit

def commitments (c : TlsPrfCircuit) : List Fr := [c.kMacCommitmentFe]

/-- **Enforced**: what can be assigned if the witnesses and the randomness are the circuit's own. -/
def enforced (c : TlsPrfCircuit) : Set (List Fr) :=
  {cs | ∃ w ∈ c.generateConstraints (m := Sat Fr), w.randBinding = c.randBindingFe ∧
    bytesOn .assigned w.pVars = c.kMacProverShare.toList ∧
    bytesOn .assigned w.vVars = c.kMacVerifierShare.toList ∧ [w.expectedCommitment] = cs}

theorem enforced_new (p v rand : Bytes32) :
    (new p v rand).enforced = {(new p v rand).commitments} := by
  have hkMac : packed (ofLeBytes (List.zipWith (· ^^^ ·) p.toList v.toList)) =
      bytes32ToFr (xorShares p v) := by
    rw [← Vector.toList_zipWith]
    exact packed_toList _
  have hbytes := map_byteOn_constantBytes (F := Fr)
  refine Set.eq_singleton_iff_unique_mem.2 ⟨⟨⟨_, _, constantBytes (Sat Fr) p.toList,
    constantBytes (Sat Fr) v.toList, none⟩, mem_generateConstraints.2 ⟨hbytes _ _,
      hbytes _ _, ?_, rfl⟩, rfl, hbytes _ _, hbytes _ _, rfl⟩, ?_⟩
  · rw [TlsPrfWires.kMac, bytesOn, bytesOn, hbytes, hbytes, hkMac]
    rfl
  · rintro _ ⟨w, hw, hrand, hp, hv, rfl⟩
    obtain ⟨-, -, hcomm, -⟩ := mem_generateConstraints.1 hw
    rw [← hcomm, TlsPrfWires.kMac, hp, hv, hrand]
    exact congrArg (fun k => [k + _]) hkMac

end TlsPrfCircuit

namespace PgpBindingCircuit

def commitments (c : PgpBindingCircuit) : List Fr :=
  [c.queryCommitmentFe, c.responseCommitmentFe, c.transcriptCommitmentFe]

@[inherit_doc TlsPrfCircuit.enforced]
def enforced (c : PgpBindingCircuit) : Set (List Fr) :=
  {cs | ∃ w ∈ c.generateConstraints (m := Sat Fr), w.randBinding = c.randBindingFe ∧
    bytesOn .assigned w.qhVars = c.queryHash.toList ∧
    bytesOn .assigned w.rhVars = c.responseHash.toList ∧
    [w.expQueryCommit, w.expResponseCommit, w.expTranscriptCommit] = cs}

theorem enforced_new (q t rand : Bytes32) :
    (new q t rand).enforced = {(new q t rand).commitments} := by
  have hbytes := map_byteOn_constantBytes (F := Fr)
  refine Set.eq_singleton_iff_unique_mem.2 ⟨⟨⟨_, _, _, _, constantBytes (Sat Fr) q.toList,
    constantBytes (Sat Fr) t.toList⟩, mem_generateConstraints.2 ⟨hbytes _ _, hbytes _ _,
      ?_, ?_, ?_⟩, rfl, hbytes _ _, hbytes _ _, rfl⟩, ?_⟩
  · rw [bytesOn, hbytes, packed_toList]
    rfl
  · rw [bytesOn, hbytes, packed_toList]
    rfl
  · rw [bytesOn, bytesOn, hbytes, hbytes, packed_toList]
    rfl
  · rintro _ ⟨w, hw, hrand, hq, ht, rfl⟩
    obtain ⟨-, -, hcq, hct, hcs⟩ := mem_generateConstraints.1 hw
    rw [← hcq, ← hct, ← hcs, hq, ht, hrand, packed_toList, packed_toList, packed_toList]
    rfl

end PgpBindingCircuit

namespace TlsSessionBindingCircuit

variable (c : TlsSessionBindingCircuit)

def commitments : List Fr :=
  [c.kMacCommitmentFe, c.macCommitmentQFe, c.macCommitmentRFe]

@[inherit_doc TlsPrfCircuit.enforced]
def enforced : Set (List Fr) :=
  {cs | ∃ w ∈ c.generateConstraints (m := Sat Fr), w.randBinding = c.randBindingFe ∧
    w.kMac = c.kMac.toList ∧
    bytesOn .assigned w.query.hdrVars = c.headerQ.toBytes ∧
    bytesOn .assigned w.query.dataHashVars = c.queryDataHash.toList ∧
    bytesOn .assigned w.response.hdrVars = c.headerR.toBytes ∧
    bytesOn .assigned w.response.dataHashVars = c.responseDataHash.toList ∧
    [w.expectedKMacCommit, w.expectedMacCommitQ, w.expectedMacCommitR] = cs}

/-- **The MAC of a record**, over its header and the hash of its data. -/
def recordMac (kMac : Bytes32) (header : TlsRecordHeader) (dataHash : Bytes32) :
    Bytes32 :=
  hmacSha256 kMac.toList (header.toBytes ++ dataHash.toList)

theorem enforced_eq :
    c.enforced = {[bytes32ToFr c.kMac + c.randBindingFe,
      bytes32ToFr (recordMac c.kMac c.headerQ c.queryDataHash) + c.randBindingFe,
      bytes32ToFr (recordMac c.kMac c.headerR c.responseDataHash) + c.randBindingFe]} := by
  have hbytes := map_byteOn_constantBytes (F := Fr) .assigned
  refine Set.eq_singleton_iff_unique_mem.2 ⟨⟨c.wiresOf c.randBindingFe, c.wiresOf_mem _, rfl,
    hbytes _, hbytes _, hbytes _, hbytes _, hbytes _, rfl⟩, ?_⟩
  rintro _ ⟨w, hw, hrand, hkMac, hhq, hdq, hhr, hdr, rfl⟩
  obtain ⟨-, -, -, -, -, hcomm, hmacQ, hmacR⟩ := mem_generateConstraints.1 hw
  rw [← hcomm, ← hmacQ, ← hmacR, RecordWires.mac, RecordWires.mac, hkMac, hhq, hdq, hhr, hdr,
    hrand, packed_toList, packed_toList, packed_toList]
  rfl

theorem enforced_new_iff (kMac rand : Bytes32) (hq hr : TlsRecordHeader)
    (dq dr macQ macR : Bytes32) :
    (new kMac rand hq hr dq dr macQ macR).enforced =
      {(new kMac rand hq hr dq dr macQ macR).commitments} ↔
    bytes32ToFr macQ = bytes32ToFr (recordMac kMac hq dq) ∧
      bytes32ToFr macR = bytes32ToFr (recordMac kMac hr dr) := by
  rw [enforced_eq, Set.singleton_eq_singleton_iff]
  simp [commitments, new, kMacCommitment, eq_comm]

end TlsSessionBindingCircuit

/-! ### Packing -/

/-- **Packing agrees**, for all bytes; so the commitments that `new` computes are the enforced ones.
In the session binding that is so for the key, and for the MACs exactly if they pack to what the
records do. -/
theorem packing_agrees :
    (∀ (b : Bytes32) (xs : List (UInt8Var Wire)), bytesOn .assigned xs = b.toList →
      packBytesToFpvar (Sat Fr) xs = bytes32ToFr b) ∧
    (∀ p v rand,
      (TlsPrfCircuit.new p v rand).enforced = {(TlsPrfCircuit.new p v rand).commitments}) ∧
    (∀ q t rand,
      (PgpBindingCircuit.new q t rand).enforced = {(PgpBindingCircuit.new q t rand).commitments}) ∧
    ∀ kMac rand hq hr dq dr macQ macR,
      let c := TlsSessionBindingCircuit.new kMac rand hq hr dq dr macQ macR
      (∃ q t, c.enforced = {[c.kMacCommitmentFe, q, t]}) ∧
      (c.enforced = {c.commitments} ↔ bytes32ToFr macQ = bytes32ToFr (recordMac kMac hq dq) ∧
        bytes32ToFr macR = bytes32ToFr (recordMac kMac hr dr)) := by
  refine ⟨fun b xs hb => ?_, TlsPrfCircuit.enforced_new, PgpBindingCircuit.enforced_new,
    fun kMac rand hq hr dq dr macQ macR => ⟨⟨_, _, enforced_eq _⟩, enforced_new_iff ..⟩⟩
  rw [packBytesToFpvar_eq, hb, packed_toList]

def macCircuit (macQ : Bytes32) : TlsSessionBindingCircuit :=
  let zero := .replicate 32 0
  let header := dummyHeader
  .new zero zero header header zero zero macQ zero

/-- **A MAC that the circuit does not enforce**: of two that pack differently, one is not the
record's. -/
theorem exists_enforced_ne :
    ∃ macQ, (macCircuit macQ).enforced ≠ {(macCircuit macQ).commitments} := by
  by_contra! hall
  have hpack := fun macQ => ((enforced_new_iff ..).1 (hall macQ)).1
  exact absurd ((hpack (.replicate 32 0)).trans (hpack (.replicate 32 1)).symm) (by decide)

end TlsAttestation.Zk
