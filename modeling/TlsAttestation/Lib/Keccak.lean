import TlsAttestation.Lib.Encoding

/-!
# Keccak-256

The hash function of the Ethereum machine: the sponge over Keccak-f[1600] with 136 bytes of rate and
the padding byte `0x01`. The state has five planes of five lanes.
-/

namespace Keccak

open ByteEncoding

abbrev Lane := BitVec 64

structure Plane where
  (a b c d e : Lane)

structure State where
  (p q r s t : Plane)

/-! ### The permutation -/

def Plane.add (v w : Plane) : Plane :=
  ⟨v.a ^^^ w.a, v.b ^^^ w.b, v.c ^^^ w.c, v.d ^^^ w.d, v.e ^^^ w.e⟩

variable (A : State)

def theta : State :=
  let C := (((A.p.add A.q).add A.r).add A.s).add A.t
  let D : Plane :=
    ⟨C.e ^^^ C.b.rotateLeft 1, C.a ^^^ C.c.rotateLeft 1, C.b ^^^ C.d.rotateLeft 1,
      C.c ^^^ C.e.rotateLeft 1, C.d ^^^ C.a.rotateLeft 1⟩
  ⟨A.p.add D, A.q.add D, A.r.add D, A.s.add D, A.t.add D⟩

def rhoPi : State where
  p := ⟨A.p.a, A.q.b.rotateLeft 44, A.r.c.rotateLeft 43, A.s.d.rotateLeft 21, A.t.e.rotateLeft 14⟩
  q := ⟨A.p.d.rotateLeft 28, A.q.e.rotateLeft 20, A.r.a.rotateLeft 3, A.s.b.rotateLeft 45,
    A.t.c.rotateLeft 61⟩
  r := ⟨A.p.b.rotateLeft 1, A.q.c.rotateLeft 6, A.r.d.rotateLeft 25, A.s.e.rotateLeft 8,
    A.t.a.rotateLeft 18⟩
  s := ⟨A.p.e.rotateLeft 27, A.q.a.rotateLeft 36, A.r.b.rotateLeft 10, A.s.c.rotateLeft 15,
    A.t.d.rotateLeft 56⟩
  t := ⟨A.p.c.rotateLeft 62, A.q.d.rotateLeft 55, A.r.e.rotateLeft 39, A.s.a.rotateLeft 41,
    A.t.b.rotateLeft 2⟩

def Plane.chi (v : Plane) : Plane :=
  ⟨v.a ^^^ (~~~v.b &&& v.c), v.b ^^^ (~~~v.c &&& v.d), v.c ^^^ (~~~v.d &&& v.e),
    v.d ^^^ (~~~v.e &&& v.a), v.e ^^^ (~~~v.a &&& v.b)⟩

def chi : State := ⟨A.p.chi, A.q.chi, A.r.chi, A.s.chi, A.t.chi⟩

def iota (rc : Lane) (A : State) : State := { A with p := { A.p with a := A.p.a ^^^ rc } }

def roundConstants : List Lane :=
  [0x0000000000000001, 0x0000000000008082, 0x800000000000808a, 0x8000000080008000,
   0x000000000000808b, 0x0000000080000001, 0x8000000080008081, 0x8000000000008009,
   0x000000000000008a, 0x0000000000000088, 0x0000000080008009, 0x000000008000000a,
   0x000000008000808b, 0x800000000000008b, 0x8000000000008089, 0x8000000000008003,
   0x8000000000008002, 0x8000000000000080, 0x000000000000800a, 0x800000008000000a,
   0x8000000080008081, 0x8000000000008080, 0x0000000080000001, 0x8000000080008008]

def permute : State :=
  roundConstants.foldl (fun A rc => iota rc (chi (rhoPi (theta A)))) A

/-! ### The sponge -/

def lanesOf : Bytes → List Lane
  | b₀ :: b₁ :: b₂ :: b₃ :: b₄ :: b₅ :: b₆ :: b₇ :: bs =>
    BitVec.ofNat 64 (ofBeBytes [b₇, b₆, b₅, b₄, b₃, b₂, b₁, b₀]) :: lanesOf bs
  | _ => []

def pad (msg : Bytes) : Bytes :=
  match 135 - msg.length % 136 with
  | 0 => msg ++ [0x81]
  | n + 1 => msg ++ 0x01 :: (List.replicate n 0 ++ [0x80])

def planeAt (ws : List Lane) (i : ℕ) : Plane :=
  ⟨ws.getD i 0, ws.getD (i + 1) 0, ws.getD (i + 2) 0, ws.getD (i + 3) 0, ws.getD (i + 4) 0⟩

def addBlock (ws : List Lane) (A : State) : State :=
  ⟨A.p.add (planeAt ws 0), A.q.add (planeAt ws 5), A.r.add (planeAt ws 10),
    A.s.add (planeAt ws 15), A.t⟩

def absorb : ℕ → List Lane → State → State
  | 0, _, A => A
  | n + 1, ws, A => absorb n (ws.drop 17) (permute (addBlock (ws.take 17) A))

def initialState : State :=
  let zero : Plane := ⟨0, 0, 0, 0, 0⟩
  ⟨zero, zero, zero, zero, zero⟩

def squeeze : Bytes :=
  [A.p.a, A.p.b, A.p.c, A.p.d].flatMap fun w => (beBytes 8 w.toNat).reverse

@[simp] theorem length_squeeze : (squeeze A).length = 32 := by
  simp [squeeze]

/-- Keccak-256. -/
@[irreducible] def keccak256 (msg : Bytes) : Bytes32 :=
  ⟨(squeeze (absorb (msg.length / 136 + 1) (lanesOf (pad msg)) initialState)).toArray, by simp⟩

/-- The empty string. -/
example : ofBeBytes (keccak256 []).toList =
    0xc5d2460186f7233c927e7db2dcc703c0e500b653ca82273b7bfad8045d85a470 := by
  decide +kernel

end Keccak
