import TlsAttestation.Network.SignedEnvelope

/-!
# A stream of frames

The writer casts the length of a body to 32 bits *before* it compares it with the limit, so a longer
body may pass. What was written is read back exactly if every body fits (`Codec.frameStream_iff`);
whatever arrives, a reader stays within its own frame (`Codec.ownFrame`).
-/

namespace TlsAttestation

open ByteEncoding Fallible

namespace Codec

variable {α : Type} (json : Json α)

/-- A call of `read_frame`: result, rest of the stream, and buffer. -/
structure FrameRead (α : Type) where
  result : Except NetworkError α
  rest : Stream
  allocated : ℕ

/-- One call of `read_frame`, with what it leaves in the stream and what it allocates. -/
def readNext (s : Stream) : FrameRead α :=
  match s.readExact 4 with
  | .error .unexpectedEof => ⟨.error .channelClosed, { s with incoming := [] }, 0⟩
  | .error (.other reason) => ⟨.error (.serialization reason), { s with incoming := [] }, 0⟩
  | .ok (lenBuf, s) =>
    let len := ofBeBytes lenBuf
    if len ≤ maxFrameBytes then
      match s.readExact len with
      | .error e => ⟨.error (.serialization e.display), { s with incoming := [] }, len⟩
      | .ok (body, s) =>
        ⟨(json.fromSlice body).mapError fun e => .serialization s!"JSON decode: {e}", s, len⟩
    else
      ⟨.error (.serialization s!"incoming frame too large: {len} bytes (max {maxFrameBytes})"), s,
        0⟩

theorem result_readNext (s : Stream) : (readNext json s).result = readFrame json s := by
  unfold readNext readFrame
  rcases s.readExact 4 with (_ | _) | ⟨lenBuf, s⟩
  · rfl
  · rfl
  · by_cases hlen : ofBeBytes lenBuf ≤ maxFrameBytes
    · simp only [Except.mapError, ensure, if_pos hlen, bind, Except.bind]
      rcases s.readExact (ofBeBytes lenBuf) with _ | ⟨_, _⟩ <;> rfl
    · simp only [Except.mapError, ensure, if_neg hlen, bind, Except.bind]

def readFrames : ℕ → Stream → List (Except NetworkError α)
  | 0, _ => []
  | calls + 1, s =>
    match (readNext json s).result with
    | .error e => [.error e]
    | .ok value => .ok value :: readFrames calls (readNext json s).rest

/-- At most the limit is allocated, and only the own frame is read. -/
def OwnFrame (s : Stream) : Prop :=
  (readNext json s).allocated ≤ maxFrameBytes ∧
    ∃ used, s.incoming = used ++ (readNext json s).rest.incoming ∧
      used.length ≤ 4 + ofBeBytes (s.incoming.take 4)

theorem readExact_eq_ok {s s' : Stream} {n : ℕ} {bs : Bytes} (h : s.readExact n = .ok (bs, s')) :
    s.incoming = bs ++ s'.incoming ∧ bs = s.incoming.take n := by
  unfold Stream.readExact at h
  split at h
  · obtain ⟨rfl, rfl⟩ := Prod.mk.inj (Except.ok.inj h)
    exact ⟨(List.take_append_drop n _).symm, rfl⟩
  · cases h

theorem length_lt_of_readExact {s : Stream} {n : ℕ} {e : ReadError} (h : s.readExact n = .error e) :
    s.incoming.length < n := by
  unfold Stream.readExact at h
  split at h
  · cases h
  · omega

theorem ownFrame (s : Stream) : OwnFrame json s := by
  unfold OwnFrame readNext
  cases hlen : s.readExact 4 with
  | error e =>
    have hshort := length_lt_of_readExact hlen
    cases e <;> exact ⟨Nat.zero_le _, s.incoming, (List.append_nil _).symm, by omega⟩
  | ok p =>
    obtain ⟨happend, hbuf⟩ := readExact_eq_ok hlen
    have hfour : p.1.length ≤ 4 := by
      rw [hbuf]
      exact List.length_take_le ..
    dsimp only
    rw [← hbuf]
    split
    · next hmax =>
      cases hbody : p.2.readExact (ofBeBytes p.1) with
      | error e =>
        have hshort := length_lt_of_readExact hbody
        refine ⟨hmax, s.incoming, (List.append_nil _).symm, ?_⟩
        rw [happend, List.length_append]
        omega
      | ok q =>
        obtain ⟨happend', hbody'⟩ := readExact_eq_ok hbody
        refine ⟨hmax, p.1 ++ q.1, by rw [happend, happend', List.append_assoc], ?_⟩
        have htake : q.1.length ≤ ofBeBytes p.1 := by
          rw [hbody']
          exact List.length_take_le ..
        rw [List.length_append]
        omega
    · exact ⟨Nat.zero_le _, p.1, happend, by omega⟩

variable {json} {value : α} {body frame : Bytes}

theorem exists_of_writeFrame {s : Stream} (h : writeFrame json value s = .ok frame) :
    ∃ body, json.toVec value = .ok body ∧ body.length % 2 ^ 32 ≤ maxFrameBytes ∧
      frame = beBytes 4 (body.length % 2 ^ 32) ++ body := by
  simp only [writeFrame, do_eq_ok] at h
  obtain ⟨body, hbody, -, hmax, hout⟩ := h
  refine ⟨body, hbody, hmax, ?_⟩
  split at hout
  · cases hout
  · exact (Except.ok.inj hout).symm

theorem readNext_frame (json : Json α) (rest : Bytes)
    (hmax : body.length % 2 ^ 32 ≤ maxFrameBytes) :
    readNext json ⟨none, beBytes 4 (body.length % 2 ^ 32) ++ body ++ rest, none⟩ =
      ⟨(json.fromSlice (body.take (body.length % 2 ^ 32))).mapError
          fun e => .serialization s!"JSON decode: {e}",
        ⟨none, body.drop (body.length % 2 ^ 32) ++ rest, none⟩, body.length % 2 ^ 32⟩ := by
  have hle : body.length % 2 ^ 32 ≤ body.length := Nat.mod_le ..
  have hread := Stream.readExact_append ⟨none, _, none⟩ (beBytes 4 (body.length % 2 ^ 32))
    (List.append_assoc _ body rest)
  rw [length_beBytes] at hread
  have hvalue : ofBeBytes (beBytes 4 (body.length % 2 ^ 32)) = body.length % 2 ^ 32 := by
    rw [ofBeBytes_beBytes]
    exact Nat.mod_mod _ _
  have hbody : (⟨none, body ++ rest, none⟩ : Stream).readExact (body.length % 2 ^ 32) =
      .ok (body.take (body.length % 2 ^ 32),
        ⟨none, body.drop (body.length % 2 ^ 32) ++ rest, none⟩) := by
    have hpos : body.length % 2 ^ 32 ≤ (body ++ rest).length := by
      rw [List.length_append]
      omega
    rw [Stream.readExact, if_pos hpos, List.take_append_of_le_length hle,
      List.drop_append_of_le_length hle]
  simp only [readNext, hread, hvalue, if_pos hmax, hbody]

/-- **What was written is read back**, each frame by its own call. -/
def FrameStream (json : Json α) (values : List α) (frames : List Bytes) : Prop :=
  readFrames json (values.length + 1) ⟨none, frames.flatten, none⟩ =
      values.map .ok ++ [.error .channelClosed] ∧
    ∀ s, OwnFrame json s

/-- **When a stream of frames is read back**: exactly if the length of every body fits 32 bits. Of
the JSON library this needs that a text is parsed to the value it was printed from, and that no
value comes out of a part of a text too long for the header. (Of a shorter text one can: a part of
a number is a number.) -/
theorem frameStream_iff
    (hround : ∀ value body, json.toVec value = .ok body → json.fromSlice body = .ok value)
    (htruncated : ∀ value body n, json.toVec value = .ok body → 2 ^ 32 ≤ body.length →
      n < body.length → json.fromSlice (body.take n) ≠ .ok value)
    {values : List α} {frames : List Bytes} {sink : Stream}
    (hwrite : values.mapM (fun value => writeFrame json value sink) = .ok frames) :
    FrameStream json values frames ↔
      ∀ value ∈ values, ∀ body, json.toVec value = .ok body → body.length < 2 ^ 32 := by
  refine (and_iff_left (ownFrame json)).trans ?_
  induction values generalizing frames with
  | nil =>
    obtain rfl : [] = frames := Except.ok.inj hwrite
    exact iff_of_true rfl fun _ h => absurd h List.not_mem_nil
  | cons value values ih =>
    simp only [List.mapM_cons, bind_eq_ok, pure_eq_ok] at hwrite
    obtain ⟨frame, hframe, frames, hframes, rfl⟩ := hwrite
    obtain ⟨body, hbody, hmax, rfl⟩ := exists_of_writeFrame hframe
    have hread := readNext_frame json frames.flatten hmax
    rw [List.flatten_cons, List.length_cons, readFrames, hread, List.map_cons, List.cons_append,
      List.forall_mem_cons]
    rcases lt_or_ge body.length (2 ^ 32) with hlt | hge
    · rw [Nat.mod_eq_of_lt hlt, List.take_length, List.drop_length, hround value body hbody]
      refine Iff.trans ?_ (and_iff_right fun b hb => by
        rwa [← Except.ok.inj (hbody.symm.trans hb)]).symm
      refine Iff.trans ?_ (ih hframes)
      simp [Except.mapError]
    · -- The reader decodes a part of the body.
      have hpart : body.length % 2 ^ 32 < body.length :=
        (Nat.mod_lt _ (by decide)).trans_le hge
      have hne := htruncated value body _ hbody hge hpart
      refine iff_of_false (fun heq => ?_) fun h => absurd (h.1 body hbody) (not_lt.2 hge)
      split at heq
      · cases (List.cons.inj heq).1
      · next v hv =>
        obtain rfl : v = value := Except.ok.inj (List.cons.inj heq).1
        exact hne (mapError_eq_ok.1 hv)

/-! ### A small value and a large one -/

def textOfLength (n : ℕ) : Json Unit where
  toVec _ := .ok (List.replicate n 0x20)
  fromSlice text := ensure (text.length = n) "EOF while parsing a value"

theorem fromSlice_textOfLength {n : ℕ} {text : Bytes} {u : Unit} :
    (textOfLength n).fromSlice text = .ok u ↔ text.length = n := ensure_eq_ok

theorem frameStream_iff_short : FrameStream (textOfLength 1) [(), ()] [[0, 0, 0, 1, 0x20],
    [0, 0, 0, 1, 0x20]] := by
  have hwrite : [(), ()].mapM (fun value => writeFrame (textOfLength 1) value ⟨none, [], none⟩) =
      .ok [[0, 0, 0, 1, 0x20], [0, 0, 0, 1, 0x20]] := rfl
  refine (frameStream_iff ?_ ?_ hwrite).2 ?_
  · rintro _ body ⟨⟩
    rfl
  · rintro _ body n ⟨⟩ hlong
    exact absurd hlong (by decide)
  · rintro _ - body ⟨⟩
    decide

/-- **A text of `2 ^ 32` bytes** is not read back. -/
theorem not_frameStream_long : ∃ frame,
    writeFrame (textOfLength (2 ^ 32)) () ⟨none, [], none⟩ = .ok frame ∧
      ¬ FrameStream (textOfLength (2 ^ 32)) [()] [frame] := by
  obtain ⟨n, hn⟩ : ∃ n : ℕ, n = 2 ^ 32 := ⟨_, rfl⟩
  rw [← hn]
  have hlength : (List.replicate n (0x20 : UInt8)).length % 2 ^ 32 = 0 := by
    rw [List.length_replicate, hn, Nat.mod_self]
  have hmax := hlength.trans_le (Nat.zero_le maxFrameBytes)
  refine ⟨beBytes 4 ((List.replicate n (0x20 : UInt8)).length % 2 ^ 32) ++ List.replicate n 0x20,
    ?_, fun h => ?_⟩
  · simp only [writeFrame, textOfLength, bind_eq_ok, mapError_eq_ok, ensure_eq_ok]
    exact ⟨_, rfl, (), hmax, rfl⟩
  · have hread := readNext_frame (textOfLength n) [] hmax
    have hres := h.1
    rw [List.flatten_singleton, ← List.append_nil (beBytes 4 _ ++ _), readFrames, hread] at hres
    split at hres
    · cases (List.cons.inj hres).1
    · next v hv =>
      have hzero := fromSlice_textOfLength.1 (mapError_eq_ok.1 hv)
      rw [hlength, List.take_zero, List.length_nil, hn] at hzero
      exact absurd hzero (by decide)

end Codec

end TlsAttestation
