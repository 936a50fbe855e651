import TlsAttestation.Core.Hash

/-!
# The body of a request

The buffer is searched for the end of the headers only if all of it is UTF-8, so a body that is not
hides them; and bytes after the body that come with its last read are taken for a part of it.
`readsBody_iff` says when neither happens.
-/

namespace TlsAttestation.HttpBody

open ByteEncoding List

/-! ### Strings

What the function uses of the standard library, on the bytes of a string. -/

/-- The bytes that continue a character. -/
def tail : UInt8 × UInt8 := (0x80, 0xBF)

/-- The ranges of the bytes that have to follow the first byte of a character. The second is in a
smaller one where the character would be a surrogate, out of range, or have a shorter form. -/
def owed (b : UInt8) : Option (List (UInt8 × UInt8)) :=
  if b ≤ 0x7F then some []
  else if b < 0xC2 then none
  else if b ≤ 0xDF then some [tail]
  else if b = 0xE0 then some [(0xA0, 0xBF), tail]
  else if b = 0xED then some [(0x80, 0x9F), tail]
  else if b ≤ 0xEF then some [tail, tail]
  else if b = 0xF0 then some [(0x90, 0xBF), tail, tail]
  else if b ≤ 0xF3 then some [tail, tail, tail]
  else if b = 0xF4 then some [(0x80, 0x8F), tail, tail]
  else none

/-- One byte of a text: it is in the range that is owed, or starts a character. -/
def utf8Step : List (UInt8 × UInt8) → UInt8 → Option (List (UInt8 × UInt8))
  | [], b => owed b
  | range :: ranges, b => if range.1 ≤ b ∧ b ≤ range.2 then some ranges else none

/-- `str::from_utf8` succeeds: every byte is in its range, and none is owed at the end. -/
def isUtf8 (bs : Bytes) : Bool := bs.foldlM utf8Step [] = some []

variable (s : Bytes)

/-- `str::lines`: a line ends with a line feed, and a carriage return before it is cut off, too. -/
def lines : List Bytes :=
  let pieces := s.splitOn 10
  pieces.dropLast.map (fun l => if l.getLast? = some 13 then l.dropLast else l) ++
    pieces.getLast?.toList.filter (· ≠ [])

/-- `str::to_lowercase`, for ASCII. Of other characters only two have ASCII letters in their lower
cases, `i` and `k`, and the name that is looked for has neither. -/
def toLowercase : Bytes := s.map fun b => if 65 ≤ b ∧ b ≤ 90 then b + 32 else b

/-- The characters that `char::is_whitespace` holds of, in UTF-8. -/
def blanks : List Bytes :=
  ([9, 10, 11, 12, 13, 0x20, 0x85, 0xA0, 0x1680, 0x2028, 0x2029, 0x202F, 0x205F, 0x3000] ++
    range' 0x2000 11).map fun n => String.utf8EncodeChar (.ofNat n)

def trimStart (blanks : List Bytes) : ℕ → Bytes → Bytes
  | 0, s => s
  | turns + 1, s =>
    match blanks.find? (·.isPrefixOf s) with
    | some w => trimStart blanks turns (s.drop w.length)
    | none => s

/-- `str::trim`: from the left, and on the reversed bytes from the right. -/
def trim : Bytes :=
  let s := trimStart blanks s.length s
  (trimStart (blanks.map reverse) s.length s.reverse).reverse

/-- `usize::from_str`: digits, with a plus sign or without, of a value below `2 ^ 64`. -/
def parse : Option ℕ :=
  let digits := if s.head? = some 43 then s.tail else s
  let n := digits.foldl (fun n b => 10 * n + (b.toNat - 48)) 0
  if digits ≠ [] ∧ digits.all (fun b => 48 ≤ b ∧ b ≤ 57) ∧ n < 2 ^ 64 then some n else none

/-! ### The two loops -/

/-- A connection: what will arrive, how it ends, and how much the next reads return. -/
structure TcpStream where
  incoming : Bytes
  readFailure : Option String
  sizes : List ℕ

/-- A read returns one byte at least, while there are any. -/
def TcpStream.read (s : TcpStream) (room : ℕ) : Except String (Bytes × TcpStream) :=
  match s.incoming, s.readFailure with
  | [], some e => .error e
  | [], none => .ok ([], s)
  | _ :: _, _ =>
    let n := min room (max 1 (s.sizes.headD room))
    .ok (s.incoming.take n, { s with incoming := s.incoming.drop n, sizes := s.sizes.tail })

def terminator : Bytes := [13, 10, 13, 10]

def find (data : Bytes) : Option ℕ :=
  (List.range data.length).find? fun i => terminator.isPrefixOf (data.drop i)

def bufLen : ℕ := 8192

/-- The first loop: read and search the buffer, until it has the terminator or is full. It returns
the headers, where the body starts, and the buffer. -/
def readHeaders :
    ℕ → Bytes → TcpStream → Except String (Bytes × ℕ × Bytes × TcpStream)
  | 0, buf, s => .ok ([], 0, buf, s)
  | turns + 1, buf, s => do
    let (read, s) ← s.read (bufLen - buf.length)
    if read = [] then return ([], 0, buf, s)
    let buf := buf ++ read
    let data := if isUtf8 buf then buf else []
    match find data with
    | some pos => return (data.take pos, pos + 4, buf, s)
    | none =>
      if bufLen ≤ buf.length then throw "request too large" else readHeaders turns buf s

/-- The value of the first line that starts with the name, however it is written. -/
def declaredLength (headers : Bytes) : Option ℕ := do
  let line ← (lines headers).find? fun l =>
    (strBytes "content-length:").isPrefixOf (toLowercase l)
  let value ← (line.splitOn 58)[1]?
  parse (trim value)

/-- The second loop: read on until the body is long enough. A turn adds a byte at least. -/
def readRest (contentLength : ℕ) : ℕ → Bytes → TcpStream → Except String Bytes
  | 0, body, _ => .ok body
  | turns + 1, body, s =>
    if body.length < contentLength then do
      let (chunk, s) ← s.read 4096
      if chunk = [] then return body
      readRest contentLength turns (body ++ chunk) s
    else .ok body

/-- The body of a request. Without a length it is what was read with the headers. -/
def readHttpBody (s : TcpStream) : Except String Bytes := do
  let (headers, bodyStart, buf, s) ← readHeaders bufLen [] s
  let contentLength := (declaredLength headers).getD 0
  readRest contentLength contentLength (buf.drop bodyStart) s

/-! ### Texts -/

theorem low_of_owed {b : UInt8} {q : List (UInt8 × UInt8)} (h : owed b = some q) :
    ∀ range ∈ q, 0x80 ≤ range.1 := by
  unfold owed at h
  split_ifs at h <;> (obtain rfl := Option.some.inj h; simp [tail])

theorem low_of_foldlM {bs : Bytes} {p q : List (UInt8 × UInt8)} (hp : ∀ range ∈ p, 0x80 ≤ range.1)
    (h : bs.foldlM utf8Step p = some q) : ∀ range ∈ q, 0x80 ≤ range.1 := by
  induction bs generalizing p with
  | nil => exact Option.some.inj h ▸ hp
  | cons b bs ih =>
    obtain ⟨p', hstep, hrest⟩ := Option.bind_eq_some_iff.1 h
    refine ih ?_ hrest
    cases p with
    | nil => exact low_of_owed hstep
    | cons range ranges =>
      simp only [utf8Step, Option.ite_none_right_eq_some, Option.some.injEq] at hstep
      exact hstep.2 ▸ (forall_mem_cons.1 hp).2

/-- An ASCII character is not in a range that is owed, so a text can be cut before it. -/
theorem isUtf8_of_append {a b : Bytes} {c : UInt8} (hc : c < 0x80) (h : isUtf8 (a ++ c :: b)) :
    isUtf8 a := by
  obtain ⟨q, hq, hrest⟩ := Option.bind_eq_some_iff.1
    ((foldlM_append ..).symm.trans (of_decide_eq_true h))
  obtain ⟨q', hstep, -⟩ := Option.bind_eq_some_iff.1 hrest
  refine decide_eq_true (hq.trans ?_)
  cases q with
  | nil => rfl
  | cons range ranges =>
    have hlow := low_of_foldlM (by simp) hq range mem_cons_self
    simp only [utf8Step, Option.ite_none_right_eq_some] at hstep
    exact absurd (UInt8.le_trans hlow hstep.1.1) (UInt8.not_le.2 hc)

theorem isUtf8_append_terminator {a b : Bytes} (h : isUtf8 (a ++ terminator ++ b)) :
    isUtf8 (a ++ terminator) := by
  rw [append_assoc] at h
  have ha := of_decide_eq_true (isUtf8_of_append (by decide) h)
  rw [isUtf8, foldlM_append, ha]
  rfl

/-! ### One read -/

variable {request : Bytes} {failure : Option String} {sizes : List ℕ} {pos n t room : ℕ}

theorem read_eq (h : request ≠ [])
    (hn : min (min room (max 1 (sizes.headD room))) request.length = n) :
    TcpStream.read ⟨request, failure, sizes⟩ room =
      .ok (request.take n, ⟨request.drop n, failure, sizes.tail⟩) := by
  obtain ⟨b, bs, rfl⟩ := exists_cons_of_ne_nil h
  rw [← hn, ← take_eq_take_min, ← drop_eq_drop_min]
  rfl

theorem exists_read (failure : Option String) (sizes : List ℕ) (h : request ≠ [])
    (hroom : 0 < room) :
    ∃ n sizes', 0 < n ∧ n ≤ room ∧ n ≤ request.length ∧
      TcpStream.read ⟨request, failure, sizes⟩ room =
        .ok (request.take n, ⟨request.drop n, failure, sizes'⟩) := by
  have hpos := length_pos_iff.2 h
  exact ⟨_, _, by omega, by omega, Nat.min_le_right .., read_eq h rfl⟩

/-! ### The end of the headers -/

theorem find_eq_some {data : Bytes} :
    find data = some pos ↔
      terminator <+: data.drop pos ∧ ∀ i < pos, ¬ terminator <+: data.drop i := by
  rw [find, List.find?_range_eq_some]
  simp only [ isPrefixOf_iff_prefix, mem_range, Bool.not_eq_true', Bool.eq_false_iff, ne_eq]
  refine ⟨fun h => ⟨h.1, h.2.2⟩, fun h => ⟨h.1, ?_, h.2⟩⟩
  have hlength := h.1.length_le
  rw [length_drop] at hlength
  exact Nat.lt_of_sub_pos (Nat.lt_of_lt_of_le (by decide) hlength)

theorem le_length_of_find (hfind : find request = some pos) : pos + 4 ≤ request.length := by
  have hlength := (find_eq_some.1 hfind).1.length_le
  rw [length_drop] at hlength
  change 4 ≤ _ at hlength
  omega

theorem terminator_drop_take {data : Bytes} {i : ℕ} :
    terminator <+: (data.take t).drop i ↔ terminator <+: data.drop i ∧ i + 4 ≤ t := by
  rw [drop_take, prefix_take_iff]
  refine and_congr_right fun _ => ?_
  change 4 ≤ t - i ↔ _
  omega

/-- The terminator is found once all of it is read. -/
theorem find_take (hfind : find request = some pos) (t : ℕ) :
    find (request.take t) = if pos + 4 ≤ t then some pos else none := by
  rw [find_eq_some] at hfind
  split
  · next ht =>
    simp only [find_eq_some, terminator_drop_take]
    exact ⟨⟨hfind.1, ht⟩, fun i hi h => hfind.2 i hi h.1⟩
  · next ht =>
    refine Option.eq_none_iff_forall_ne_some.2 fun i hi => ht ?_
    simp only [find_eq_some, terminator_drop_take] at hi
    have hle : pos ≤ i := le_of_not_gt fun hlt => hfind.2 i hlt hi.1.1
    omega

theorem readHeaders_turn (turns : ℕ) (hfind : find request = some pos)
    {sizes' : List ℕ} (hn : 0 < n) (htn : t + n ≤ request.length)
    (hread : TcpStream.read ⟨request.drop t, failure, sizes⟩ (bufLen - t) =
      .ok ((request.drop t).take n, ⟨(request.drop t).drop n, failure, sizes'⟩)) :
    readHeaders (turns + 1) (request.take t) ⟨request.drop t, failure, sizes⟩ =
      if isUtf8 (request.take (t + n)) ∧ pos + 4 ≤ t + n then
        .ok (request.take pos, pos + 4, request.take (t + n),
          ⟨request.drop (t + n), failure, sizes'⟩)
      else if bufLen ≤ t + n then .error "request too large"
      else
        readHeaders turns (request.take (t + n)) ⟨request.drop (t + n), failure, sizes'⟩ := by
  have hlength (k : ℕ) (hk : k ≤ request.length) : (request.take k).length = k :=
    length_take_of_le hk
  have hne : (request.drop t).take n ≠ [] := by
    rw [← length_pos_iff, length_take, length_drop]
    omega
  rw [readHeaders, hlength t (by omega), hread]
  simp only [bind, Except.bind, if_neg hne, ← take_add, drop_drop, hlength _ htn]
  by_cases hutf8 : isUtf8 (request.take (t + n))
  · by_cases hpos : pos + 4 ≤ t + n
    · simp only [hutf8, if_true, find_take hfind, if_pos hpos, true_and, take_take,
        min_eq_left (show pos ≤ t + n by omega)]
      rfl
    · simp only [hutf8, if_true, find_take hfind, if_neg hpos, true_and]
      rfl
  · simp only [hutf8, Bool.false_eq_true, if_false, false_and]
    rfl

/-- **The headers are found**, however the bytes come. -/
theorem exists_readHeaders (failure : Option String) (sizes : List ℕ)
    (hfind : find request = some pos) (hfits : pos + 4 ≤ bufLen)
    (hutf8 : isUtf8 (request.take bufLen)) {turns : ℕ} (hturns : bufLen ≤ turns + t)
    (ht : t < bufLen) (hlen : t < request.length) :
    ∃ t' sizes', pos + 4 ≤ t' ∧ t' ≤ bufLen ∧ t' ≤ request.length ∧
      readHeaders turns (request.take t) ⟨request.drop t, failure, sizes⟩ =
        .ok (request.take pos, pos + 4, request.take t', ⟨request.drop t', failure, sizes'⟩) := by
  induction turns generalizing t sizes with
  | zero => omega
  | succ turns ih =>
    have hne : request.drop t ≠ [] := fun h => absurd (drop_eq_nil_iff.1 h) (not_le.2 hlen)
    obtain ⟨n, sizes', hn, hroom, hle, hread⟩ :=
      exists_read failure sizes hne (show 0 < bufLen - t by omega)
    rw [length_drop] at hle
    rw [readHeaders_turn turns hfind hn (by omega) hread]
    split
    · next h => exact ⟨t + n, sizes', h.2, by omega, by omega, rfl⟩
    · next h =>
      -- The last read fills the buffer or ends the request; then the whole of it is searched.
      have hmore : t + n < bufLen ∧ t + n < request.length := by
        by_contra hfull
        have htake : request.take (t + n) = request.take bufLen := by
          rcases Nat.lt_or_ge (t + n) bufLen with hlt | hge
          · rw [take_of_length_le (by omega), take_of_length_le (by omega)]
          · rw [show t + n = bufLen by omega]
        have hend := le_length_of_find hfind
        exact h ⟨htake ▸ hutf8, by omega⟩
      rw [if_neg (by omega)]
      exact ih sizes' (by omega) hmore.1 hmore.2

/-! ### The body -/

/-- The second loop reads all there is. -/
theorem readRest_all {turns : ℕ} {body rest : Bytes} (hlen : (body ++ rest).length = n)
    (hturns : n ≤ turns + body.length) :
    readRest n turns body ⟨rest, failure, sizes⟩ = .ok (body ++ rest) := by
  induction turns generalizing body rest sizes with
  | zero =>
    rw [length_append] at hlen
    rw [length_eq_zero_iff.1 (show rest.length = 0 by omega), append_nil]
    rfl
  | succ turns ih =>
    rw [readRest]
    split
    · next hlt =>
      have hrest : rest ≠ [] := by
        rintro rfl
        rw [append_nil] at hlen
        omega
      obtain ⟨k, sizes', hk, -, hle, hread⟩ :=
        exists_read failure sizes hrest (show 0 < 4096 by decide)
      have hne : rest.take k ≠ [] := by
        rw [← length_pos_iff, length_take_of_le hle]
        exact hk
      simp only [hread, bind, Except.bind, if_neg hne]
      rw [ih (by rwa [append_assoc, take_append_drop]) ?_, append_assoc, take_append_drop]
      rw [length_append, length_take_of_le hle]
      omega
    · next hge =>
      rw [length_append] at hlen
      rw [length_eq_zero_iff.1 (show rest.length = 0 by omega), append_nil]

theorem readRest_end {turns : ℕ} (body : Bytes) :
    readRest n turns body ⟨[], none, sizes⟩ = .ok body := by
  cases turns with
  | zero => rfl
  | succ turns =>
    rw [readRest]
    split <;> rfl

theorem readRest_tooMany {k : ℕ} {body rest : Bytes} (hlen : body.length + k + 1 = n)
    (hmore : k + 2 ≤ rest.length) :
    readRest n (k + 1) body ⟨rest, failure, List.replicate k 1 ++ [2]⟩ =
      .ok (body ++ rest.take (k + 2)) := by
  have hrest : rest ≠ [] := ne_nil_of_length_pos (by omega)
  induction k generalizing body rest with
  | zero =>
    have hne : rest.take 2 ≠ [] := ne_nil_of_length_pos (by rw [length_take]; omega)
    rw [readRest, if_pos (by omega), read_eq hrest (show _ = 2 by simp; omega)]
    simp only [bind, Except.bind, if_neg hne]
    rfl
  | succ k ih =>
    have hne : rest.take 1 ≠ [] := ne_nil_of_length_pos (by rw [length_take]; omega)
    have hone : min (min 4096 (max 1 ((List.replicate (k + 1) 1 ++ [2]).headD 4096))) rest.length =
        1 := by
      rw [replicate_succ]
      simp
      omega
    rw [readRest, if_pos (by omega), read_eq hrest hone]
    simp only [bind, Except.bind, if_neg hne]
    rw [replicate_succ, cons_append, tail_cons, ih]
    · rw [append_assoc, ← take_add, Nat.add_comm 1]
    · rw [length_append, length_take]
      omega
    · rw [length_drop]
      omega
    · exact ne_nil_of_length_pos (by rw [length_drop]; omega)

/-- **However the stream is split**, the body is returned. -/
def ReadsBody (request : Bytes) (pos n : ℕ) : Prop :=
  ∀ failure sizes, readHttpBody ⟨request, failure, sizes⟩ = .ok ((request.drop (pos + 4)).take n)

theorem readHttpBody_of_readHeaders (hdecl : declaredLength (request.take pos) = some n)
    {sizes' : List ℕ}
    (hhead : readHeaders bufLen [] ⟨request, failure, sizes⟩ =
      .ok (request.take pos, pos + 4, request.take t, ⟨request.drop t, failure, sizes'⟩)) :
    readHttpBody ⟨request, failure, sizes⟩ =
      readRest n n ((request.take t).drop (pos + 4)) ⟨request.drop t, failure, sizes'⟩ := by
  simp only [readHttpBody, hhead, bind, Except.bind, hdecl, Option.getD_some]

theorem readsBody_of (hfind : find request = some pos) (hfits : pos + 4 ≤ bufLen)
    (hdecl : declaredLength (request.take pos) = some n) (hutf8 : isUtf8 (request.take bufLen))
    (hend : request.length = pos + 4 + n ∨ n = 0 ∧ pos + 4 = bufLen) :
    ReadsBody request pos n := by
  intro failure sizes
  have hlen := le_length_of_find hfind
  obtain ⟨t, sizes', hpos, ht, htlen, hhead⟩ :=
    exists_readHeaders failure sizes (t := 0) hfind hfits hutf8 le_rfl (by decide) (by omega)
  rw [readHttpBody_of_readHeaders hdecl hhead]
  rcases hend with hend | ⟨rfl, hend⟩
  · have hbody : (request.take t).drop (pos + 4) ++ request.drop t = request.drop (pos + 4) := by
      rw [← drop_append_of_le_length (by rw [length_take]; omega), take_append_drop]
    rw [readRest_all (by rw [hbody, length_drop]; omega) (Nat.le_add_right ..), hbody,
      take_of_length_le (by rw [length_drop]; omega)]
  · rw [drop_of_length_le (by rw [length_take]; omega), take_zero]
    rfl

theorem readHeaders_start (failure : Option String) (hfind : find request = some pos)
    (ht : min (min bufLen (max 1 (sizes.headD bufLen))) request.length = t) :
    readHeaders bufLen [] ⟨request, failure, sizes⟩ = if isUtf8 (request.take t) ∧ pos + 4 ≤ t then
        .ok (request.take pos, pos + 4, request.take t, ⟨request.drop t, failure, sizes.tail⟩)
      else if bufLen ≤ t then .error "request too large"
      else readHeaders 8191 (request.take t) ⟨request.drop t, failure, sizes.tail⟩ := by
  have hlen := le_length_of_find hfind
  have hpos : 0 < bufLen := by decide
  have hread : TcpStream.read ⟨request, failure, sizes⟩ bufLen = _ :=
    read_eq (ne_nil_of_length_pos (by omega)) ht
  have hturn := readHeaders_turn 8191 (t := 0) hfind (by omega) (by omega) hread
  rw [Nat.zero_add] at hturn
  exact hturn

theorem readHttpBody_start (failure : Option String) (hfind : find request = some pos)
    (hdecl : declaredLength (request.take pos) = some n)
    (ht : min (min bufLen (max 1 (sizes.headD bufLen))) request.length = t) (hpos : pos + 4 ≤ t)
    (hutf8 : isUtf8 (request.take t)) :
    readHttpBody ⟨request, failure, sizes⟩ =
      readRest n n ((request.take t).drop (pos + 4)) ⟨request.drop t, failure, sizes.tail⟩ :=
  readHttpBody_of_readHeaders hdecl
    ((readHeaders_start failure hfind ht).trans (if_pos ⟨hutf8, hpos⟩))

theorem isUtf8_of_readsBody (hfind : find request = some pos) (hlen : pos + 4 + n ≤ request.length)
    (h : ReadsBody request pos n) : isUtf8 (request.take bufLen) := by
  by_contra hutf8
  have hall := h none []
  have hhead : readHeaders bufLen [] ⟨request, none, []⟩ = _ :=
    readHeaders_start none hfind rfl
  simp only [headD_nil, max_eq_right (show 1 ≤ bufLen by decide), min_self,
    ← take_eq_take_min, hutf8, false_and, if_false] at hhead
  split at hhead
  · rw [readHttpBody, hhead] at hall
    cases hall
  · -- The next read is the end of the stream, and the whole request is taken for the body.
    next hshort =>
    rw [min_eq_right (by omega), drop_length, take_of_length_le (by omega)] at hhead
    rw [readHttpBody, hhead] at hall
    have hbody := congrArg List.length (Except.ok.inj ((readRest_end _).symm.trans hall))
    rw [drop_zero, length_take, length_drop] at hbody
    omega

/-- **When the body is read**: if what comes first is UTF-8, and nothing follows the body. -/
theorem readsBody_iff (hfind : find request = some pos) (hfits : pos + 4 ≤ bufLen)
    (hdecl : declaredLength (request.take pos) = some n) (hlen : pos + 4 + n ≤ request.length) :
    ReadsBody request pos n ↔ isUtf8 (request.take bufLen) ∧
      (request.length = pos + 4 + n ∨ n = 0 ∧ pos + 4 = bufLen) := by
  refine ⟨fun h => ?_, fun h => readsBody_of hfind hfits hdecl h.1 h.2⟩
  have hutf8 := isUtf8_of_readsBody hfind hlen h
  refine ⟨hutf8, or_iff_not_imp_left.2 fun hmore => ?_⟩
  have hbuf : 1 ≤ bufLen := by decide
  rcases n with _ | n
  · -- A single read takes what is there.
    have hread := h none []
    rw [readHttpBody_start none hfind hdecl (t := min bufLen request.length) (by simp [hbuf])
      (by omega) (by rwa [← List.take_eq_take_min])] at hread
    have hbody := congrArg List.length (Except.ok.inj hread)
    rw [List.length_drop, List.length_take, List.take_zero, List.length_nil] at hbody
    omega
  · -- The first read ends with the headers, and the last one goes beyond the body.
    have hterm : request.take (pos + 4) = request.take pos ++ terminator := by
      obtain ⟨rest, hrest⟩ := (find_eq_some.1 hfind).1
      rw [List.take_add, ← hrest]
      rfl
    have hhead : isUtf8 (request.take (pos + 4)) := by
      refine hterm ▸ isUtf8_append_terminator (b := (request.drop (pos + 4)).take
        (bufLen - (pos + 4))) ?_
      rw [← hterm, ← List.take_add]
      rwa [Nat.add_sub_cancel' hfits]
    have hread := h none ((pos + 4) :: (List.replicate n 1 ++ [2]))
    rw [readHttpBody_start none hfind hdecl (t := pos + 4) (by simp; omega) le_rfl hhead,
      List.tail_cons, List.drop_of_length_le (List.length_take_le ..),
      readRest_tooMany (by simp) (by rw [List.length_drop]; omega)] at hread
    have hbody := congrArg List.length (Except.ok.inj hread)
    rw [List.nil_append, List.length_take, List.length_take, List.length_drop] at hbody
    omega

/-! ### A text and a binary body -/

def requestOf (body : Bytes) : Bytes :=
  [67, 111, 110, 116, 101, 110, 116, 45, 76, 101, 110, 103, 116, 104, 58, 32, 50] ++ terminator ++
    body

theorem readsBody_iff_text : ReadsBody (requestOf [104, 105]) 17 2 := by
  exact (readsBody_iff (by decide) (by decide) (by decide) (by decide)).2
    ⟨by decide, Or.inl (by decide)⟩

/-- **A body that is not UTF-8** comes with its headers. -/
theorem not_readsBody_binary : ¬ ReadsBody (requestOf [0xFF, 0xFE]) 17 2 := by
  intro h
  have hread := h none []
  have hwhole : readHttpBody ⟨requestOf [0xFF, 0xFE], none, []⟩ =
      .ok (requestOf [0xFF, 0xFE]) := by decide
  rw [hwhole] at hread
  exact absurd (Except.ok.inj hread) (by decide)

end TlsAttestation.HttpBody
