import StockImport.Library.PyText

/-!
# UTF-8 with a signature and escaped bytes

The incremental decoder behind a text stream opened with encoding `utf-8-sig`
and error handler `surrogateescape`.  It is fed one piece of bytes after the
other; what an unfinished sequence has shown so far waits in the decoder.  A
byte that cannot be decoded comes out as the lone surrogate `0xDC00 + byte`.

Characters are code points.  Feeding is a fold over the bytes, so how the bytes
are cut into pieces cannot be seen in the text (`Decoder.feed_append`).
-/

set_option autoImplicit false

namespace Utf8Escape

open PyText

def escape (byte : UInt8) : Nat := 0xDC00 + byte.toNat

def isContinuation (byte : UInt8) : Bool :=
  0x80 ≤ byte.toNat && byte.toNat < 0xC0

/-- The second byte a lead byte admits: no overlong form, no surrogate, nothing
above `0x10FFFF`. -/
def admitsSecond (lead second : UInt8) : Bool :=
  isContinuation second &&
    (lead.toNat != 0xE0 || 0xA0 ≤ second.toNat) &&
    (lead.toNat != 0xED || second.toNat < 0xA0) &&
    (lead.toNat != 0xF0 || 0x90 ≤ second.toNat) &&
    (lead.toNat != 0xF4 || second.toNat < 0x90)

def joinTwo (b0 b1 : UInt8) : Nat :=
  (b0.toNat - 0xC0) * 64 + (b1.toNat - 0x80)

def joinThree (b0 b1 b2 : UInt8) : Nat :=
  (b0.toNat - 0xE0) * 4096 + (b1.toNat - 0x80) * 64 + (b2.toNat - 0x80)

def joinFour (b0 b1 b2 b3 : UInt8) : Nat :=
  (b0.toNat - 0xF0) * 262144 + (b1.toNat - 0x80) * 4096 + (b2.toNat - 0x80) * 64 +
    (b3.toNat - 0x80)

/-- The byte after a finished character: a character of its own, an undecodable
byte, or the lead of a sequence that waits for more. -/
def lead (byte : UInt8) : Text × List UInt8 :=
  if byte.toNat < 0x80 then ([byte.toNat], [])
  else if byte.toNat < 0xC2 then ([escape byte], [])
  else if byte.toNat < 0xF5 then ([], [byte])
  else ([escape byte], [])

/-- The sequence `waiting` cannot go on with `byte`: its bytes are escaped and
`byte` starts afresh. -/
def giveUp (waiting : List UInt8) (byte : UInt8) : Text × List UInt8 :=
  (waiting.map escape ++ (lead byte).1, (lead byte).2)

/-- One byte after the unfinished sequence `waiting`. -/
def feedByte (waiting : List UInt8) (byte : UInt8) : Text × List UInt8 :=
  match waiting with
  | [] => lead byte
  | [b0] =>
      if !admitsSecond b0 byte then giveUp waiting byte
      else if b0.toNat < 0xE0 then ([joinTwo b0 byte], [])
      else ([], [b0, byte])
  | [b0, b1] =>
      if !isContinuation byte then giveUp waiting byte
      else if b0.toNat < 0xF0 then ([joinThree b0 b1 byte], [])
      else ([], [b0, b1, byte])
  | b0 :: b1 :: b2 :: _ =>
      if !isContinuation byte then giveUp waiting byte
      else ([joinFour b0 b1 b2 byte], [])

/-- Before the first three bytes are seen the decoder looks for the signature;
`body` holds the unfinished sequence afterwards. -/
inductive Decoder where
  | signature (seen : List UInt8)
  | body (waiting : List UInt8)
  deriving DecidableEq, Repr

def Decoder.start : Decoder := .signature []

def byteOrderMark : List UInt8 := [0xEF, 0xBB, 0xBF]

def feedBody : List UInt8 → List UInt8 → Text × List UInt8
  | waiting, [] => ([], waiting)
  | waiting, byte :: rest =>
      let first := feedByte waiting byte
      let later := feedBody first.2 rest
      (first.1 ++ later.1, later.2)

def Decoder.feedByte (decoder : Decoder) (byte : UInt8) : Text × Decoder :=
  match decoder with
  | .body waiting =>
      ((Utf8Escape.feedByte waiting byte).1, .body (Utf8Escape.feedByte waiting byte).2)
  | .signature seen =>
      if seen ++ [byte] = byteOrderMark then ([], .body [])
      else if (seen ++ [byte]).isPrefixOf byteOrderMark then ([], .signature (seen ++ [byte]))
      else ((feedBody [] (seen ++ [byte])).1, .body (feedBody [] (seen ++ [byte])).2)

def Decoder.feed : Decoder → List UInt8 → Text × Decoder
  | decoder, [] => ([], decoder)
  | decoder, byte :: rest =>
      let first := decoder.feedByte byte
      let later := first.2.feed rest
      (first.1 ++ later.1, later.2)

/-- What comes out once no byte follows.  An unfinished sequence is escaped; a
proper prefix of the signature is given back as no character at all. -/
def Decoder.finish : Decoder → Text
  | .signature _ => []
  | .body waiting => waiting.map escape

/-- The text of a whole byte string. -/
def decode (bytes : List UInt8) : Text :=
  (Decoder.start.feed bytes).1 ++ (Decoder.start.feed bytes).2.finish

theorem Decoder.feed_append (first second : List UInt8) :
    ∀ decoder : Decoder, decoder.feed (first ++ second) =
      ((decoder.feed first).1 ++ ((decoder.feed first).2.feed second).1,
        ((decoder.feed first).2.feed second).2) := by
  induction first with
  | nil => intro decoder; simp [Decoder.feed]
  | cons byte rest ih =>
      intro decoder
      simp only [List.cons_append, Decoder.feed, ih, List.append_assoc]

/-! ## Encoding -/

/-- A Unicode scalar value. -/
def IsScalar (c : Nat) : Prop := c < 0xD800 ∨ (0xE000 ≤ c ∧ c < 0x110000)

instance (c : Nat) : Decidable (IsScalar c) :=
  inferInstanceAs (Decidable (c < 0xD800 ∨ (0xE000 ≤ c ∧ c < 0x110000)))

def encodeChar (c : Nat) : List UInt8 :=
  if c < 0x80 then [UInt8.ofNat c]
  else if c < 0x800 then [UInt8.ofNat (0xC0 + c / 64), UInt8.ofNat (0x80 + c % 64)]
  else if c < 0x10000 then
    [UInt8.ofNat (0xE0 + c / 4096), UInt8.ofNat (0x80 + c / 64 % 64),
      UInt8.ofNat (0x80 + c % 64)]
  else
    [UInt8.ofNat (0xF0 + c / 262144), UInt8.ofNat (0x80 + c / 4096 % 64),
      UInt8.ofNat (0x80 + c / 64 % 64), UInt8.ofNat (0x80 + c % 64)]

def encode (text : Text) : List UInt8 := text.flatMap encodeChar

theorem feedBody_append (first second : List UInt8) : ∀ waiting : List UInt8,
    feedBody waiting (first ++ second) =
      ((feedBody waiting first).1 ++ (feedBody (feedBody waiting first).2 second).1,
        (feedBody (feedBody waiting first).2 second).2) := by
  induction first with
  | nil => intro waiting; simp [feedBody]
  | cons byte rest ih =>
      intro waiting
      simp only [List.cons_append, feedBody, ih, List.append_assoc]

theorem Decoder.feed_body (bytes : List UInt8) : ∀ waiting : List UInt8,
    (Decoder.body waiting).feed bytes =
      ((feedBody waiting bytes).1, .body (feedBody waiting bytes).2) := by
  induction bytes with
  | nil => intro waiting; rfl
  | cons byte rest ih =>
      intro waiting
      simp only [Decoder.feed, Decoder.feedByte, ih, feedBody]

theorem toNat_ofNat_of_lt {n : Nat} (small : n < 256) : (UInt8.ofNat n).toNat = n := by
  simp only [UInt8.toNat_ofNat']
  omega

theorem lead_waits {b0 : UInt8} (low : 0xC2 ≤ b0.toNat) (high : b0.toNat < 0xF5) :
    lead b0 = ([], [b0]) := by
  unfold lead
  rw [if_neg (by omega), if_neg (by omega), if_pos (by omega)]

theorem feedBody_oneByte {c : Nat} {b0 : UInt8} (v0 : b0.toNat = c) (small : c < 0x80) :
    feedBody [] [b0] = ([c], []) := by
  simp [feedBody, feedByte, lead, v0, small]

theorem feedBody_twoBytes {c : Nat} {b0 b1 : UInt8} (low : 0x80 ≤ c) (high : c < 0x800)
    (v0 : b0.toNat = 0xC0 + c / 64) (v1 : b1.toNat = 0x80 + c % 64) :
    feedBody [] [b0, b1] = ([c], []) := by
  have leads : lead b0 = ([], [b0]) := lead_waits (by omega) (by omega)
  have admits : admitsSecond b0 b1 = true := by
    simp only [admitsSecond, isContinuation, Bool.and_eq_true, Bool.or_eq_true,
      decide_eq_true_eq, bne_iff_ne]
    omega
  have joined : joinTwo b0 b1 = c := by
    unfold joinTwo
    omega
  have short : b0.toNat < 0xE0 := by omega
  simp [feedBody, feedByte, leads, admits, joined, short]

theorem feedBody_threeBytes {c : Nat} {b0 b1 b2 : UInt8} (low : 0x800 ≤ c)
    (high : c < 0x10000) (scalar : IsScalar c) (v0 : b0.toNat = 0xE0 + c / 4096)
    (v1 : b1.toNat = 0x80 + c / 64 % 64) (v2 : b2.toNat = 0x80 + c % 64) :
    feedBody [] [b0, b1, b2] = ([c], []) := by
  unfold IsScalar at scalar
  have leads : lead b0 = ([], [b0]) := lead_waits (by omega) (by omega)
  have admits : admitsSecond b0 b1 = true := by
    simp only [admitsSecond, isContinuation, Bool.and_eq_true, Bool.or_eq_true,
      decide_eq_true_eq, bne_iff_ne]
    omega
  have continues : isContinuation b2 = true := by
    simp only [isContinuation, Bool.and_eq_true, decide_eq_true_eq]
    omega
  have joined : joinThree b0 b1 b2 = c := by
    unfold joinThree
    omega
  have long : ¬ b0.toNat < 0xE0 := by omega
  have short : b0.toNat < 0xF0 := by omega
  simp [feedBody, feedByte, leads, admits, continues, joined, long, short]

theorem feedBody_fourBytes {c : Nat} {b0 b1 b2 b3 : UInt8} (low : 0x10000 ≤ c)
    (high : c < 0x110000) (v0 : b0.toNat = 0xF0 + c / 262144)
    (v1 : b1.toNat = 0x80 + c / 4096 % 64) (v2 : b2.toNat = 0x80 + c / 64 % 64)
    (v3 : b3.toNat = 0x80 + c % 64) :
    feedBody [] [b0, b1, b2, b3] = ([c], []) := by
  have leads : lead b0 = ([], [b0]) := lead_waits (by omega) (by omega)
  have admits : admitsSecond b0 b1 = true := by
    simp only [admitsSecond, isContinuation, Bool.and_eq_true, Bool.or_eq_true,
      decide_eq_true_eq, bne_iff_ne]
    omega
  have third : isContinuation b2 = true := by
    simp only [isContinuation, Bool.and_eq_true, decide_eq_true_eq]
    omega
  have fourth : isContinuation b3 = true := by
    simp only [isContinuation, Bool.and_eq_true, decide_eq_true_eq]
    omega
  have joined : joinFour b0 b1 b2 b3 = c := by
    unfold joinFour
    omega
  have notTwo : ¬ b0.toNat < 0xE0 := by omega
  have notThree : ¬ b0.toNat < 0xF0 := by omega
  simp [feedBody, feedByte, leads, admits, third, fourth, joined, notTwo, notThree]

theorem feedBody_encodeChar (c : Nat) (scalar : IsScalar c) :
    feedBody [] (encodeChar c) = ([c], []) := by
  have bound : c < 0x110000 := by unfold IsScalar at scalar; omega
  unfold encodeChar
  split
  · exact feedBody_oneByte (toNat_ofNat_of_lt (by omega)) (by assumption)
  · split
    · exact feedBody_twoBytes (by omega) (by assumption) (toNat_ofNat_of_lt (by omega))
        (toNat_ofNat_of_lt (by omega))
    · split
      · exact feedBody_threeBytes (by omega) (by assumption) scalar
          (toNat_ofNat_of_lt (by omega)) (toNat_ofNat_of_lt (by omega))
          (toNat_ofNat_of_lt (by omega))
      · exact feedBody_fourBytes (by omega) bound (toNat_ofNat_of_lt (by omega))
          (toNat_ofNat_of_lt (by omega)) (toNat_ofNat_of_lt (by omega))
          (toNat_ofNat_of_lt (by omega))

theorem feedBody_encode (text : Text) (scalars : ∀ c ∈ text, IsScalar c) :
    feedBody [] (encode text) = (text, []) := by
  induction text with
  | nil => rfl
  | cons c rest ih =>
      have tail := ih (fun d member => scalars d (List.mem_cons_of_mem c member))
      unfold encode at tail ⊢
      rw [List.flatMap_cons, feedBody_append, feedBody_encodeChar c (scalars c (by simp))]
      simp only [tail, List.singleton_append]

/-- A text whose first character is ASCII cannot start with the signature. -/
theorem decode_encode_of_ascii (c : Nat) (rest : Text) (ascii : c < 0x80)
    (scalars : ∀ d ∈ c :: rest, IsScalar d) : decode (encode (c :: rest)) = c :: rest := by
  have whole := feedBody_encode (c :: rest) scalars
  have head : encode (c :: rest) = UInt8.ofNat c :: encode rest := by
    simp [encode, encodeChar, ascii]
  have value : (UInt8.ofNat c).toNat = c := toNat_ofNat_of_lt (by omega)
  have notMark : UInt8.ofNat c ≠ 0xEF := by
    intro same
    have := congrArg UInt8.toNat same
    rw [value] at this
    simp at this
    omega
  rw [head] at whole ⊢
  have first : (Decoder.start).feedByte (UInt8.ofNat c) =
      ((feedBody [] [UInt8.ofNat c]).1, .body (feedBody [] [UInt8.ofNat c]).2) := by
    simp [Decoder.start, Decoder.feedByte, byteOrderMark, List.isPrefixOf, notMark]
  have split := feedBody_append [UInt8.ofNat c] (encode rest) []
  simp only [List.singleton_append] at split
  rw [split] at whole
  simp only [decode, Decoder.feed, first, Decoder.feed_body, Decoder.finish]
  rw [(Prod.mk.injEq ..).mp whole |>.1, (Prod.mk.injEq ..).mp whole |>.2]
  simp

/-- The signature is dropped, whatever the text after it starts with. -/
theorem decode_mark_encode (text : Text) (scalars : ∀ c ∈ text, IsScalar c) :
    decode (byteOrderMark ++ encode text) = text := by
  have marked : Decoder.start.feed byteOrderMark = ([], .body []) := by decide
  simp only [decode, Decoder.feed_append, marked, Decoder.feed_body,
    feedBody_encode text scalars, Decoder.finish]
  simp

/-! ## Cutting at an ASCII byte -/

/-- An unfinished sequence does not go on with an ASCII byte. -/
theorem feedByte_ascii (waiting : List UInt8) {byte : UInt8} (ascii : byte.toNat < 0x80) :
    feedByte waiting byte = (waiting.map escape ++ [byte.toNat], []) := by
  have own : lead byte = ([byte.toNat], []) := if_pos ascii
  have notContinuation : isContinuation byte = false := by
    simp only [isContinuation, Bool.and_eq_false_iff, decide_eq_false_iff_not]
    exact Or.inl (by omega)
  have notSecond : ∀ b0, admitsSecond b0 byte = false := by simp [admitsSecond, notContinuation]
  match waiting with
  | [] => simpa [feedByte] using own
  | [b0] => simp [feedByte, notSecond, giveUp, own]
  | [b0, b1] => simp [feedByte, notContinuation, giveUp, own]
  | b0 :: b1 :: b2 :: more => simp [feedByte, notContinuation, giveUp, own]

/-- Nothing has come out of a decoder that still looks for the signature. -/
theorem Decoder.feed_signature (bytes : List UInt8) : ∀ seen seen' : List UInt8,
    ((Decoder.signature seen).feed bytes).2 = .signature seen' →
      ((Decoder.signature seen).feed bytes).1 = [] := by
  induction bytes with
  | nil => exact fun _ _ _ => rfl
  | cons byte rest ih =>
      intro seen seen' still
      simp only [Decoder.feed, Decoder.feedByte] at still ⊢
      split at still
      · rw [Decoder.feed_body] at still
        cases still
      · next notMark =>
          split at still
          · next begins =>
              rw [if_neg notMark, if_pos begins]
              exact ih _ seen' still
          · rw [Decoder.feed_body] at still
            cases still

/-- An ASCII byte after a text is one more character. -/
theorem decode_append_ascii {bytes : List UInt8} {byte : UInt8} (ascii : byte.toNat < 0x80)
    (some : decode bytes ≠ []) : decode (bytes ++ [byte]) = decode bytes ++ [byte.toNat] := by
  unfold decode at some ⊢
  rw [Decoder.feed_append]
  cases after : (Decoder.start.feed bytes).2 with
  | signature seen =>
      have silent := Decoder.feed_signature bytes [] seen after
      rw [after] at some
      exact absurd (by rw [Decoder.start, silent, Decoder.finish, List.nil_append]) some
  | body waiting =>
      simp [Decoder.feed, Decoder.feedByte, feedByte_ascii waiting ascii, Decoder.finish]

/-! ## What comes out -/

/-- The code points that stand for undecodable bytes. -/
def IsEscape (c : Nat) : Prop := 0xDC80 ≤ c ∧ c ≤ 0xDCFF

/-- An waits sequence: a lead byte, and behind it the bytes it admits. -/
def Waits : List UInt8 → Prop
  | [] => True
  | [b0] => 0xC2 ≤ b0.toNat ∧ b0.toNat < 0xF5
  | [b0, b1] => 0xE0 ≤ b0.toNat ∧ b0.toNat < 0xF5 ∧ admitsSecond b0 b1 = true
  | [b0, b1, b2] =>
      0xF0 ≤ b0.toNat ∧ b0.toNat < 0xF5 ∧ admitsSecond b0 b1 = true ∧ isContinuation b2 = true
  | _ => False

theorem isContinuation_iff {byte : UInt8} :
    isContinuation byte = true ↔ 0x80 ≤ byte.toNat ∧ byte.toNat < 0xC0 := by
  simp [isContinuation]

theorem admitsSecond_continues {b0 b1 : UInt8} (admitted : admitsSecond b0 b1 = true) :
    isContinuation b1 = true := by
  simp only [admitsSecond, Bool.and_eq_true] at admitted
  exact admitted.1.1.1.1

theorem escape_isEscape {byte : UInt8} (high : 0x80 ≤ byte.toNat) : IsEscape (escape byte) := by
  have small := byte.toNat_lt
  unfold escape
  constructor <;> omega

/-- A text of scalar values and of escapes. -/
def Decoded (text : Text) : Prop := ∀ c ∈ text, IsScalar c ∨ IsEscape c

theorem decoded_nil : Decoded [] := by
  intro c member
  cases member

theorem decoded_append {text other : Text} (first : Decoded text) (second : Decoded other) :
    Decoded (text ++ other) := by
  intro c member
  rcases List.mem_append.mp member with front | back
  · exact first c front
  · exact second c back

theorem decoded_scalar {c : Nat} (scalar : IsScalar c) : Decoded [c] := by
  intro d member
  rw [List.mem_singleton.mp member]
  exact Or.inl scalar

theorem Waits.escapes {waiting : List UInt8} (waits : Waits waiting) :
    Decoded (waiting.map escape) := by
  have high : ∀ byte ∈ waiting, 0x80 ≤ byte.toNat := by
    match waiting, waits with
    | [], _ => simp
    | [b0], ⟨low, _⟩ => simp; omega
    | [b0, b1], ⟨low, _, admitted⟩ =>
        have second := isContinuation_iff.mp (admitsSecond_continues admitted)
        simp
        omega
    | [b0, b1, b2], ⟨low, _, admitted, continues⟩ =>
        have second := isContinuation_iff.mp (admitsSecond_continues admitted)
        have third := isContinuation_iff.mp continues
        simp
        omega
  intro c member
  obtain ⟨byte, inWaiting, rfl⟩ := List.mem_map.mp member
  exact Or.inr (escape_isEscape (high byte inWaiting))

theorem lead_decoded (byte : UInt8) : Decoded (lead byte).1 ∧ Waits (lead byte).2 := by
  have small := byte.toNat_lt
  unfold lead
  split
  · next ascii => exact ⟨decoded_scalar (Or.inl (by omega)), trivial⟩
  · next high =>
      have escaped : Decoded [escape byte] := by
        intro c member
        rw [List.mem_singleton.mp member]
        exact Or.inr (escape_isEscape (Nat.le_of_not_lt high))
      split
      · exact ⟨escaped, trivial⟩
      · next low =>
          split
          · next leads => exact ⟨decoded_nil, Nat.le_of_not_lt low, leads⟩
          · exact ⟨escaped, trivial⟩

theorem giveUp_decoded {waiting : List UInt8} (waits : Waits waiting) (byte : UInt8) :
    Decoded (giveUp waiting byte).1 ∧ Waits (giveUp waiting byte).2 :=
  ⟨decoded_append waits.escapes (lead_decoded byte).1, (lead_decoded byte).2⟩

theorem joinTwo_scalar {b0 b1 : UInt8} (high : b0.toNat < 0xE0)
    (admitted : admitsSecond b0 b1 = true) : IsScalar (joinTwo b0 b1) := by
  have second := isContinuation_iff.mp (admitsSecond_continues admitted)
  unfold joinTwo
  left
  omega

/-- No surrogate, since the second byte after `0xED` is below `0xA0`. -/
theorem joinThree_scalar {b0 b1 b2 : UInt8} (high : b0.toNat < 0xF0)
    (admitted : admitsSecond b0 b1 = true) (continues : isContinuation b2 = true) :
    IsScalar (joinThree b0 b1 b2) := by
  have second := isContinuation_iff.mp (admitsSecond_continues admitted)
  have third := isContinuation_iff.mp continues
  have noSurrogate : b0.toNat = 0xED → b1.toNat < 0xA0 := by
    simp only [admitsSecond, Bool.and_eq_true, Bool.or_eq_true, bne_iff_ne,
      decide_eq_true_eq] at admitted
    intro same
    exact admitted.1.1.2.resolve_left (not_not_intro same)
  unfold joinThree IsScalar
  omega

/-- Nothing above `0x10FFFF`, since the second byte after `0xF4` is below `0x90`. -/
theorem joinFour_scalar {b0 b1 b2 b3 : UInt8} (low : 0xF0 ≤ b0.toNat) (high : b0.toNat < 0xF5)
    (admitted : admitsSecond b0 b1 = true) (third : isContinuation b2 = true)
    (fourth : isContinuation b3 = true) : IsScalar (joinFour b0 b1 b2 b3) := by
  have second := isContinuation_iff.mp (admitsSecond_continues admitted)
  have third := isContinuation_iff.mp third
  have fourth := isContinuation_iff.mp fourth
  have atLeast : b0.toNat = 0xF0 → 0x90 ≤ b1.toNat := by
    simp only [admitsSecond, Bool.and_eq_true, Bool.or_eq_true, bne_iff_ne,
      decide_eq_true_eq] at admitted
    intro same
    exact admitted.1.2.resolve_left (not_not_intro same)
  have atMost : b0.toNat = 0xF4 → b1.toNat < 0x90 := by
    simp only [admitsSecond, Bool.and_eq_true, Bool.or_eq_true, bne_iff_ne,
      decide_eq_true_eq] at admitted
    intro same
    exact admitted.2.resolve_left (not_not_intro same)
  unfold joinFour IsScalar
  omega

theorem feedByte_decoded {waiting : List UInt8} (waits : Waits waiting) (byte : UInt8) :
    Decoded (feedByte waiting byte).1 ∧ Waits (feedByte waiting byte).2 := by
  match waiting, waits with
  | [], _ => exact lead_decoded byte
  | [b0], whole@⟨_, high⟩ =>
      simp only [feedByte]
      split
      · exact giveUp_decoded whole byte
      · next admitted =>
          have admitted : admitsSecond b0 byte = true := by simpa using admitted
          split
          · next short => exact ⟨decoded_scalar (joinTwo_scalar short admitted), trivial⟩
          · next long => exact ⟨decoded_nil, Nat.le_of_not_lt long, high, admitted⟩
  | [b0, b1], whole@⟨_, high, admitted⟩ =>
      simp only [feedByte]
      split
      · exact giveUp_decoded whole byte
      · next continues =>
          have continues : isContinuation byte = true := by simpa using continues
          split
          · next short =>
              exact ⟨decoded_scalar (joinThree_scalar short admitted continues), trivial⟩
          · next long => exact ⟨decoded_nil, Nat.le_of_not_lt long, high, admitted, continues⟩
  | [b0, b1, b2], whole@⟨low, high, admitted, third⟩ =>
      simp only [feedByte]
      split
      · exact giveUp_decoded whole byte
      · next continues =>
          have fourth : isContinuation byte = true := by simpa using continues
          exact ⟨decoded_scalar (joinFour_scalar low high admitted third fourth), trivial⟩

theorem feedBody_decoded (bytes : List UInt8) : ∀ waiting : List UInt8, Waits waiting →
    Decoded (feedBody waiting bytes).1 ∧ Waits (feedBody waiting bytes).2 := by
  induction bytes with
  | nil => exact fun waiting waits => ⟨decoded_nil, waits⟩
  | cons byte rest ih =>
      intro waiting waits
      obtain ⟨given, next⟩ := feedByte_decoded waits byte
      obtain ⟨later, last⟩ := ih _ next
      exact ⟨decoded_append given later, last⟩

/-- What has come out of a decoder, and what will once no byte follows. -/
theorem Decoder.feed_decoded (bytes : List UInt8) : ∀ seen : List UInt8,
    Decoded ((Decoder.signature seen).feed bytes).1 ∧
      Decoded ((Decoder.signature seen).feed bytes).2.finish := by
  induction bytes with
  | nil => exact fun seen => ⟨decoded_nil, decoded_nil⟩
  | cons byte rest ih =>
      intro seen
      simp only [Decoder.feed, Decoder.feedByte]
      split
      · rw [Decoder.feed_body]
        obtain ⟨later, last⟩ := feedBody_decoded rest [] trivial
        exact ⟨later, last.escapes⟩
      · split
        · exact ih (seen ++ [byte])
        · rw [Decoder.feed_body]
          obtain ⟨given, next⟩ := feedBody_decoded (seen ++ [byte]) [] trivial
          obtain ⟨later, last⟩ := feedBody_decoded rest _ next
          exact ⟨decoded_append given later, last.escapes⟩

/-- A decoded text consists of scalar values and of escapes. -/
theorem decode_decoded (bytes : List UInt8) : Decoded (decode bytes) := by
  obtain ⟨given, last⟩ := Decoder.feed_decoded bytes []
  exact decoded_append given last

end Utf8Escape
