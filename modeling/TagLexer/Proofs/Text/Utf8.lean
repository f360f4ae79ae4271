import TagLexer.Text.Utf8

/-!
# Reading back what is encoded

The bytes of a character are one piece: the first byte announces how many follow and the range of
the second, in which the second byte of every real character lies. So strict decoding reads back
every text that is encoded (`Utf8.decode_encode`). It accepts nothing else: bytes in the announced
ranges are those of the character that their bits make up, so bytes from which a text is read are
the encoding of that text (`Utf8.decode_eq_ok_iff`).
-/

namespace TagLexer.Utf8

/-- The first of several bytes leads into a sequence. -/
private theorem piecesFrom_lead {b : UInt8} {bits : Nat} {next : ByteRange}
    {later : List ByteRange} (hb : 0x80 ≤ b.toNat) (hlead : lead? b = some (bits, next, later))
    (rest : Bytes) :
    piecesFrom .between (b :: rest) = piecesFrom (.inside [b] bits next later) rest := by
  simp [piecesFrom, State.step, startPiece, Nat.not_lt.mpr hb, hlead]

/-- A byte in the range that is awaited goes on with a sequence. -/
private theorem piecesFrom_inside {b : UInt8} {taken : Bytes} {bits : Nat} {next next' : ByteRange}
    {later : List ByteRange} (hb : next.1 ≤ b.toNat ∧ b.toNat ≤ next.2) (rest : Bytes) :
    piecesFrom (.inside taken bits next (next' :: later)) (b :: rest) =
      piecesFrom (.inside (taken ++ [b]) (bits * 64 + b.toNat % 64) next' later) rest := by
  simp [piecesFrom, State.step, hb]

/-- The last byte of a sequence completes a character. -/
private theorem piecesFrom_last {b : UInt8} {taken : Bytes} {bits : Nat} {next : ByteRange}
    (hb : next.1 ≤ b.toNat ∧ b.toNat ≤ next.2) (rest : Bytes) :
    piecesFrom (.inside taken bits next []) (b :: rest) =
      .char (Char.ofNat (bits * 64 + b.toNat % 64)) :: piecesFrom .between rest := by
  simp [piecesFrom, State.step, hb]

private theorem toNat_byte {n : Nat} (h : n < 256) : (UInt8.ofNat n).toNat = n :=
  UInt8.toNat_ofNat_of_lt h

/-- The bytes that follow a first one carry six bits each. -/
private theorem toNat_tail (n : Nat) : (UInt8.ofNat (n % 64 + 128)).toNat = n % 64 + 128 :=
  toNat_byte (by omega)

private theorem mem_tail (n : Nat) :
    tail.1 ≤ (UInt8.ofNat (n % 64 + 128)).toNat ∧ (UInt8.ofNat (n % 64 + 128)).toNat ≤ tail.2 := by
  rw [toNat_tail]
  simp only [tail]
  omega

/-- The range of the second of three bytes holds that of every character. -/
private theorem lead?_three {v : Nat} (hlow : 2047 < v) (hhigh : v ≤ 65535)
    (hvalid : v < 0xD800 ∨ 0xDFFF < v) {b : UInt8} (hb : b.toNat = v / 4096 + 224) :
    ∃ next : ByteRange, lead? b = some (v / 4096, next, [tail]) ∧
      next.1 ≤ v / 64 % 64 + 128 ∧ v / 64 % 64 + 128 ≤ next.2 := by
  have hbits : (v / 4096 + 224) % 16 = v / 4096 := by omega
  unfold lead?
  simp only [hb, hbits]
  split
  · omega
  split
  · exact ⟨_, rfl, by omega, by omega⟩
  split
  · exact ⟨_, rfl, by omega, by omega⟩
  split
  · exact ⟨_, rfl, by simp only [tail]; omega, by simp only [tail]; omega⟩
  · omega

/-- The range of the second of four bytes holds that of every character. -/
private theorem lead?_four {v : Nat} (hlow : 65535 < v) (hvalid : v < 0x110000) {b : UInt8}
    (hb : b.toNat = v / 262144 + 240) :
    ∃ next : ByteRange, lead? b = some (v / 262144, next, [tail, tail]) ∧
      next.1 ≤ v / 4096 % 64 + 128 ∧ v / 4096 % 64 + 128 ≤ next.2 := by
  have hbits : (v / 262144 + 240) % 8 = v / 262144 := by omega
  unfold lead?
  simp only [hb, hbits]
  split
  · omega
  split
  · omega
  split
  · omega
  split
  · omega
  split
  · exact ⟨_, rfl, by omega, by omega⟩
  split
  · exact ⟨_, rfl, by simp only [tail]; omega, by simp only [tail]; omega⟩
  split
  · exact ⟨_, rfl, by omega, by omega⟩
  · omega

private theorem piecesFrom_one {v : Nat} (hv : v ≤ 127) (rest : Bytes) :
    piecesFrom .between (UInt8.ofNat v :: rest) =
      .char (Char.ofNat v) :: piecesFrom .between rest := by
  have hb : (UInt8.ofNat v).toNat = v := toNat_byte (by omega)
  have hascii : v < 128 := by omega
  simp [piecesFrom, State.step, startPiece, hb, hascii]

private theorem piecesFrom_two {v : Nat} (hlow : 127 < v) (hhigh : v ≤ 2047) (rest : Bytes) :
    piecesFrom .between
        (UInt8.ofNat (v / 64 % 32 + 192) :: UInt8.ofNat (v % 64 + 128) :: rest) =
      .char (Char.ofNat v) :: piecesFrom .between rest := by
  have hb : (UInt8.ofNat (v / 64 % 32 + 192)).toNat = v / 64 + 192 := by
    rw [toNat_byte (by omega)]
    omega
  have hbits : (v / 64 + 192) % 32 = v / 64 := by omega
  have hrange : 0xC2 ≤ v / 64 + 192 ∧ v / 64 + 192 ≤ 0xDF := by omega
  have hlead : lead? (UInt8.ofNat (v / 64 % 32 + 192)) = some (v / 64, tail, []) := by
    simp only [lead?, hb, hbits, if_pos hrange]
  have hvalue : v / 64 * 64 + (v % 64 + 128) % 64 = v := by omega
  rw [piecesFrom_lead (by omega) hlead, piecesFrom_last (mem_tail v), toNat_tail, hvalue]

private theorem piecesFrom_three {v : Nat} (hlow : 2047 < v) (hhigh : v ≤ 65535)
    (hvalid : v < 0xD800 ∨ 0xDFFF < v) (rest : Bytes) :
    piecesFrom .between
        (UInt8.ofNat (v / 4096 % 16 + 224) :: UInt8.ofNat (v / 64 % 64 + 128) ::
          UInt8.ofNat (v % 64 + 128) :: rest) =
      .char (Char.ofNat v) :: piecesFrom .between rest := by
  have hb : (UInt8.ofNat (v / 4096 % 16 + 224)).toNat = v / 4096 + 224 := by
    rw [toNat_byte (by omega)]
    omega
  obtain ⟨next, hlead, hsecond⟩ := lead?_three hlow hhigh hvalid hb
  rw [← toNat_tail] at hsecond
  have hvalue : (v / 4096 * 64 + (v / 64 % 64 + 128) % 64) * 64 + (v % 64 + 128) % 64 = v := by
    omega
  rw [piecesFrom_lead (by omega) hlead, piecesFrom_inside hsecond, piecesFrom_last (mem_tail v),
    toNat_tail, toNat_tail, hvalue]

private theorem piecesFrom_four {v : Nat} (hlow : 65535 < v) (hvalid : v < 0x110000)
    (rest : Bytes) :
    piecesFrom .between
        (UInt8.ofNat (v / 262144 % 8 + 240) :: UInt8.ofNat (v / 4096 % 64 + 128) ::
          UInt8.ofNat (v / 64 % 64 + 128) :: UInt8.ofNat (v % 64 + 128) :: rest) =
      .char (Char.ofNat v) :: piecesFrom .between rest := by
  have hb : (UInt8.ofNat (v / 262144 % 8 + 240)).toNat = v / 262144 + 240 := by
    rw [toNat_byte (by omega)]
    omega
  obtain ⟨next, hlead, hsecond⟩ := lead?_four hlow hvalid hb
  rw [← toNat_tail] at hsecond
  have hvalue : ((v / 262144 * 64 + (v / 4096 % 64 + 128) % 64) * 64 +
      (v / 64 % 64 + 128) % 64) * 64 + (v % 64 + 128) % 64 = v := by
    omega
  rw [piecesFrom_lead (by omega) hlead, piecesFrom_inside hsecond,
    piecesFrom_inside (mem_tail (v / 64)), piecesFrom_last (mem_tail v), toNat_tail, toNat_tail,
    toNat_tail, hvalue]

/-- The bytes of a character are one piece, whatever follows. -/
theorem piecesFrom_encodeChar (c : Char) (rest : Bytes) :
    piecesFrom .between (String.utf8EncodeChar c ++ rest) =
      .char c :: piecesFrom .between rest := by
  have hvalid : c.toNat < 0xD800 ∨ 0xDFFF < c.toNat ∧ c.toNat < 0x110000 := c.valid
  have hc : Char.ofNat c.toNat = c := Char.ofNat_toNat c
  have hchar : ∀ {pieces}, pieces = Piece.char (Char.ofNat c.toNat) :: piecesFrom .between rest →
      pieces = .char c :: piecesFrom .between rest := fun h => h.trans (by rw [hc])
  simp only [String.utf8EncodeChar]
  split
  · next h => exact hchar (piecesFrom_one h rest)
  split
  · next h h' => exact hchar (piecesFrom_two (Nat.not_le.mp h) h' rest)
  split
  · next h h' =>
    have hscalar : c.toNat < 0xD800 ∨ 0xDFFF < c.toNat := by omega
    exact hchar (piecesFrom_three (Nat.not_le.mp h) h' hscalar rest)
  · next h =>
    have hlow : 65535 < c.toNat := Nat.not_le.mp h
    exact hchar (piecesFrom_four hlow (by omega) rest)

/-- The pieces of an encoded text are its characters. -/
theorem pieces_encode (s : Text) : pieces (encode s) = s.map .char := by
  induction s with
  | nil => rfl
  | cons c s ih =>
    rw [pieces, encode, List.flatMap_cons, piecesFrom_encodeChar, List.map_cons]
    exact congrArg _ ih

/-- Characters in a row are the text they make up. -/
theorem joinFrom_map_char (offset : Nat) (s : Text) : joinFrom offset (s.map .char) = .ok s := by
  induction s generalizing offset with
  | nil => rfl
  | cons c s ih =>
    rw [List.map_cons, joinFrom, ih]
    rfl

/-- Strict decoding reads back every text that is encoded. -/
theorem decode_encode (s : Text) : decode (encode s) = .ok s := by
  rw [decode, pieces_encode, joinFrom_map_char]

/-- Bytes in the ranges that a sequence still needs, and the code point that they complete it to. -/
inductive Completes : Nat → List ByteRange → Bytes → Nat → Prop
  | done (bits : Nat) : Completes bits [] [] bits
  | next {bits v : Nat} {range : ByteRange} {later : List ByteRange} {b : UInt8} {bytes : Bytes} :
      range.1 ≤ b.toNat → b.toNat ≤ range.2 →
      Completes (bits * 64 + b.toNat % 64) later bytes v →
      Completes bits (range :: later) (b :: bytes) v

private theorem toNat_char {v : Nat} (h : v < 0xD800 ∨ 0xDFFF < v ∧ v < 0x110000) :
    (Char.ofNat v).val.toNat = v := by
  have hvalid : v.isValidChar := h
  rw [Char.ofNat, dif_pos hvalid]
  rfl

private theorem byte_eq {b : UInt8} {n : Nat} (h : n = b.toNat) : UInt8.ofNat n = b := by
  rw [h, UInt8.ofNat_toNat]

/-- The bits of two bytes are those of the character that the bytes encode. -/
private theorem encodeChar_two {b b₁ : UInt8} (hb : 0xC2 ≤ b.toNat ∧ b.toNat ≤ 0xDF)
    (h₁ : 0x80 ≤ b₁.toNat ∧ b₁.toNat ≤ 0xBF) :
    String.utf8EncodeChar (Char.ofNat (b.toNat % 32 * 64 + b₁.toNat % 64)) = [b, b₁] := by
  have hv := @toNat_char (b.toNat % 32 * 64 + b₁.toNat % 64) (by omega)
  simp only [String.utf8EncodeChar, hv]
  rw [if_neg (by omega), if_pos (by omega), byte_eq (b := b) (by omega),
    byte_eq (b := b₁) (by omega)]

/-- The bits of three bytes are those of the character that the bytes encode, unless these are an
overlong form or a surrogate. -/
private theorem encodeChar_three {b b₁ b₂ : UInt8} (hb : 0xE0 ≤ b.toNat ∧ b.toNat ≤ 0xEF)
    (h₁ : 0x80 ≤ b₁.toNat ∧ b₁.toNat ≤ 0xBF) (h₂ : 0x80 ≤ b₂.toNat ∧ b₂.toNat ≤ 0xBF)
    (hlong : b.toNat = 0xE0 → 0xA0 ≤ b₁.toNat) (hsurrogate : b.toNat = 0xED → b₁.toNat ≤ 0x9F) :
    String.utf8EncodeChar
      (Char.ofNat ((b.toNat % 16 * 64 + b₁.toNat % 64) * 64 + b₂.toNat % 64)) = [b, b₁, b₂] := by
  have hv := @toNat_char ((b.toNat % 16 * 64 + b₁.toNat % 64) * 64 + b₂.toNat % 64) (by omega)
  simp only [String.utf8EncodeChar, hv]
  rw [if_neg (by omega), if_neg (by omega), if_pos (by omega), byte_eq (b := b) (by omega),
    byte_eq (b := b₁) (by omega), byte_eq (b := b₂) (by omega)]

/-- The bits of four bytes are those of the character that the bytes encode, unless these are an
overlong form or lie beyond the last code point. -/
private theorem encodeChar_four {b b₁ b₂ b₃ : UInt8} (hb : 0xF0 ≤ b.toNat ∧ b.toNat ≤ 0xF4)
    (h₁ : 0x80 ≤ b₁.toNat ∧ b₁.toNat ≤ 0xBF) (h₂ : 0x80 ≤ b₂.toNat ∧ b₂.toNat ≤ 0xBF)
    (h₃ : 0x80 ≤ b₃.toNat ∧ b₃.toNat ≤ 0xBF) (hlong : b.toNat = 0xF0 → 0x90 ≤ b₁.toNat)
    (hlast : b.toNat = 0xF4 → b₁.toNat ≤ 0x8F) :
    String.utf8EncodeChar
      (Char.ofNat
        (((b.toNat % 8 * 64 + b₁.toNat % 64) * 64 + b₂.toNat % 64) * 64 + b₃.toNat % 64)) =
      [b, b₁, b₂, b₃] := by
  have hv := @toNat_char
    (((b.toNat % 8 * 64 + b₁.toNat % 64) * 64 + b₂.toNat % 64) * 64 + b₃.toNat % 64) (by omega)
  simp only [String.utf8EncodeChar, hv]
  rw [if_neg (by omega), if_neg (by omega), if_neg (by omega), byte_eq (b := b) (by omega),
    byte_eq (b := b₁) (by omega), byte_eq (b := b₂) (by omega), byte_eq (b := b₃) (by omega)]

theorem Completes.exists_cons {bits v : Nat} {range : ByteRange} {later : List ByteRange}
    {bytes : Bytes} (h : Completes bits (range :: later) bytes v) :
    ∃ b rest, bytes = b :: rest ∧ (range.1 ≤ b.toNat ∧ b.toNat ≤ range.2) ∧
      Completes (bits * 64 + b.toNat % 64) later rest v := by
  cases h with
  | next hlow hhigh h => exact ⟨_, _, rfl, ⟨hlow, hhigh⟩, h⟩

theorem Completes.eq_of_nil {bits v : Nat} {bytes : Bytes} (h : Completes bits [] bytes v) :
    bytes = [] ∧ v = bits := by
  cases h with
  | done => exact ⟨rfl, rfl⟩

/-- What a first byte announces: one, two or three more bytes, and a range for the next one that
leaves out overlong forms, surrogates and what lies beyond the last code point. -/
private theorem lead?_cases {b : UInt8} {bits : Nat} {next : ByteRange} {later : List ByteRange}
    (h : lead? b = some (bits, next, later)) :
    (0xC2 ≤ b.toNat ∧ b.toNat ≤ 0xDF ∧ bits = b.toNat % 32 ∧ next = tail ∧ later = []) ∨
      (0xE0 ≤ b.toNat ∧ b.toNat ≤ 0xEF ∧ bits = b.toNat % 16 ∧ 0x80 ≤ next.1 ∧ next.2 ≤ 0xBF ∧
        (b.toNat = 0xE0 → 0xA0 ≤ next.1) ∧ (b.toNat = 0xED → next.2 ≤ 0x9F) ∧ later = [tail]) ∨
      (0xF0 ≤ b.toNat ∧ b.toNat ≤ 0xF4 ∧ bits = b.toNat % 8 ∧ 0x80 ≤ next.1 ∧ next.2 ≤ 0xBF ∧
        (b.toNat = 0xF0 → 0x90 ≤ next.1) ∧ (b.toNat = 0xF4 → next.2 ≤ 0x8F) ∧
        later = [tail, tail]) := by
  unfold lead? at h
  dsimp only at h
  split at h
  · next hb =>
    cases h
    exact .inl ⟨hb.1, hb.2, rfl, rfl, rfl⟩
  split at h
  · next hb =>
    cases h
    exact .inr (.inl ⟨by omega, by omega, rfl, by decide, by decide, fun _ => by decide,
      fun _ => by omega, rfl⟩)
  split at h
  · next hb =>
    cases h
    exact .inr (.inl ⟨by omega, by omega, rfl, by decide, by decide, fun _ => by omega,
      fun _ => by decide, rfl⟩)
  split at h
  · next hb =>
    cases h
    exact .inr (.inl ⟨by omega, by omega, rfl, by decide, by decide, fun _ => by omega,
      fun _ => by omega, rfl⟩)
  split at h
  · next hb =>
    cases h
    exact .inr (.inr ⟨by omega, by omega, rfl, by decide, by decide, fun _ => by decide,
      fun _ => by omega, rfl⟩)
  split at h
  · next hb =>
    cases h
    exact .inr (.inr ⟨by omega, by omega, rfl, by decide, by decide, fun _ => by omega,
      fun _ => by omega, rfl⟩)
  split at h
  · next hb =>
    cases h
    exact .inr (.inr ⟨by omega, by omega, rfl, by decide, by decide, fun _ => by omega,
      fun _ => by decide, rfl⟩)
  · cases h

/-- A sequence with the bytes that its first one announces is the encoding of a character. -/
theorem encodeChar_of_lead? {b : UInt8} {bits v : Nat} {next : ByteRange} {later : List ByteRange}
    {bytes : Bytes} (hlead : lead? b = some (bits, next, later))
    (h : Completes bits (next :: later) bytes v) :
    String.utf8EncodeChar (Char.ofNat v) = b :: bytes := by
  obtain ⟨b₁, rest₁, rfl, h₁, hrest₁⟩ := h.exists_cons
  rcases lead?_cases hlead with ⟨hlow, hhigh, rfl, rfl, rfl⟩ |
    ⟨hlow, hhigh, rfl, hnext, hnext', hlong, hsurrogate, rfl⟩ |
    ⟨hlow, hhigh, rfl, hnext, hnext', hlong, hlast, rfl⟩
  · obtain ⟨rfl, rfl⟩ := hrest₁.eq_of_nil
    exact encodeChar_two ⟨hlow, hhigh⟩ h₁
  · obtain ⟨b₂, rest₂, rfl, h₂, hrest₂⟩ := hrest₁.exists_cons
    obtain ⟨rfl, rfl⟩ := hrest₂.eq_of_nil
    exact encodeChar_three ⟨hlow, hhigh⟩ (by omega) h₂ (by omega) (by omega)
  · obtain ⟨b₂, rest₂, rfl, h₂, hrest₂⟩ := hrest₁.exists_cons
    obtain ⟨b₃, rest₃, rfl, h₃, hrest₃⟩ := hrest₂.exists_cons
    obtain ⟨rfl, rfl⟩ := hrest₃.eq_of_nil
    exact encodeChar_four ⟨hlow, hhigh⟩ (by omega) h₂ h₃ (by omega) (by omega)

/-- The bytes of the sequence that a decoder is in. -/
def State.taken : State → Bytes
  | between => []
  | inside taken .. => taken

/-- A decoder is in a sequence only if every way to complete it gives the encoding of a
character. -/
def State.Sound : State → Prop
  | between => True
  | inside taken bits next later => ∀ bytes v, Completes bits (next :: later) bytes v →
      String.utf8EncodeChar (Char.ofNat v) = taken ++ bytes

/-- The first byte of a piece encodes a character, leads into a sequence, or is faulty. -/
private theorem startPiece_cases (b : UInt8) :
    (∃ c, startPiece b = ([.char c], .between) ∧ String.utf8EncodeChar c = [b]) ∨
      (∃ bits next later, startPiece b = ([], .inside [b] bits next later) ∧
        (State.inside [b] bits next later).Sound) ∨
      startPiece b = ([.faulty [b] .startByte], .between) := by
  unfold startPiece
  split
  · next hb =>
    have hv := @toNat_char b.toNat (by omega)
    refine .inl ⟨_, rfl, ?_⟩
    simp only [String.utf8EncodeChar, hv]
    rw [if_pos (by omega), byte_eq rfl]
  · split
    · exact .inr (.inr rfl)
    · next bits next later hlead =>
      exact .inr (.inl ⟨bits, next, later, rfl, fun _ _ => encodeChar_of_lead? hlead⟩)

/-- What a byte does: it goes on with a sequence, it completes the encoding of a character, or a
faulty sequence is found. -/
theorem State.Sound.step_cases {state : State} (h : state.Sound) (b : UInt8) :
    (∃ next, state.step b = ([], next) ∧ next.Sound ∧ next.taken = state.taken ++ [b]) ∨
      (∃ c, state.step b = ([.char c], .between) ∧
        String.utf8EncodeChar c = state.taken ++ [b]) ∨
      ∃ sequence reason, .faulty sequence reason ∈ (state.step b).1 := by
  cases state with
  | between =>
    rcases startPiece_cases b with ⟨c, hstart, hc⟩ | ⟨bits, next, later, hstart, hsound⟩ | hstart
    · exact .inr (.inl ⟨c, hstart, hc⟩)
    · exact .inl ⟨_, hstart, hsound, rfl⟩
    · exact .inr (.inr ⟨[b], .startByte, by simp [step, hstart]⟩)
  | inside taken bits next later =>
    by_cases hb : next.1 ≤ b.toNat ∧ b.toNat ≤ next.2
    · cases later with
      | nil =>
        refine .inr (.inl ⟨.ofNat (bits * 64 + b.toNat % 64), by simp [step, hb], ?_⟩)
        exact h [b] _ (.next hb.1 hb.2 (.done _))
      | cons next' later =>
        refine .inl ⟨.inside (taken ++ [b]) (bits * 64 + b.toNat % 64) next' later,
          by simp [step, hb], fun bytes v hcompletes => ?_, rfl⟩
        rw [List.append_assoc, List.singleton_append]
        exact h (b :: bytes) v (.next hb.1 hb.2 hcompletes)
    · exact .inr (.inr ⟨taken, .continuationByte, by simp [step, hb]⟩)

/-- Bytes whose pieces are all characters are the encoding of these. -/
theorem append_eq_encode_of_piecesFrom {state : State} (h : state.Sound) {bytes : Bytes} {s : Text}
    (hpieces : piecesFrom state bytes = s.map .char) : state.taken ++ bytes = encode s := by
  induction bytes generalizing state s with
  | nil =>
    cases state with
    | between =>
      obtain rfl : s = [] := by simpa [piecesFrom, eq_comm] using hpieces
      rfl
    | inside => cases s <;> simp [piecesFrom] at hpieces
  | cons b bytes ih =>
    have hcons : (state.step b).1 ++ piecesFrom (state.step b).2 bytes = s.map .char := by
      cases state <;> exact hpieces
    rcases h.step_cases b with ⟨next, hstep, hnext, htaken⟩ | ⟨c, hstep, hc⟩ |
      ⟨sequence, reason, hmem⟩
    · rw [hstep, List.nil_append] at hcons
      rw [← ih hnext hcons, htaken, List.append_assoc, List.singleton_append]
    · rw [hstep, List.singleton_append] at hcons
      cases s with
      | nil => cases hcons
      | cons c' s =>
        obtain ⟨hchar, hrest⟩ := List.cons.inj hcons
        obtain rfl := Piece.char.inj hchar
        have hbytes : bytes = encode s := @ih .between trivial s hrest
        rw [hbytes, encode, encode, List.flatMap_cons, hc, List.append_assoc,
          List.singleton_append]
    · have hfaulty : Piece.faulty sequence reason ∈ s.map .char := by
        rw [← hcons]
        exact List.mem_append_left _ hmem
      simp at hfaulty

/-- Pieces that are joined to a text are its characters. -/
theorem eq_map_char_of_joinFrom {offset : Nat} {pieces : List Piece} {s : Text}
    (h : joinFrom offset pieces = .ok s) : pieces = s.map .char := by
  induction pieces generalizing offset s with
  | nil =>
    obtain rfl := Except.ok.inj h
    rfl
  | cons piece pieces ih =>
    cases piece with
    | faulty => cases h
    | char c =>
      cases hrest : joinFrom (offset + c.utf8Size) pieces with
      | error f => simp [joinFrom, hrest, Except.map] at h
      | ok rest =>
        obtain rfl : c :: rest = s := by simpa [joinFrom, hrest, Except.map] using h
        rw [List.map_cons, ih hrest]

/-- Strict decoding reads a text from the bytes that encode it and from no others. -/
theorem decode_eq_ok_iff {bytes : Bytes} {s : Text} : decode bytes = .ok s ↔ bytes = encode s := by
  constructor
  · intro h
    have hsound : State.between.Sound := trivial
    exact append_eq_encode_of_piecesFrom hsound (eq_map_char_of_joinFrom h)
  · rintro rfl
    exact decode_encode s

end TagLexer.Utf8
