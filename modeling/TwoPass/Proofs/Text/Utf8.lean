import TwoPass.Text.Utf8

/-!
# Decoding what was encoded

Every character comes back from its bytes, so that decoding the bytes of a text gives the text.  The
narrowed ranges of the first continuation byte do not stand in the way: a code point has the lead byte
that announces its length, and is neither overlong nor a surrogate.
-/

namespace TwoPass.Utf8

theorem toNat_continuation (bits : Nat) : (continuation bits).toNat = 0x80 + bits % 64 := by
  rw [continuation, UInt8.toNat_ofNat']
  omega

theorem toNat_lead {n : Nat} (hbyte : n < 256) : (UInt8.ofNat n).toNat = n := by
  rw [UInt8.toNat_ofNat']
  omega

/-- A continuation byte in its range adds six bits to the code point. -/
theorem readTail_continuation {low high bits : Nat} (hlow : low ≤ 0x80 + bits % 64)
    (hhigh : 0x80 + bits % 64 ≤ high) (following code fitted : Nat) (rest : Bytes) :
    readTail (following + 1) low high code fitted (continuation bits :: rest) =
      readTail following 0x80 0xBF (code * 64 + bits % 64) (fitted + 1) rest := by
  simp [readTail, toNat_continuation, hlow, hhigh]

/-- Code points are those of the seventeen planes, without the surrogates. -/
theorem toNat_cases (c : Char) :
    c.toNat < 0xD800 ∨ 0xDFFF < c.toNat ∧ c.toNat < 0x110000 :=
  c.valid

section Widths

variable {c : Char} (position : Nat) (rest : Bytes)

/-- A lead byte and the continuation bytes that complete it to the code point give the character. -/
theorem readChar_of_complete {byte : UInt8} {bytes : Bytes} {lead : Lead}
    (hlead : Lead.ofByte? byte = some lead)
    (htail : readTail lead.following lead.low lead.high lead.bits 1 bytes =
      .complete c.toNat rest) :
    readChar position byte bytes = .ok (c, position + lead.following + 1, rest) := by
  simp only [readChar, hlead, htail, Char.ofNat_toNat]

theorem readChar_one (hn : c.toNat < 0x80) :
    readChar position (UInt8.ofNat c.toNat) rest = .ok (c, position + 1, rest) := by
  have hlead : Lead.ofByte? (UInt8.ofNat c.toNat) = some ⟨0, 0x80, 0xBF, c.toNat⟩ := by
    simp only [Lead.ofByte?, toNat_lead (show c.toNat < 256 by omega), hn, ↓reduceIte]
  exact readChar_of_complete position rest hlead rfl

theorem readChar_two (hlow : 0x80 ≤ c.toNat) (hhigh : c.toNat < 0x800) :
    readChar position (UInt8.ofNat (0xC0 + c.toNat / 64)) (continuation c.toNat :: rest) =
      .ok (c, position + 2, rest) := by
  have hlead : Lead.ofByte? (UInt8.ofNat (0xC0 + c.toNat / 64)) =
      some ⟨1, 0x80, 0xBF, c.toNat / 64⟩ := by
    simp only [Lead.ofByte?, toNat_lead (show 0xC0 + c.toNat / 64 < 256 by omega)]
    rw [if_neg (by omega), if_neg (by omega), if_pos (by omega), Nat.add_sub_cancel_left]
  have hcode : c.toNat / 64 * 64 + c.toNat % 64 = c.toNat := by omega
  apply readChar_of_complete position rest hlead
  dsimp only
  rw [readTail_continuation (by omega) (by omega), readTail, hcode]

theorem readChar_three (hlow : 0x800 ≤ c.toNat) (hhigh : c.toNat < 0x10000) :
    readChar position (UInt8.ofNat (0xE0 + c.toNat / 4096))
        (continuation (c.toNat / 64) :: continuation c.toNat :: rest) =
      .ok (c, position + 3, rest) := by
  have hscalar := toNat_cases c
  have hlead : Lead.ofByte? (UInt8.ofNat (0xE0 + c.toNat / 4096)) =
      some ⟨2, if 0xE0 + c.toNat / 4096 = 0xE0 then 0xA0 else 0x80,
        if 0xE0 + c.toNat / 4096 = 0xED then 0x9F else 0xBF, c.toNat / 4096⟩ := by
    simp only [Lead.ofByte?, toNat_lead (show 0xE0 + c.toNat / 4096 < 256 by omega)]
    rw [if_neg (by omega), if_neg (by omega), if_neg (by omega), if_pos (by omega),
      Nat.add_sub_cancel_left]
  have hcode : (c.toNat / 4096 * 64 + c.toNat / 64 % 64) * 64 + c.toNat % 64 = c.toNat := by omega
  apply readChar_of_complete position rest hlead
  dsimp only
  rw [readTail_continuation (by split <;> omega) (by split <;> omega),
    readTail_continuation (by omega) (by omega), readTail, hcode]

theorem readChar_four (hlow : 0x10000 ≤ c.toNat) :
    readChar position (UInt8.ofNat (0xF0 + c.toNat / 262144))
        (continuation (c.toNat / 4096) :: continuation (c.toNat / 64) :: continuation c.toNat ::
          rest) =
      .ok (c, position + 4, rest) := by
  have hscalar := toNat_cases c
  have hlead : Lead.ofByte? (UInt8.ofNat (0xF0 + c.toNat / 262144)) =
      some ⟨3, if 0xF0 + c.toNat / 262144 = 0xF0 then 0x90 else 0x80,
        if 0xF0 + c.toNat / 262144 = 0xF4 then 0x8F else 0xBF, c.toNat / 262144⟩ := by
    simp only [Lead.ofByte?, toNat_lead (show 0xF0 + c.toNat / 262144 < 256 by omega)]
    rw [if_neg (by omega), if_neg (by omega), if_neg (by omega), if_neg (by omega),
      if_pos (by omega), Nat.add_sub_cancel_left]
  have hcode : ((c.toNat / 262144 * 64 + c.toNat / 4096 % 64) * 64 + c.toNat / 64 % 64) * 64 +
      c.toNat % 64 = c.toNat := by omega
  apply readChar_of_complete position rest hlead
  dsimp only
  rw [readTail_continuation (by split <;> omega) (by split <;> omega),
    readTail_continuation (by omega) (by omega), readTail_continuation (by omega) (by omega),
    readTail, hcode]

/-- A character is read back from the front of the bytes, and nothing behind it is touched. -/
theorem exists_readChar_encodeChar (c : Char) :
    ∃ byte more, encodeChar c = byte :: more ∧
      readChar position byte (more ++ rest) =
        .ok (c, position + (encodeChar c).length, rest) := by
  rw [encodeChar]
  by_cases hone : c.toNat < 0x80
  · rw [if_pos hone]
    exact ⟨_, _, rfl, readChar_one position rest hone⟩
  rw [if_neg hone]
  by_cases htwo : c.toNat < 0x800
  · rw [if_pos htwo]
    exact ⟨_, _, rfl, readChar_two position rest (by omega) htwo⟩
  rw [if_neg htwo]
  by_cases hthree : c.toNat < 0x10000
  · rw [if_pos hthree]
    exact ⟨_, _, rfl, readChar_three position rest (by omega) hthree⟩
  · rw [if_neg hthree]
    exact ⟨_, _, rfl, readChar_four position rest (by omega)⟩

end Widths

/-- Enough fuel is any that is no less than the number of bytes. -/
theorem decodeFrom_of_encodeFrom {text : Text} {start : Nat} {bytes : Bytes}
    (hencode : encodeFrom start text = .ok bytes) {fuel : Nat} (hfuel : bytes.length ≤ fuel)
    (position : Nat) : decodeFrom fuel position bytes = .ok text := by
  induction text generalizing start bytes fuel position with
  | nil =>
      obtain rfl : [] = bytes := Except.ok.inj hencode
      cases fuel <;> rfl
  | cons c rest ih =>
      cases c with
      | surrogate offset => simp [encodeFrom] at hencode
      | char c =>
          obtain ⟨behind, hbehind, rfl⟩ :
              ∃ behind, encodeFrom (start + 1) rest = .ok behind ∧ encodeChar c ++ behind = bytes := by
            cases hbehind : encodeFrom (start + 1) rest with
            | error fault => simp [encodeFrom, hbehind, Except.map] at hencode
            | ok behind =>
                simp only [encodeFrom, hbehind, Except.map, Except.ok.injEq] at hencode
                exact ⟨behind, rfl, hencode⟩
          obtain ⟨byte, more, hbytes, hread⟩ := exists_readChar_encodeChar position behind c
          rw [hbytes, List.cons_append, List.length_cons, List.length_append] at hfuel
          rw [hbytes, List.cons_append]
          cases fuel with
          | zero => omega
          | succ left =>
              have hrest : decodeFrom left (position + (encodeChar c).length) behind = .ok rest :=
                ih hbehind (by omega) _
              simp only [decodeFrom, hread, hrest]

/-- The bytes of a text hold that text and no other. -/
theorem decode_of_encode {text : Text} {bytes : Bytes} (hencode : encode text = .ok bytes) :
    decode bytes = .ok text :=
  decodeFrom_of_encodeFrom hencode (Nat.le_refl _) 0

/-- No surrogate stands in the text. -/
def Encodable (text : Text) : Prop :=
  ∀ offset, CodePoint.surrogate offset ∉ text

theorem exists_encodeFrom_iff (start : Nat) (text : Text) :
    (∃ bytes, encodeFrom start text = .ok bytes) ↔ Encodable text := by
  induction text generalizing start with
  | nil => simp [encodeFrom, Encodable]
  | cons c rest ih =>
      cases c with
      | surrogate offset =>
          have hmem : ¬ Encodable (.surrogate offset :: rest) :=
            fun hnone => hnone offset List.mem_cons_self
          simp [encodeFrom, hmem]
      | char c =>
          have hrest : Encodable (.char c :: rest) ↔ Encodable rest := by simp [Encodable]
          rw [hrest, ← ih (start + 1)]
          cases hbehind : encodeFrom (start + 1) rest <;> simp [encodeFrom, hbehind, Except.map]

/-- Exactly the texts without a surrogate have bytes. -/
theorem exists_encode_iff (text : Text) : (∃ bytes, encode text = .ok bytes) ↔ Encodable text :=
  exists_encodeFrom_iff 0 text

theorem exists_encode_error_iff (text : Text) :
    (∃ fault, encode text = .error fault) ↔ ¬ Encodable text := by
  rw [← exists_encode_iff]
  cases encode text with
  | error fault => simp
  | ok bytes => simp

def bytesOf (string : String) : Bytes :=
  string.toList.flatMap encodeChar

theorem encode_text (string : String) : encode string.text = .ok (bytesOf string) := by
  have hfrom : ∀ (characters : List Char) start,
      encodeFrom start (characters.map .char) = .ok (characters.flatMap encodeChar) := by
    intro characters
    induction characters with
    | nil => exact fun _ => rfl
    | cons c rest ih =>
        intro start
        rw [List.map_cons, encodeFrom, ih, List.flatMap_cons]
        rfl
  exact hfrom string.toList 0

@[simp] theorem encodable_append (first second : Text) :
    Encodable (first ++ second) ↔ Encodable first ∧ Encodable second := by
  simp only [Encodable, List.mem_append, not_or, forall_and]

@[simp] theorem encodable_text (string : String) : Encodable string.text := by
  simp [Encodable, String.text]

@[simp] theorem encodable_nil : Encodable [] := by
  simp [Encodable]

@[simp] theorem encodable_cons_char (c : Char) (rest : Text) :
    Encodable (.char c :: rest) ↔ Encodable rest := by
  simp [Encodable]

theorem encodable_unlines {lines : List Text} (hlines : ∀ line ∈ lines, Encodable line) :
    Encodable (Text.unlines lines) := by
  intro offset hmem
  obtain ⟨line, hline, hin⟩ := List.mem_flatMap.mp hmem
  have hnewline : Encodable (line ++ [.char '\n']) := by simpa using hlines line hline
  exact hnewline offset hin

/-- Decoding gives characters only. -/
theorem encodable_of_decodeFrom {fuel position : Nat} {bytes : Bytes} {text : Text}
    (hdecode : decodeFrom fuel position bytes = .ok text) : Encodable text := by
  induction fuel generalizing position bytes text with
  | zero =>
      cases bytes <;> obtain rfl := Except.ok.inj hdecode <;> simp [Encodable]
  | succ fuel ih =>
      cases bytes with
      | nil =>
          obtain rfl := Except.ok.inj hdecode
          simp [Encodable]
      | cons byte rest =>
          simp only [decodeFrom] at hdecode
          split at hdecode
          · cases hdecode
          · split at hdecode
            · cases hdecode
            · rename_i hrest
              obtain rfl := Except.ok.inj hdecode
              simpa [Encodable] using ih hrest

theorem encodable_of_decode {bytes : Bytes} {text : Text} (hdecode : decode bytes = .ok text) :
    Encodable text :=
  encodable_of_decodeFrom hdecode

end TwoPass.Utf8
