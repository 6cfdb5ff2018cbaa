import EndpointMonitor.Json.Lexer
import EndpointMonitor.Json.Writer

/-!
Quoted texts. What is written for a text is taken in by the lexer without a token on the way, and
its pieces are the bytes of the text again.
-/

namespace EndpointMonitor

/-- A text is read back from its UTF-8 bytes. -/
theorem Bytes.text_ofText (s : String) : Bytes.text? (Bytes.ofText s) = some s := by
  have bytes : (⟨(Bytes.ofText s).toArray⟩ : ByteArray) = s.toByteArray := by
    rw [← String.utf8Encode_toList (b := s), List.utf8Encode]
    exact ByteArray.ext (List.data_toByteArray).symm
  rw [Bytes.text?, bytes, String.fromUTF8?, dif_pos s.isValidUTF8]
  rfl

namespace Json

/-! ### Passing over bytes -/

namespace Lexer

/-- Takes bytes that complete no token. -/
def pass (lexer : Lexer) : Bytes → Option Lexer
  | [] => some lexer
  | b :: rest =>
    match lexer.step b with
    | some ([], next) => next.pass rest
    | _ => none

theorem pass_cons {lexer next : Lexer} {b : UInt8} (h : lexer.step b = some ([], next))
    (rest : Bytes) : lexer.pass (b :: rest) = next.pass rest := by
  simp only [pass, h]

theorem pass_append {lexer next : Lexer} {bs : Bytes} (h : lexer.pass bs = some next)
    (rest : Bytes) : lexer.pass (bs ++ rest) = next.pass rest := by
  induction bs generalizing lexer with
  | nil =>
    obtain rfl := Option.some.inj h
    rfl
  | cons b bs ih =>
    rw [pass] at h
    split at h
    · next first taken =>
      rw [List.cons_append, pass_cons taken]
      exact ih h
    · cases h

end Lexer

/-! ### Pieces -/

theorem Piece.bytes_byte (b : UInt8) (pieces : List Piece) :
    bytes? (.byte b :: pieces) = (bytes? pieces).map (b :: ·) := by
  rw [bytes?]

theorem Piece.bytes_map_byte (bs : Bytes) (pieces : List Piece) :
    bytes? (bs.map .byte ++ pieces) = (bytes? pieces).map (bs ++ ·) := by
  induction bs with
  | nil => simp
  | cons b bs ih =>
    rw [List.map_cons, List.cons_append, bytes_byte, ih, Option.map_map]
    rfl

theorem Piece.bytes_unit {n : Nat} (h : n < 0xd800) (pieces : List Piece) :
    bytes? (.unit n :: pieces) =
      (bytes? pieces).map (String.utf8EncodeChar (Char.ofNat n) ++ ·) := by
  have high : highSurrogate n = false := by simp [highSurrogate]; omega
  have low : lowSurrogate n = false := by simp [lowSurrogate]; omega
  cases pieces with
  | nil => simp [bytes?, high, low]
  | cons piece rest => cases piece <;> simp [bytes?, high, low]

/-! ### Characters -/

/-- Whether a byte stands for itself in a quoted text. -/
def isPlain (b : UInt8) : Bool := 0x20 ≤ b && b != 0x22 && b != 0x5c

theorem Lexer.step_plain {b : UInt8} (h : isPlain b = true) (pieces : List Piece) :
    Lexer.step (.quoted pieces) b = some ([], .quoted (.byte b :: pieces)) := by
  simp only [isPlain, Bool.and_eq_true, decide_eq_true_eq, bne_iff_ne, ne_eq] at h
  obtain ⟨⟨printable, quote⟩, backslash⟩ := h
  simp only [step, if_neg quote, if_neg backslash, if_neg (UInt8.not_lt.2 printable)]

theorem Lexer.pass_plain {bs : Bytes} (h : ∀ b ∈ bs, isPlain b = true) (pieces : List Piece) :
    pass (.quoted pieces) bs = some (.quoted ((bs.map .byte).reverse ++ pieces)) := by
  induction bs generalizing pieces with
  | nil => rfl
  | cons b bs ih =>
    rw [pass_cons (step_plain (h b List.mem_cons_self) pieces),
      ih (fun c hc => h c (List.mem_cons_of_mem b hc))]
    simp

theorem isPlain_of_high {b : UInt8} (h : 0x80 ≤ b.toNat) : isPlain b = true := by
  have quote : b ≠ 0x22 := by rintro rfl; exact absurd h (by decide)
  have backslash : b ≠ 0x5c := by rintro rfl; exact absurd h (by decide)
  have printable : (0x20 : UInt8) ≤ b := by
    rw [UInt8.le_iff_toNat_le]
    exact Nat.le_trans (by decide) h
  simp [isPlain, quote, backslash, printable]

theorem high_or (x : UInt8) {y : UInt8} (h : 0x80 ≤ y.toNat) : 0x80 ≤ (x ||| y).toNat := by
  rw [UInt8.toNat_or]
  exact Nat.le_trans h Nat.right_le_or

/-- The bytes of a character that is not escaped stand for themselves. -/
theorem isPlain_of_mem_encode {c : Char} (printable : 0x20 ≤ c.toNat) (quote : c ≠ '"')
    (backslash : c ≠ '\\') : ∀ b ∈ String.utf8EncodeChar c, isPlain b = true := by
  intro b hb
  rcases Char.utf8Size_eq c with size | size | size | size
  · rw [String.utf8EncodeChar_eq_singleton size, List.mem_singleton] at hb
    have small : c.toNat ≤ 0x7f := UInt32.le_iff_toNat_le.1 (Char.utf8Size_eq_one_iff.1 size)
    have value : b.toNat = c.toNat := by
      rw [hb, UInt32.toNat_toUInt8]
      exact Nat.mod_eq_of_lt (Nat.lt_of_le_of_lt small (by decide))
    have apart : ∀ d : Char, c ≠ d → b.toNat ≠ d.toNat := fun d hd same =>
      hd (Char.toNat_inj.1 (value.symm.trans same))
    have notQuote : b ≠ 0x22 := fun h => apart '"' quote (congrArg UInt8.toNat h)
    have notBackslash : b ≠ 0x5c := fun h => apart '\\' backslash (congrArg UInt8.toNat h)
    have notControl : (0x20 : UInt8) ≤ b := UInt8.le_iff_toNat_le.2 (value ▸ printable)
    simp [isPlain, notQuote, notBackslash, notControl]
  · rw [String.utf8EncodeChar_eq_cons_cons size] at hb
    simp only [List.mem_cons, List.not_mem_nil, or_false] at hb
    rcases hb with rfl | rfl <;> exact isPlain_of_high (high_or _ (by decide))
  · rw [String.utf8EncodeChar_eq_cons_cons_cons size] at hb
    simp only [List.mem_cons, List.not_mem_nil, or_false] at hb
    rcases hb with rfl | rfl | rfl <;> exact isPlain_of_high (high_or _ (by decide))
  · rw [String.utf8EncodeChar_eq_cons_cons_cons_cons size] at hb
    simp only [List.mem_cons, List.not_mem_nil, or_false] at hb
    rcases hb with rfl | rfl | rfl | rfl <;> exact isPlain_of_high (high_or _ (by decide))

/-- Bytes that are taken in, and pieces that stand for a character. -/
structure Quotes (c : Char) (bs : Bytes) (pieces : List Piece) : Prop where
  pass : ∀ earlier, Lexer.pass (.quoted earlier) bs = some (.quoted (pieces.reverse ++ earlier))
  bytes : ∀ later, Piece.bytes? (pieces ++ later) =
    (Piece.bytes? later).map (String.utf8EncodeChar c ++ ·)

theorem quotes_letter {c : Char} {letter : UInt8} (code : UInt8)
    (escape : Lexer.escaped? letter = some code) (notHex : letter ≠ 0x75)
    (value : String.utf8EncodeChar c = [code]) :
    Quotes c [0x5c, letter] [.byte code] where
  pass earlier := by
    have opens : Lexer.step (.quoted earlier) 0x5c = some ([], .escape earlier) := rfl
    have closes : Lexer.step (.escape earlier) letter =
        some ([], .quoted (.byte code :: earlier)) := by
      simp only [Lexer.step, if_neg notHex, escape, Option.map_some]
    rw [Lexer.pass_cons opens, Lexer.pass_cons closes]
    rfl
  bytes later := by
    rw [value]
    exact Piece.bytes_byte code later

theorem hexValue_hexDigit {d : Nat} (h : d < 16) : Lexer.hexValue? (hexDigit d) = some d := by
  have all : ∀ d : Fin 16, Lexer.hexValue? (hexDigit d) = some d.val := by decide
  exact all ⟨d, h⟩

theorem Lexer.step_hex {b : UInt8} {d left : Nat} (h : hexValue? b = some d) (more : 1 < left)
    (pieces : List Piece) (code : Nat) :
    step (.hex pieces code left) b = some ([], .hex pieces (code * 16 + d) (left - 1)) := by
  simp only [step, h, Option.map_some, if_neg (Nat.not_le.2 more)]

theorem Lexer.step_hex_last {b : UInt8} {d : Nat} (h : hexValue? b = some d) (pieces : List Piece)
    (code : Nat) :
    step (.hex pieces code 1) b = some ([], .quoted (.unit (code * 16 + d) :: pieces)) := by
  simp only [step, h, Option.map_some, Nat.le_refl, if_true]

theorem quotes_hex {c : Char} (h : c.toNat < 0x20) :
    Quotes c [0x5c, 0x75, 0x30, 0x30, hexDigit (c.toNat / 16), hexDigit (c.toNat % 16)]
      [.unit c.toNat] where
  pass earlier := by
    have opens : Lexer.step (.quoted earlier) 0x5c = some ([], .escape earlier) := rfl
    have marks : Lexer.step (.escape earlier) 0x75 = some ([], .hex earlier 0 4) := rfl
    have first : Lexer.step (.hex earlier 0 4) 0x30 = some ([], .hex earlier 0 3) := rfl
    have second : Lexer.step (.hex earlier 0 3) 0x30 = some ([], .hex earlier 0 2) := rfl
    have third := Lexer.step_hex (hexValue_hexDigit (d := c.toNat / 16) (by omega))
      (show 1 < 2 by omega) earlier 0
    have fourth := Lexer.step_hex_last (hexValue_hexDigit (d := c.toNat % 16) (by omega)) earlier
      (0 * 16 + c.toNat / 16)
    have code : (0 * 16 + c.toNat / 16) * 16 + c.toNat % 16 = c.toNat := by omega
    rw [code] at fourth
    rw [Lexer.pass_cons opens, Lexer.pass_cons marks, Lexer.pass_cons first,
      Lexer.pass_cons second, Lexer.pass_cons third, Lexer.pass_cons fourth]
    rfl
  bytes later := by
    rw [List.singleton_append, Piece.bytes_unit (by omega), Char.ofNat_toNat]

/-- What is written for a character stands for it. -/
theorem exists_quotes (c : Char) : ∃ pieces, Quotes c (writeChar c) pieces := by
  unfold writeChar
  split
  · next quote =>
    subst quote
    exact ⟨_, quotes_letter 0x22 rfl (by decide) rfl⟩
  · next quote =>
    split
    · next backslash =>
      subst backslash
      exact ⟨_, quotes_letter 0x5c rfl (by decide) rfl⟩
    · next backslash =>
      split
      · next control =>
        have letter : ∀ {letter : UInt8} (code : UInt8), Lexer.escaped? letter = some code →
            letter ≠ 0x75 → ∀ n, c.toNat = n → String.utf8EncodeChar (Char.ofNat n) = [code] →
            ∃ pieces, Quotes c [0x5c, letter] pieces := by
          intro letter code escape notHex n value encoded
          refine ⟨_, quotes_letter code escape notHex ?_⟩
          rw [← encoded, ← value, Char.ofNat_toNat]
        unfold writeControl
        split
        · next value => exact letter 0x08 rfl (by decide) _ value rfl
        · next value => exact letter 0x09 rfl (by decide) _ value rfl
        · next value => exact letter 0x0a rfl (by decide) _ value rfl
        · next value => exact letter 0x0c rfl (by decide) _ value rfl
        · next value => exact letter 0x0d rfl (by decide) _ value rfl
        · exact ⟨_, quotes_hex control⟩
      · next printable =>
        refine ⟨(String.utf8EncodeChar c).map .byte, ⟨fun earlier => ?_, fun later => ?_⟩⟩
        · exact Lexer.pass_plain (isPlain_of_mem_encode (Nat.not_lt.1 printable) quote backslash)
            earlier
        · exact Piece.bytes_map_byte _ later

/-! ### Texts -/

theorem exists_pieces (chars : List Char) : ∃ pieces,
    (∀ earlier, Lexer.pass (.quoted earlier) (chars.flatMap writeChar) =
      some (.quoted (pieces.reverse ++ earlier))) ∧
    Piece.bytes? pieces = some (chars.flatMap String.utf8EncodeChar) := by
  induction chars with
  | nil => exact ⟨[], fun _ => rfl, rfl⟩
  | cons c chars ih =>
    obtain ⟨first, quotes⟩ := exists_quotes c
    obtain ⟨others, passes, bytes⟩ := ih
    refine ⟨first ++ others, fun earlier => ?_, ?_⟩
    · rw [List.flatMap_cons, Lexer.pass_append (quotes.pass earlier), passes]
      simp
    · rw [quotes.bytes, bytes, List.flatMap_cons]
      rfl

/-- In front of its last quote, what is written for a text has been taken in as that text. -/
theorem exists_quoted (s : String) : ∃ pieces,
    Lexer.pass .gap (0x22 :: s.toList.flatMap writeChar) = some (.quoted pieces) ∧
      Piece.text? pieces.reverse = some s := by
  obtain ⟨pieces, passes, bytes⟩ := exists_pieces s.toList
  refine ⟨pieces.reverse, ?_, ?_⟩
  · have opens : Lexer.step .gap 0x22 = some ([], .quoted []) := rfl
    rw [Lexer.pass_cons opens, passes, List.append_nil]
  · rw [List.reverse_reverse, Piece.text?, bytes]
    exact Bytes.text_ofText s

end Json

end EndpointMonitor
