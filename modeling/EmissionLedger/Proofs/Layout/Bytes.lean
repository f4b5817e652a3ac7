import EmissionLedger.Number.Bytes
import EmissionLedger.Record.Address

/-!
Counters, numbers and addresses as bytes. Each of the three writes a value in a fixed number of bytes,
and reading any bytes of that length and writing what was read gives the bytes back.

Main statements: `littleEndian_ofLittleEndian` and `ofLittleEndian_littleEndian` for counters,
`Address.ofBytes?_of_length` and `Address.ofBytes?_bytes` for addresses.
-/

namespace EmissionLedger

/-! ### Counters -/

/-- Reading bytes and writing them in the same width gives them back. -/
theorem littleEndian_ofLittleEndian (data : List UInt8) :
    littleEndian data.length (ofLittleEndian data) = data := by
  induction data with
  | nil => rfl
  | cons b rest ih =>
    have hb : b.toNat < 256 := b.toNat_lt
    have low : (b.toNat + 256 * ofLittleEndian rest) % 256 = b.toNat := by omega
    have high : (b.toNat + 256 * ofLittleEndian rest) / 256 = ofLittleEndian rest := by omega
    simp only [ofLittleEndian, littleEndian, List.length_cons, low, high, ih, UInt8.ofNat_toNat]

/-- A value that fits in a width is read back. -/
theorem ofLittleEndian_littleEndian {width n : Nat} (fits : n < Nat.pow 256 width) :
    ofLittleEndian (littleEndian width n) = n := by
  induction width generalizing n with
  | zero =>
    have : n = 0 := by simpa using fits
    simp [littleEndian, ofLittleEndian, this]
  | succ width ih =>
    have rest : n / 256 < Nat.pow 256 width := by
      rw [Nat.pow_eq, Nat.pow_succ] at fits
      exact Nat.div_lt_of_lt_mul (by rwa [Nat.mul_comm])
    have low : (UInt8.ofNat (n % 256)).toNat = n % 256 :=
      UInt8.toNat_ofNat_of_lt (Nat.mod_lt n (by decide))
    simp only [littleEndian, ofLittleEndian, low, ih rest]
    omega

/-! ### Hexadecimal digits -/

namespace Hex

theorem digit?_digitChar : ∀ n < 16, digit? (Nat.digitChar n) = some n := by decide

/-- A lower case digit is the digit of its value. -/
theorem digit?_of_isLowerDigit {c : Char} (lower : isLowerDigit c = true) :
    ∃ n, n < 16 ∧ digit? c = some n ∧ Nat.digitChar n = c := by
  -- A digit's code is small, so the digits are found by going through the codes.
  have byCode : ∀ code < 128, isLowerDigit (Char.ofNat code) = true →
      ∃ n, n < 16 ∧ digit? (Char.ofNat code) = some n ∧ Nat.digitChar n = Char.ofNat code := by
    decide
  have small : c.toNat < 128 := by
    simp only [isLowerDigit, Bool.or_eq_true, Bool.and_eq_true, decide_eq_true_eq] at lower
    rcases lower with ⟨-, h⟩ | ⟨-, h⟩
    · exact Nat.lt_of_le_of_lt (show c.toNat ≤ ('9').toNat from h) (by decide)
    · exact Nat.lt_of_le_of_lt (show c.toNat ≤ ('f').toNat from h) (by decide)
  simpa only [Char.ofNat_toNat] using byCode c.toNat small (by rwa [Char.ofNat_toNat])

theorem isLowerDigit_digitChar : ∀ n < 16, isLowerDigit (Nat.digitChar n) = true := by decide

@[simp] theorem length_encode (data : List UInt8) : (encode data).length = 2 * data.length := by
  induction data with
  | nil => rfl
  | cons b rest ih =>
    simp only [encode, List.flatMap_cons, List.length_append, List.length_cons, List.length_nil] at ih ⊢
    omega

theorem all_isLowerDigit_encode (data : List UInt8) : (encode data).all isLowerDigit = true := by
  induction data with
  | nil => rfl
  | cons b rest ih =>
    have hb : b.toNat < 256 := b.toNat_lt
    have high := isLowerDigit_digitChar (b.toNat / 16) (by omega)
    have low := isLowerDigit_digitChar (b.toNat % 16) (by omega)
    simp only [encode, List.flatMap_cons, List.all_append, List.all_cons, List.all_nil, Bool.and_true,
      Bool.and_eq_true] at ih ⊢
    exact ⟨⟨high, low⟩, ih⟩

/-- Bytes are read back from their text. -/
theorem decode?_encode (data : List UInt8) : decode? (encode data) = some data := by
  induction data with
  | nil => rfl
  | cons b rest ih =>
    have hb : b.toNat < 256 := b.toNat_lt
    have high := digit?_digitChar (b.toNat / 16) (by omega)
    have low := digit?_digitChar (b.toNat % 16) (by omega)
    have both : 16 * (b.toNat / 16) + b.toNat % 16 = b.toNat := by omega
    show decode? (Nat.digitChar (b.toNat / 16) :: Nat.digitChar (b.toNat % 16) :: encode rest) = _
    simp only [decode?, high, low, ih, Option.bind_eq_bind, Option.bind_some, both,
      UInt8.ofNat_toNat, Option.pure_def]

/-- A text of pairs of lower case digits is the text of the bytes read from it. -/
theorem encode_decode? : ∀ (cs : List Char) (count : Nat), cs.length = 2 * count →
    cs.all isLowerDigit = true →
    ∃ data, decode? cs = some data ∧ encode data = cs ∧ data.length = count
  | [], count, hlen, _ => ⟨[], rfl, rfl, by simp at hlen ⊢; omega⟩
  | [_], count, hlen, _ => by simp at hlen; omega
  | high :: low :: rest, count, hlen, hall => by
    simp only [List.all_cons, Bool.and_eq_true] at hall
    obtain ⟨hhigh, hlow, hrest⟩ := hall
    obtain ⟨h, hh, readHigh, rfl⟩ := digit?_of_isLowerDigit hhigh
    obtain ⟨l, hl, readLow, rfl⟩ := digit?_of_isLowerDigit hlow
    obtain ⟨data, readRest, rfl, hdata⟩ :=
      encode_decode? rest (count - 1) (by simp at hlen; omega) hrest
    have byte : (UInt8.ofNat (16 * h + l)).toNat = 16 * h + l :=
      UInt8.toNat_ofNat_of_lt (Nat.lt_of_lt_of_le (show 16 * h + l < 256 by omega) (by decide))
    have first : (16 * h + l) / 16 = h := by omega
    have second : (16 * h + l) % 16 = l := by omega
    refine ⟨UInt8.ofNat (16 * h + l) :: data, ?_, ?_, ?_⟩
    · simp only [decode?, readHigh, readLow, readRest, Option.bind_eq_bind, Option.bind_some,
        Option.pure_def]
    · simp only [encode, List.flatMap_cons, byte, first, second, List.cons_append, List.nil_append]
    · simp only [List.length_cons] at hlen ⊢
      omega

end Hex

/-! ### Addresses -/

namespace Address

/-- As many bytes as an address has are the bytes of an address. -/
theorem ofBytes?_of_length {data : List UInt8} (hlen : data.length = addressBytes) :
    ∃ a, ofBytes? data = some a ∧ a.bytes = data := by
  have written : isAddressText (Hex.text data) = true := by
    simp only [isAddressText, Hex.text, String.toList_ofList, Hex.length_encode, hlen,
      Hex.all_isLowerDigit_encode]
    decide
  refine ⟨⟨Hex.text data, written⟩, dif_pos written, ?_⟩
  simp only [bytes, Hex.text, String.toList_ofList, Hex.decode?_encode, Option.getD_some]

/-- An address is read back from its bytes. -/
theorem ofBytes?_bytes (a : Address) :
    a.bytes.length = addressBytes ∧ ofBytes? a.bytes = some a := by
  have written := a.wellFormed
  simp only [isAddressText, Bool.and_eq_true, beq_iff_eq] at written
  obtain ⟨data, read, back, count⟩ := Hex.encode_decode? a.text.toList 32 written.1 written.2
  have hbytes : a.bytes = data := by simp only [bytes, read, Option.getD_some]
  have htext : Hex.text data = a.text := by rw [Hex.text, back, String.ofList_toList]
  refine ⟨by rw [hbytes, count]; rfl, ?_⟩
  rw [hbytes, ofBytes?, htext, ofText?, dif_pos a.wellFormed]

end Address

end EmissionLedger
