import EmissionLedger.Number.Arithmetic

/-!
Numbers as four 64-bit words and as 32 bytes, both with the least significant part first.
-/

namespace EmissionLedger

/-- The low `width` bytes of a natural number, least significant first. -/
def littleEndian : Nat → Nat → List UInt8
  | 0, _ => []
  | width + 1, n => UInt8.ofNat (n % 256) :: littleEndian width (n / 256)

/-- The natural number with the given bytes, least significant first. -/
def ofLittleEndian : List UInt8 → Nat
  | [] => 0
  | b :: rest => b.toNat + 256 * ofLittleEndian rest

theorem ofLittleEndian_lt (bytes : List UInt8) : ofLittleEndian bytes < Nat.pow 256 bytes.length := by
  induction bytes with
  | nil => decide
  | cons b rest ih =>
    have hb : b.toNat < 256 := b.toNat_lt
    simp only [ofLittleEndian, List.length_cons, Nat.pow_eq, Nat.pow_succ] at ih ⊢
    omega

@[simp] theorem length_littleEndian (width n : Nat) : (littleEndian width n).length = width := by
  induction width generalizing n with
  | zero => rfl
  | succ width ih => simp [littleEndian, ih]

namespace Number

/-- How many bytes a number has. -/
def byteCount : Nat := 32

/-- One more than the largest word. -/
def wordBase : Nat := Nat.pow 2 64

/-- The four words of a number. -/
def words (a : Number) : List Nat :=
  [a.raw % wordBase, a.raw / wordBase % wordBase, a.raw / wordBase.pow 2 % wordBase,
    a.raw / wordBase.pow 3 % wordBase]

/-- The natural number with the given words, least significant first. -/
def ofWords : List Nat → Nat
  | [] => 0
  | w :: rest => w + wordBase * ofWords rest

/-- The bytes of a number. -/
def bytes (a : Number) : List UInt8 := littleEndian byteCount a.raw

/-- The number with the given 32 bytes. -/
def ofBytes (data : List UInt8) : Result Number :=
  if data.length = byteCount then ofRaw (ofLittleEndian data)
  else .error (.argument (.byteCount data.length))

end Number

end EmissionLedger
