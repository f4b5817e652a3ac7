import EmissionLedger.Fault
import EmissionLedger.Text.Blank

/-!
Bytes of addresses from text and back. Blanks may stand before, after and between pairs of digits,
not inside a pair.
-/

namespace EmissionLedger

namespace Hex

/-- The bytes of a text, or the place of the first character that should have been a digit; `i` is
the place of the first character. A text that ends inside a pair fails at its end. -/
def scan : Nat → List Char → Except Nat (List UInt8)
  | _, [] => .ok []
  | i, c :: rest =>
    if Text.isAsciiBlank c then scan (i + 1) rest
    else match digit? c, rest with
      | none, _ => .error i
      | some _, [] => .error (i + 1)
      | some high, d :: others =>
        match digit? d with
        | none => .error (i + 1)
        | some low => (scan (i + 2) others).map (UInt8.ofNat (16 * high + low) :: ·)

/-- The bytes of a text. A character outside ASCII is refused before any other. -/
def parse (s : String) : Result (List UInt8) :=
  let outcome : Except Nat (List UInt8) := match s.toList.findIdx? fun c => 128 ≤ c.toNat with
    | some i => .error i
    | none => scan 0 s.toList
  outcome.mapError fun i => .argument (.notHex i)

end Hex

/-- Refuses bytes that are no address for their number. -/
def checkAddressBytes (bytes : List UInt8) : Result (List UInt8) :=
  if bytes.length = addressBytes then .ok bytes else .error (.argument (.addressBytes bytes.length))

/-- The bytes of an address text. -/
def addressToBytes (s : String) : Result (List UInt8) := do
  let bytes ← Hex.parse s
  checkAddressBytes bytes

/-- The address text of bytes. -/
def addressFromBytes (bytes : List UInt8) : Result String := do
  let bytes ← checkAddressBytes bytes
  return Hex.text bytes

end EmissionLedger
