import EmissionLedger.Text.Hex

/-!
Addresses: 32 bytes, written as 64 lower case hexadecimal digits.
-/

namespace EmissionLedger

/-- How many bytes an address has. -/
def addressBytes : Nat := 32

/-- The written form of an address. -/
def isAddressText (s : String) : Bool :=
  s.toList.length == 64 && s.toList.all Hex.isLowerDigit

/-- An address by its written form. -/
structure Address where
  text : String
  wellFormed : isAddressText text = true
deriving DecidableEq

namespace Address

/-- The address with the given written form. -/
def ofText? (s : String) : Option Address :=
  if h : isAddressText s = true then some ⟨s, h⟩ else none

/-- The address of 32 bytes. -/
def ofBytes? (bytes : List UInt8) : Option Address := ofText? (Hex.text bytes)

/-- The bytes of an address. -/
def bytes (a : Address) : List UInt8 := (Hex.decode? a.text.toList).getD []

/-- The address of zero bytes. -/
def zero : Address := ⟨String.ofList (List.replicate 64 '0'), by decide⟩

@[ext] theorem ext {a b : Address} (h : a.text = b.text) : a = b := by
  cases a; cases b; simp_all

end Address

end EmissionLedger
