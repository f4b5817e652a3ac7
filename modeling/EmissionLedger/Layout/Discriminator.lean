import EmissionLedger.Digest.Sha256

/-!
Discriminators: the eight bytes that stand before a stored record and tell its kind.
-/

namespace EmissionLedger

/-- How many bytes a discriminator has. -/
def discriminatorBytes : Nat := 8

/-- The first eight bytes of the digest of the name, said to be an account's. -/
def discriminator (name : String) : List UInt8 :=
  (Sha256.digest ("account:" ++ name).toUTF8.toList).take discriminatorBytes

end EmissionLedger
