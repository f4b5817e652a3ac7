/-!
The wording of messages: literal text and integers written in decimal. An integer of more than
4300 digits is not written, so a message that needs one cannot be given, and `tooLongText` stands
in its place.
-/

namespace EmissionLedger

/-- A part of a message. -/
inductive Piece where
  | text (s : String)
  | int (n : Int)

instance : Coe String Piece := ⟨.text⟩
instance : Coe Int Piece := ⟨.int⟩
instance : Coe Nat Piece := ⟨fun n => .int n⟩

/-- A message as the list of its parts. -/
abbrev Wording := List Piece

/-- The most digits that an integer in a message may have. -/
def maxMessageDigits : Nat := 4300

def Piece.text? : Piece → Option String
  | .text s => some s
  | .int n => if n.natAbs < Nat.pow 10 maxMessageDigits then some (toString n) else none

/-- The message, unless one of its integers is too long to write. -/
def Wording.text? (w : Wording) : Option String :=
  (w.mapM Piece.text?).map String.join

/-- What is said in place of a message that needs an integer too long to write. -/
def tooLongText : String :=
  "Exceeds the limit (4300 digits) for integer string conversion; use " ++
    "sys.set_int_max_str_digits() to increase the limit"

/-- The message, or the text that stands in for it. -/
def Wording.text (w : Wording) : String := w.text?.getD tooLongText

end EmissionLedger
