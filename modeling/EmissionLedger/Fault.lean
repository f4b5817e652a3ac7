import EmissionLedger.Number.Basic
import EmissionLedger.Record.Address
import EmissionLedger.Record.Kind
import EmissionLedger.Text.Wording

/-!
Why an operation is refused. A fault names its cause and the values at hand; its kind and its
message are functions of it.

Fatal faults break an invariant of the ledger: a number or counter leaves its range, an index or a
clock runs backwards, records do not belong together. Shortages are the caller's to expect and carry
a stable code. The other faults concern arguments and data that were never well formed.
-/

namespace EmissionLedger

/-- A fixed-point operation whose result is no number. -/
inductive NumberFault where
  | negative (raw : Int)
  | tooLarge (raw : Int)
  | addOverflow (a b : Number)
  | subUnderflow (a b : Number)
  | mulOverflow (a b : Number)
  | divOverflow (a b : Number)
  | divByZero (a : Number)
  | ceilOverflow (a : Number)
  | tooWide (a : Number) (bits : Nat)

/-- An index or total that is less than an account has seen already. -/
inductive IndexFault where
  | share (what : String) (current lastSeen : Number)
  | emitted (current : Int) (lastSeen : Nat)
  | timeUnits (current lastSeen : Number)

/-- Two records that do not belong together. -/
inductive Mismatch where
  | position (owner tracker pool : Address)
  | personalGauge (owner gauge pool : Address)
  | voter (reactor owner : Address)
  | gaugeTracker (gauge tracker : Address)
  | gaugePool (gauge pool : Address)
  | rewarderOwner (rewarder position : Address)
  | rewarderGauge (rewarder gauge : Address)
  | rewarderPosition (rewarder position : Address)

/-- What there is not enough of. -/
inductive Shortage where
  | rayBalance
  | rayToPledge
  | rayToUnpledge
  | votesToLock
  | votesToUnlock
  | votesToWithdraw
deriving DecidableEq

/-- An argument that no operation takes. -/
inductive ArgumentFault where
  | rawNotInteger (kind : String)
  | naturalNotInteger (kind : String)
  | naturalNegative (n : Int)
  | wordCount (n : Nat)
  | wordNotInteger (i : Nat) (kind : String)
  | wordOutOfRange (i : Nat) (n : Int)
  | byteCount (n : Nat)
  | decimalInvalid (shown : Piece)
  | decimalInfinite (shown : Piece)
  | decimalNegative (shown : Piece)
  | decimalTooFine (shown : Piece)
  | notBuildable (kind : String)
  | notInteger (name kind : String)
  | outOfRange (name : String) (low high : Int) (given : Piece)
  | negativeWidth
  | operands (symbol left right : String)
  | unordered (symbol left right : String)
  | unjoinable (kind left : String)
  | unrepeatable (right : String)
  | addressBytes (n : Nat)
  | notHex (place : Nat)
  | notReactor (kind : String)
  | otherKind (expected given : String)
  | recordSize (kind : RecordKind) (expected given : Nat)
  | foreignDiscriminator (kind : RecordKind)
  | missingDirectory (path : String)
  | restated (message : Wording)

/-- A step from data to a part of it. -/
inductive PathStep where
  | field (name : String)
  | index (i : Nat)

/-- What is wrong with one value of the data for a record. -/
inductive Complaint where
  | missing
  | notARecord
  | notAnInteger
  | unreadableInteger
  | oversizedInteger
  | fractional
  | notFinite
  | belowRange
  | aboveRange
  | notAString
  | patternMismatch
  | notAList
  | tooManyItems
  | refused (message : Wording)

/-- A complaint and the place of the value. -/
structure Item where
  path : List PathStep
  complaint : Complaint

/-- A rule of a JSON contract. -/
inductive Keyword where
  | additionalProperties
  | maximum
  | minimum
  | pattern
  | required
  | type
deriving DecidableEq

/-- A rule of a contract that data breaks, and where. -/
structure Violation where
  path : List String
  keyword : Keyword
  message : Option String

/-- Why an operation is refused. -/
inductive Fault where
  | number (cause : NumberFault)
  | counterOverflow (what : String) (a b limit : Int)
  | counterUnderflow (what : String) (a b : Int)
  | timestampRegression (what : String) (now last : Int)
  | indexRegression (cause : IndexFault)
  | mismatch (cause : Mismatch)
  | noRewardSlot (position : Address) (mint : String)
  | shortage (cause : Shortage) (requested available : Int) (message : Option String)
  | argument (cause : ArgumentFault)
  | rejected (kind : RecordKind) (items : List Item)
  | contractBroken (violations : List Violation)
  | decimalOverflow
  | fieldTooWide
  | noLayout
  | noContract
  | unknownContract

/-- The outcome of an operation. -/
abbrev Result := Except Fault

/-- The kinds of fault that callers tell apart. -/
inductive FaultKind where
  | arithmeticOverflow
  | arithmeticUnderflow
  | divisionByZero
  | indexRegression
  | timestampRegression
  | recordMismatch
  | rewardSlotNotFound
  | shortage (cause : Shortage)
  | invalidValue
  | wrongKind
  | missingResource
  | rejected
  | contractBroken
  | decimalOverflow
  | fieldTooWide
  | unregistered
  | unknownContract
deriving DecidableEq

namespace NumberFault

def kind : NumberFault → FaultKind
  | negative _ | subUnderflow _ _ => .arithmeticUnderflow
  | divByZero _ => .divisionByZero
  | _ => .arithmeticOverflow

def wording : NumberFault → Wording
  | negative raw => ["Number raw value is negative: ", raw]
  | tooLarge raw => ["Number raw value exceeds 256 bits: ", raw]
  | addOverflow a b => ["Number add overflow: ", a.text, " + ", b.text]
  | subUnderflow a b => ["Number sub underflow: ", a.text, " - ", b.text]
  | mulOverflow a b => ["Number mul overflow: ", a.text, " * ", b.text]
  | divOverflow a b => ["Number div overflow: ", a.text, " / ", b.text]
  | divByZero a => ["Number division by zero: ", a.text, " / 0"]
  | ceilOverflow a => ["Number ceil overflow: ", a.text]
  | tooWide a bits => ["Number ", a.text, " does not fit into u", bits]

end NumberFault

def IndexFault.wording : IndexFault → Wording
  | share what current lastSeen =>
    [what, ": index must be non-decreasing, current=", current.text, " < last_seen=", lastSeen.text]
  | emitted current lastSeen =>
    ["gauge total emitted must be non-decreasing: ", current, " < ", lastSeen]
  | timeUnits current lastSeen =>
    ["earned time units must be non-decreasing: ", current.text, " < ", lastSeen.text]

def Mismatch.wording : Mismatch → Wording
  | position owner tracker pool =>
    ["position of ", owner.text, " belongs to tracker ", tracker.text, ", got ", pool.text]
  | personalGauge owner gauge pool =>
    ["personal gauge of ", owner.text, " belongs to pool ", gauge.text, ", got ", pool.text]
  | voter reactor owner => ["reactor of ", reactor.text, " cannot vote for ", owner.text]
  | gaugeTracker gauge tracker =>
    ["gauge of pool ", gauge.text, " cannot reward tracker of ", tracker.text]
  | gaugePool gauge pool => ["gauge of pool ", gauge.text, " cannot reward position in ", pool.text]
  | rewarderOwner owner holder =>
    ["rewarder of ", owner.text, " cannot accrue position of ", holder.text]
  | rewarderGauge own given => ["rewarder belongs to gauge ", own.text, ", got ", given.text]
  | rewarderPosition own given => ["rewarder belongs to position ", own.text, ", got ", given.text]

namespace Shortage

/-- The stable code of a shortage. -/
def code : Shortage → Nat
  | rayBalance => 6001
  | rayToPledge => 6002
  | rayToUnpledge => 6003
  | votesToLock => 6004
  | votesToUnlock => 6005
  | votesToWithdraw => 6006

/-- The stable name of a shortage's code. -/
def codeName : Shortage → String
  | rayBalance => "INSUFFICIENT_RAY_BALANCE"
  | rayToPledge => "INSUFFICIENT_RAY_TO_PLEDGE"
  | rayToUnpledge => "INSUFFICIENT_RAY_TO_UNPLEDGE"
  | votesToLock => "INSUFFICIENT_VOTES_TO_LOCK"
  | votesToUnlock => "INSUFFICIENT_VOTES_TO_UNLOCK"
  | votesToWithdraw => "INSUFFICIENT_VOTES_TO_WITHDRAW"

/-- What is said unless the caller words it. -/
def defaultMessage : Shortage → String
  | rayBalance => "Insufficient RAY balance for withdrawal"
  | rayToPledge => "Insufficient RAY to pledge"
  | rayToUnpledge => "Insufficient RAY to unpledge"
  | votesToLock => "Insufficient votes to lock"
  | votesToUnlock => "Insufficient votes to unlock"
  | votesToWithdraw => "Insufficient unlocked votes to withdraw"

/-- The message of a shortage; an empty wording counts as none. -/
def wording (cause : Shortage) (requested available : Int) (message : Option String) : Wording :=
  let said := match message with
    | some text => if text = "" then cause.defaultMessage else text
    | none => cause.defaultMessage
  [cause.code, ": ", said, " (requested=", requested, ", available=", available, ")"]

end Shortage

namespace ArgumentFault

def kind : ArgumentFault → FaultKind
  | rawNotInteger _ | operands _ _ _ | unordered _ _ _ | unjoinable _ _ | unrepeatable _
  | notReactor _ | otherKind _ _ => .wrongKind
  | missingDirectory _ => .missingResource
  | _ => .invalidValue

def wording : ArgumentFault → Wording
  | rawNotInteger kind => ["Number raw value must be int, got ", kind]
  | naturalNotInteger kind => ["natural value must be int, got ", kind]
  | naturalNegative n => ["natural value must be non-negative, got ", n]
  | wordCount n => ["expected 4 words, got ", n]
  | wordNotInteger i kind => ["word ", i, " must be int, got ", kind]
  | wordOutOfRange i n => ["word ", i, " out of u64 range: ", n]
  | byteCount n => ["expected 32 bytes, got ", n]
  | decimalInvalid shown => ["invalid decimal value: ", shown]
  | decimalInfinite shown => ["decimal value must be finite, got ", shown]
  | decimalNegative shown => ["decimal value must be non-negative, got ", shown]
  | decimalTooFine shown => ["decimal value has more than 12 fractional digits: ", shown]
  | notBuildable kind =>
    ["cannot build Number from ", kind, "; use a decimal string or 4 little-endian u64 words"]
  | notInteger name kind => [name, " must be int, got ", kind]
  | outOfRange name low high given => [name, " must be in [", low, ", ", high, "], got ", given]
  | negativeWidth => ["negative shift count"]
  | operands symbol left right =>
    ["unsupported operand type(s) for ", symbol, ": '", left, "' and '", right, "'"]
  | unordered symbol left right =>
    ["'", symbol, "' not supported between instances of '", left, "' and '", right, "'"]
  | unjoinable kind left =>
    ["can only concatenate ", kind, " (not \"", left, "\") to ", kind]
  | unrepeatable right => ["can't multiply sequence by non-int of type '", right, "'"]
  | addressBytes n => ["address must be 32 bytes, got ", n]
  | notHex place => ["non-hexadecimal number found in fromhex() arg at position ", place]
  | notReactor kind => ["change_votes requires the owner's Reactor, got ", kind]
  | otherKind expected given => ["expected ", expected, ", got ", given]
  | recordSize kind expected given => [kind.name, ": expected ", expected, " bytes, got ", given]
  | foreignDiscriminator kind => [kind.name, ": discriminator mismatch"]
  | missingDirectory path => ["Schema directory not found: ", path]
  | restated message => message

end ArgumentFault

namespace Complaint

/-- The stable code of a complaint. -/
def code : Complaint → String
  | missing => "missing"
  | notARecord => "model_type"
  | notAnInteger => "int_type"
  | unreadableInteger => "int_parsing"
  | oversizedInteger => "int_parsing_size"
  | fractional => "int_from_float"
  | notFinite => "finite_number"
  | belowRange => "greater_than_equal"
  | aboveRange => "less_than_equal"
  | notAString => "string_type"
  | patternMismatch => "string_pattern_mismatch"
  | notAList => "tuple_type"
  | tooManyItems => "too_long"
  | refused _ => "value_error"

/-- The message of a complaint that has one. -/
def message? : Complaint → Option String
  | refused message => some ("Value error, " ++ message.text)
  | _ => none

end Complaint

def Keyword.name : Keyword → String
  | additionalProperties => "additionalProperties"
  | maximum => "maximum"
  | minimum => "minimum"
  | pattern => "pattern"
  | required => "required"
  | type => "type"

namespace Fault

/-- The kind of a fault, by its cause. -/
def causeKind : Fault → FaultKind
  | number cause => cause.kind
  | counterOverflow .. => .arithmeticOverflow
  | counterUnderflow .. => .arithmeticUnderflow
  | timestampRegression .. => .timestampRegression
  | indexRegression _ => .indexRegression
  | mismatch _ => .recordMismatch
  | noRewardSlot .. => .rewardSlotNotFound
  | shortage cause .. => .shortage cause
  | argument cause => cause.kind
  | rejected .. => .rejected
  | contractBroken _ => .contractBroken
  | decimalOverflow => .decimalOverflow
  | fieldTooWide => .fieldTooWide
  | noLayout | noContract => .unregistered
  | unknownContract => .unknownContract

/-- The message of a fault; faults that carry no message have an empty one. -/
def wording : Fault → Wording
  | number cause => cause.wording
  | counterOverflow what a b limit => [what, " overflow: ", a, " + ", b, " > ", limit]
  | counterUnderflow what a b => [what, " underflow: ", a, " - ", b, " < 0"]
  | timestampRegression what now last =>
    ["cannot update ", what, " with older timestamp: now=", now, " < last=", last]
  | indexRegression cause => cause.wording
  | mismatch cause => cause.wording
  | noRewardSlot position mint => ["position ", position.text, " has no reward slot for mint ", mint]
  | shortage cause requested available message => cause.wording requested available message
  | argument cause => cause.wording
  | _ => []

/-- The kind of a fault as it is reported: a fault whose message cannot be written is reported as an
invalid value. -/
def kind (fault : Fault) : FaultKind :=
  if fault.wording.text?.isSome then fault.causeKind else .invalidValue

/-- The message of a fault as it is reported. -/
def message (fault : Fault) : String := fault.wording.text

/-- Whether the fault breaks an invariant of the ledger. -/
def isFatal : Fault → Bool
  | number _ | counterOverflow .. | counterUnderflow .. | timestampRegression .. | indexRegression _
  | mismatch _ | noRewardSlot .. => true
  | _ => false

end Fault

end EmissionLedger
