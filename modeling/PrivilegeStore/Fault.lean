import PrivilegeStore.Value

/-!
# Faults

Why something could not be read or done. A fault is not a verdict: it says that a stored value or a
request makes no sense, where a violation says that a well-formed change breaks a rule.
-/
namespace PrivilegeStore

inductive Fault where
  /-- A negative number was to become bits. -/
  | negativeBits (n : Int)
  /-- A word of bits is not below `2 ^ 64`, or is negative. -/
  | wordOutOfRange (word : Scalar)
  /-- A truth value is stored where bits belong. -/
  | truthValueAsBits (b : Bool)
  /-- A text that is no numeral, or a float that is no number, stands for a word. -/
  | notANumeral
  /-- An infinite float stands for a word. -/
  | infiniteWord
  /-- A value that can never be a word stands for one. -/
  | notAWord
  /-- A value without elements stands where a list belongs. -/
  | notEnumerable
  /-- A list or an object is a member of a set. -/
  | compoundMember
  /-- Members that have no common order were to be sorted. -/
  | unorderedMembers
  /-- A member that is no text was to be written in a table. -/
  | memberNotText
  /-- Something that is not bits was joined with bits. -/
  | notBits
  /-- A side of an event is absent or of the wrong kind. -/
  | missingSide
  /-- An event of a kind that does not exist. -/
  | unknownEvent (kind : String)
  /-- A registration without a store to register in. -/
  | storeMissing (path : String)
deriving DecidableEq, Repr

namespace Fault

/-- The wording of a fault, for those that have one. -/
def message? : Fault → Option String
  | .negativeBits n => some s!"Privilege bits must be non-negative: {n}"
  | .wordOutOfRange word => some ("Invalid privilege bits word: " ++ word.inMessage)
  | .truthValueAsBits b => some ("Invalid privilege bits value: " ++ (Scalar.bool b).inMessage)
  | .unknownEvent kind => some ("Unknown diff event type: " ++ kind)
  | .storeMissing path =>
    some s!"No privileges node at {path}; initialize the store first"
  | _ => none

end Fault

end PrivilegeStore
