import PrivilegeStore.Json.Reader
import PrivilegeStore.Node.Reading
import PrivilegeStore.Snapshot

/-!
# Snapshots read from text

A snapshot is written as the JSON text of its root node.
-/
namespace PrivilegeStore.Snapshot

inductive ParsingFault where
  /-- The text is no JSON. -/
  | malformed
  /-- An integer in the text has too many digits. -/
  | numeralTooLong
  /-- The JSON is no node. -/
  | notNode (faults : List Node.ReadingFault)
deriving DecidableEq, Repr

def parse (text : String) : Except ParsingFault Snapshot :=
  match Json.parse text with
  | .error .malformed => .error .malformed
  | .error .numeralTooLong => .error .numeralTooLong
  | .ok value =>
    match Node.ofValue value with
    | .error faults => .error (.notNode faults)
    | .ok root => .ok ⟨root⟩

end PrivilegeStore.Snapshot
