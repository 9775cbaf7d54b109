import PrivilegeStore.Bits
import PrivilegeStore.Text.Quoted
import PrivilegeStore.Violation

/-!
# Notices

What is reported while changes are judged and registrations prepared: a severity, the channel it
goes to, and a message.
-/
namespace PrivilegeStore

inductive Severity where
  | debug
  | info
  | warning
  | error
  | critical
deriving DecidableEq, Repr

namespace Severity

def rank : Severity → Nat
  | .debug => 10
  | .info => 20
  | .warning => 30
  | .error => 40
  | .critical => 50

def label : Severity → String
  | .debug => "DEBUG"
  | .info => "INFO"
  | .warning => "WARNING"
  | .error => "ERROR"
  | .critical => "CRITICAL"

/-- The least rank that a level lets through, by the level's name. -/
def threshold? : String → Option Nat
  | "CRITICAL" | "FATAL" => some 50
  | "ERROR" => some 40
  | "WARNING" | "WARN" => some 30
  | "INFO" => some 20
  | "DEBUG" => some 10
  | "NOTSET" => some 0
  | _ => none

end Severity

inductive Notice where
  | definitionsRead (count : Nat)
  | registrationPrepared (name : String) (bits : Bits)
  | bitsReused (name : String) (owners : List String)
  | nextBitsNotUpdated (expected found : Bits)
  | atomicAccepted (name : String) (bits : Bits)
  | aggregateAccepted (name : String)
  | namespaceReserved (name : String)
  | privilegePassed (name : String)
  | commitRejected (events : Nat) (breach : Breach)
  | commitAccepted (events : Nat)
deriving DecidableEq, Repr

namespace Notice

def severity : Notice → Severity
  | .definitionsRead _ | .registrationPrepared _ _ | .atomicAccepted _ _ | .aggregateAccepted _
  | .commitAccepted _ => .debug
  | .bitsReused _ _ | .nextBitsNotUpdated _ _ | .privilegePassed _ => .info
  | .namespaceReserved _ | .commitRejected _ _ => .warning

def channel : Notice → String
  | .definitionsRead _ => "privilege_integrity.privilege.definitions"
  | .registrationPrepared _ _ => "privilege_integrity.privilege.writer"
  | .bitsReused _ _ | .atomicAccepted _ _ | .aggregateAccepted _ =>
    "privilege_integrity.validation.aggregation"
  | .nextBitsNotUpdated _ _ => "privilege_integrity.validation.counter"
  | .namespaceReserved _ | .privilegePassed _ | .commitRejected _ _ | .commitAccepted _ =>
    "privilege_integrity.validation.dispatcher"

def message : Notice → String
  | .definitionsRead count => s!"Read {count} privilege definitions"
  | .registrationPrepared name bits =>
    "Prepared registration of " ++ name ++ " with " ++ bits.inMessage
  | .bitsReused name owners =>
    "Privilege " ++ name ++ " reuses bits of " ++ Text.quotedList owners
  | .nextBitsNotUpdated expected found =>
    "Next bits not updated: expected " ++ expected.inMessage ++ ", found " ++ found.inMessage
  | .atomicAccepted name bits =>
    "Accepted atomic privilege " ++ name ++ " with " ++ bits.inMessage
  | .aggregateAccepted name => "Accepted aggregate privilege " ++ name
  | .namespaceReserved name => "Rejected privilege " ++ name ++ ": reserved namespace"
  | .privilegePassed name => "Privilege " ++ name ++ " passed validation"
  | .commitRejected events breach =>
    s!"Commit rejected after {events} event(s): " ++ breach.violation.text
  | .commitAccepted events => s!"Commit accepted after {events} event(s)"

/-- Severity, channel and message, parted by blanks. -/
def line (n : Notice) : String := n.severity.label ++ " " ++ n.channel ++ " " ++ n.message

end Notice

end PrivilegeStore
