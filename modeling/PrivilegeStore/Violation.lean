import PrivilegeStore.Value.Form

/-!
# Rules and violations

Every rule of the store has a stable number. A breach is the way in which a change breaks one of the
rules; its wording names what is concerned. A violation is a rule with a category and a
message, written as the category, the number with at least four digits, and the message.
-/
namespace PrivilegeStore

inductive Rule where
  | reservedNamespace
  | definitionModified
  | definitionDeleted
  | nextBitsNotUpdated
  | storeNotInitialized
  | propertyModified
  | propertyDeleted
  | unknownDeclaredAggregate
  | bitsMissing
  | bitsInUse
  | singularAggregation
  | unregisteredAggregate
  | circularAggregation
  | duplicateAggregation
  | invalidAggregateBits
deriving DecidableEq, Repr

namespace Rule

def code : Rule → Nat
  | .reservedNamespace => 1
  | .definitionModified => 41
  | .definitionDeleted => 42
  | .nextBitsNotUpdated => 43
  | .storeNotInitialized => 44
  | .propertyModified => 45
  | .propertyDeleted => 46
  | .unknownDeclaredAggregate => 47
  | .bitsMissing => 48
  | .bitsInUse => 49
  | .singularAggregation => 50
  | .unregisteredAggregate => 51
  | .circularAggregation => 52
  | .duplicateAggregation => 53
  | .invalidAggregateBits => 54

def label : Rule → String
  | .reservedNamespace => "RESERVED_NAMESPACE"
  | .definitionModified => "DEFINITION_MODIFIED"
  | .definitionDeleted => "DEFINITION_DELETED"
  | .nextBitsNotUpdated => "NEXT_BITS_NOT_UPDATED"
  | .storeNotInitialized => "STORE_NOT_INITIALIZED"
  | .propertyModified => "PROPERTY_MODIFIED"
  | .propertyDeleted => "PROPERTY_DELETED"
  | .unknownDeclaredAggregate => "UNKNOWN_DECLARED_AGGREGATE"
  | .bitsMissing => "BITS_MISSING"
  | .bitsInUse => "BITS_IN_USE"
  | .singularAggregation => "SINGULAR_AGGREGATION"
  | .unregisteredAggregate => "UNREGISTERED_AGGREGATE"
  | .circularAggregation => "CIRCULAR_AGGREGATION"
  | .duplicateAggregation => "DUPLICATE_AGGREGATION"
  | .invalidAggregateBits => "INVALID_AGGREGATE_BITS"

def all : List Rule :=
  [.reservedNamespace, .definitionModified, .definitionDeleted, .nextBitsNotUpdated,
    .storeNotInitialized, .propertyModified, .propertyDeleted, .unknownDeclaredAggregate,
    .bitsMissing, .bitsInUse, .singularAggregation, .unregisteredAggregate, .circularAggregation,
    .duplicateAggregation, .invalidAggregateBits]

theorem mem_all (rule : Rule) : rule ∈ all := by cases rule <;> simp [all]

theorem code_injective {a b : Rule} (same : a.code = b.code) : a = b := by
  cases a <;> cases b <;> simp_all [code]

/-- The rule with a number, which may be written as any number equal to it. -/
def ofCode? (code : Scalar) : Option Rule :=
  all.find? fun rule => (Scalar.int rule.code).same code

end Rule

structure Violation where
  rule : Rule
  message : String
  category : String := "Constraint"
deriving DecidableEq, Repr

namespace Violation

/-- The number with zeros in front up to four digits. -/
def paddedCode (code : Nat) : String :=
  let digits := Nat.toDigits 10 code
  String.ofList (List.replicate (4 - digits.length) '0' ++ digits)

def reference (v : Violation) : String := v.category ++ paddedCode v.rule.code

def text (v : Violation) : String := v.reference ++ ": " ++ v.message

end Violation

inductive Breach where
  | reservedNamespace (name : String)
  | definitionModified (name : String)
  | definitionDeleted (name : String)
  | nextBitsNotUpdated
  | storeNotInitialized
  | propertyModified
  | propertyDeleted
  | unknownDeclaredAggregate (name : Scalar)
  | bitsMissing
  | bitsInUse
  | singularAggregation
  | unregisteredAggregate (name : Scalar)
  | circularAggregation (member : Scalar)
  | duplicateAggregation (name existing : String)
  | invalidAggregateBits
deriving DecidableEq, Repr

namespace Breach

def rule : Breach → Rule
  | .reservedNamespace _ => .reservedNamespace
  | .definitionModified _ => .definitionModified
  | .definitionDeleted _ => .definitionDeleted
  | .nextBitsNotUpdated => .nextBitsNotUpdated
  | .storeNotInitialized => .storeNotInitialized
  | .propertyModified => .propertyModified
  | .propertyDeleted => .propertyDeleted
  | .unknownDeclaredAggregate _ => .unknownDeclaredAggregate
  | .bitsMissing => .bitsMissing
  | .bitsInUse => .bitsInUse
  | .singularAggregation => .singularAggregation
  | .unregisteredAggregate _ => .unregisteredAggregate
  | .circularAggregation _ => .circularAggregation
  | .duplicateAggregation _ _ => .duplicateAggregation
  | .invalidAggregateBits => .invalidAggregateBits

def message : Breach → String
  | .reservedNamespace name =>
    "Failed to register custom privilege: Definition uses reserved namespace: " ++ name
  | .definitionModified name => "Attempt to modify existing privilege definition " ++ name
  | .definitionDeleted name => "Attempt to un-register privilege " ++ name
  | .nextBitsNotUpdated => "Next bits not updated"
  | .storeNotInitialized => "Privilege store not initialized."
  | .propertyModified => "Attempt to modify existing privilege definition."
  | .propertyDeleted => "Attempt to modify existing privilege definition."
  | .unknownDeclaredAggregate name =>
    "Invalid declared aggregate name " ++ name.inMessage ++ ": Unknown privilege."
  | .bitsMissing => "PrivilegeBits are missing."
  | .bitsInUse => "PrivilegeBits already in use."
  | .singularAggregation => "Singular aggregation is equivalent to existing privilege."
  | .unregisteredAggregate name =>
    "Declared aggregate '" ++ name.inMessage ++ "' is not a registered privilege."
  | .circularAggregation member =>
    "Detected circular aggregation within custom privilege caused by " ++ member.inMessage
  | .duplicateAggregation name existing =>
    "Custom aggregate privilege '" ++ name ++ "' is already covered by '" ++ existing ++ "'"
  | .invalidAggregateBits => "Invalid privilege bits for aggregated privilege definition."

def code (b : Breach) : Nat := b.rule.code

def violation (b : Breach) : Violation where
  rule := b.rule
  message := b.message

end Breach

end PrivilegeStore
