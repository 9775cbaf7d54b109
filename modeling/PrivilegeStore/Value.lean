import PrivilegeStore.Number.Shortest

/-!
# Property values

A property holds any tree of scalars, lists and objects. The declared members of a broken
definition can be scalars of any kind, so scalars are a type of their own.
-/
namespace PrivilegeStore

inductive Scalar where
  | null
  | bool (b : Bool)
  | int (n : Int)
  | float (x : Binary64)
  | text (s : String)
deriving DecidableEq, Repr

inductive Value where
  | scalar (s : Scalar)
  | list (items : List Value)
  | object (entries : List (String × Value))
deriving Repr

namespace Scalar

/-- Null, false, zero and the empty text are void. -/
def isVoid : Scalar → Bool
  | .null => true
  | .bool b => !b
  | .int n => n == 0
  | .float x => x.isZero
  | .text s => s.isEmpty

def text? : Scalar → Option String
  | .text s => some s
  | _ => none

/-- How a scalar stands in a message: a text as it is, the others by their literal. -/
def inMessage : Scalar → String
  | .null => "None"
  | .bool b => if b then "True" else "False"
  | .int n => toString n
  | .float x => x.render
  | .text s => s

def isFloat : Scalar → Bool
  | .float _ => true
  | _ => false

/-- The literal by which scalars of a kind are put in order. -/
def literal : Scalar → String
  | .null => "null"
  | .bool b => if b then "true" else "false"
  | .int n => toString n
  | .float x => x.render
  | .text s => s

end Scalar

namespace Value

def null : Value := .scalar .null
def bool (b : Bool) : Value := .scalar (.bool b)
def int (n : Int) : Value := .scalar (.int n)
def text (s : String) : Value := .scalar (.text s)
def texts (ss : List String) : Value := .list (ss.map text)

def text? : Value → Option String
  | .scalar s => s.text?
  | _ => none

/-- Void scalars, the empty list and the empty object are void. -/
def isVoid : Value → Bool
  | .scalar s => s.isVoid
  | .list items => items.isEmpty
  | .object entries => entries.isEmpty

end Value

end PrivilegeStore
