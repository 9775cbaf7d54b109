import PrivilegeStore.Value
import PrivilegeStore.Entries

/-!
# Equality of values

Two values are the same when they have the same form. The form of a number, be it a truth value, an
integer or a float, is its exact value, so the numbers one, `1.0` and true are the same and no text
equals a number. The form of an object lists its entries by name, so their order does not count.
Being equality of forms, sameness is an equivalence.

A float that is no number is the same as itself inside a list, an object or a set. As the whole
value of a property it differs from everything, itself included: see `Value.differs`.
-/
namespace PrivilegeStore

/-- What tells scalars apart. A finite number is its integer part, rounded down, and what is left of
it in units of the smallest positive float. -/
inductive Key where
  | null
  | nan
  | infinity (negative : Bool)
  | number (whole : Int) (fraction : Nat)
  | text (s : String)
deriving DecidableEq, Repr

inductive Form where
  | scalar (key : Key)
  | list (items : List Form)
  | object (entries : List (String × Form))

def Binary64.key : Binary64 → Key
  | .nan => .nan
  | .infinity negative => .infinity negative
  | .finite negative mantissa exponent =>
    let units := signed negative (mantissa <<< exponent)
    .number (units / unitsPerOne) (units % unitsPerOne).toNat

def Scalar.key : Scalar → Key
  | .null => .null
  | .bool b => .number (if b then 1 else 0) 0
  | .int n => .number n 0
  | .float x => x.key
  | .text s => .text s

/-- Sameness of scalars, by which members of a set are told apart. -/
def Scalar.same (a b : Scalar) : Bool := a.key == b.key

namespace Form

mutual

def decideEq : (a b : Form) → Decidable (a = b)
  | .scalar j, .scalar k => if h : j = k then isTrue (by rw [h]) else isFalse (by simp [h])
  | .list a, .list b =>
    match decideItems a b with
    | isTrue h => isTrue (by rw [h])
    | isFalse h => isFalse (by simp [h])
  | .object a, .object b =>
    match decideEntries a b with
    | isTrue h => isTrue (by rw [h])
    | isFalse h => isFalse (by simp [h])
  | .scalar _, .list _ => isFalse (by simp)
  | .scalar _, .object _ => isFalse (by simp)
  | .list _, .scalar _ => isFalse (by simp)
  | .list _, .object _ => isFalse (by simp)
  | .object _, .scalar _ => isFalse (by simp)
  | .object _, .list _ => isFalse (by simp)

def decideItems : (a b : List Form) → Decidable (a = b)
  | [], [] => isTrue rfl
  | [], _ :: _ => isFalse (by simp)
  | _ :: _, [] => isFalse (by simp)
  | a :: as, b :: bs =>
    match decideEq a b, decideItems as bs with
    | isTrue h, isTrue k => isTrue (by rw [h, k])
    | isFalse h, _ => isFalse (by simp [h])
    | _, isFalse k => isFalse (by simp [k])

def decideEntries : (a b : List (String × Form)) → Decidable (a = b)
  | [], [] => isTrue rfl
  | [], _ :: _ => isFalse (by simp)
  | _ :: _, [] => isFalse (by simp)
  | (m, a) :: as, (n, b) :: bs =>
    if e : m = n then
      match decideEq a b, decideEntries as bs with
      | isTrue h, isTrue k => isTrue (by rw [e, h, k])
      | isFalse h, _ => isFalse (by simp [h])
      | _, isFalse k => isFalse (by simp [k])
    else isFalse (by simp [e])

end

instance : DecidableEq Form := decideEq

/-- Adds an entry to entries in increasing order of their names, in place of one of its name. -/
def insertEntry (name : String) (form : Form) : List (String × Form) → List (String × Form)
  | [] => [(name, form)]
  | (n, f) :: rest =>
    if name < n then (name, form) :: (n, f) :: rest
    else if name = n then (name, form) :: rest
    else (n, f) :: insertEntry name form rest

end Form

namespace Value

mutual

def form : Value → Form
  | .scalar s => .scalar s.key
  | .list items => .list (formItems items)
  | .object entries => .object (formEntries entries)

def formItems : List Value → List Form
  | [] => []
  | v :: rest => form v :: formItems rest

/-- Entries by increasing name; of equal names the first counts. -/
def formEntries : List (String × Value) → List (String × Form)
  | [] => []
  | (name, v) :: rest => Form.insertEntry name (form v) (formEntries rest)

end

/-- Sameness of values that stand inside another one. -/
def same (a b : Value) : Bool := a.form == b.form

def isNan : Value → Bool
  | .scalar (.float x) => x.isNan
  | _ => false

/-- Whether two values of one property count as a change. -/
def differs (a b : Value) : Bool := a.isNan || b.isNan || a.form != b.form

end Value

end PrivilegeStore
