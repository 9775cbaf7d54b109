/-!
# Privilege bits

Bits are a finite set of bit positions without a largest one, kept as the number with those bits. In
a tree they are stored as words of 64 bits, the least significant first. `Bits.next` is the
single bit above the highest one, and `1` for empty bits.

`weigh` gives the number that a list of words stands for by its positional weights, without
shifts or masks.
-/
namespace PrivilegeStore

structure Bits where
  value : Nat
deriving DecidableEq, Repr

def wordSize : Nat := 64

/-- Words are below this number. -/
def wordBound : Nat := 1 <<< wordSize

namespace Bits

def empty : Bits := ⟨0⟩

instance : Inhabited Bits := ⟨empty⟩

def isEmpty (b : Bits) : Bool := b.value == 0

/-- How many binary digits a number has. -/
def bitLength (n : Nat) : Nat := if n = 0 then 0 else n.log2 + 1

/-- The single bit above the highest one. -/
def next (b : Bits) : Bits := ⟨1 <<< bitLength b.value⟩

def union (a b : Bits) : Bits := ⟨a.value ||| b.value⟩

def unionAll (family : List Bits) : Bits := family.foldl union empty

/-- Words put side by side, the first in the lowest place. -/
def ofWords : List Nat → Bits
  | [] => empty
  | word :: rest => ⟨word ||| (ofWords rest).value <<< wordSize⟩

/-- Cuts a number into words until nothing is left of it. -/
def cut : Nat → Nat → List Nat
  | 0, _ => []
  | fuel + 1, n =>
    if n = 0 then [] else (n &&& (wordBound - 1)) :: cut fuel (n >>> wordSize)

/-- The words of bits, without zero words at the end; a single zero word for empty bits. -/
def toWords (b : Bits) : List Nat :=
  if b.value = 0 then [0] else cut (bitLength b.value) b.value

/-- The number that words stand for, by their weights. -/
def weigh : List Nat → Nat
  | [] => 0
  | word :: rest => word + wordBound * weigh rest

/-- Lower-case hexadecimal digits behind `0x`. -/
def hex (b : Bits) : String := "0x" ++ String.ofList (Nat.toDigits 16 b.value)

/-- How bits stand in a message. -/
def inMessage (b : Bits) : String := "PrivilegeBits(" ++ b.hex ++ ")"

end Bits

end PrivilegeStore
