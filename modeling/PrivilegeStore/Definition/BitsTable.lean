import PrivilegeStore.Definition.Registry

/-!
# Names and bits

The bits table of a store lists the stored bits of its definitions. An index answers questions
from it: the union of the bits of names, and the names that own some bits. Its first question
makes it read the table, and if a definition's bits cannot be read then that question
fails; every later question is answered from the definitions before that one.
-/
namespace PrivilegeStore

/-- The bits read in order, and the fault that ended the reading. -/
structure BitsTable where
  entries : Entries Bits
  fault : Option Fault
deriving Repr

namespace View

def bitsAmong (store : View) : List String → BitsTable
  | [] => ⟨[], none⟩
  | name :: rest =>
    if (store.child name).isDefinition then
      match (store.child name).bits with
      | .error fault => ⟨[], some fault⟩
      | .ok bits =>
        let others := bitsAmong store rest
        ⟨(name, bits) :: others.entries, others.fault⟩
    else bitsAmong store rest

def bitsTable (store : View) : BitsTable := store.bitsAmong store.childNames

end View

namespace BitsTable

def find? (entries : Entries Bits) : Scalar → Option Bits
  | .text name => Entries.find? name entries
  | _ => none

/-- The union of the bits of names; unknown names contribute nothing. -/
def unionOf (entries : Entries Bits) (names : NameSet) : Bits :=
  Bits.unionAll (names.filterMap (find? entries))

/-- The names whose bits are exactly these. -/
def ownersOf (entries : Entries Bits) (bits : Bits) : List String :=
  (entries.filter fun (_, stored) => stored == bits).map Prod.fst

end BitsTable

structure BitsIndex where
  store : View
  /-- Whether a question has been asked. -/
  consulted : Bool := false
deriving Repr

namespace BitsIndex

/-- The entries to answer a question from, and the index for the next question. -/
def consult (p : BitsIndex) : Except Fault (Entries Bits) × BitsIndex :=
  let table := p.store.bitsTable
  match p.consulted, table.fault with
  | false, some fault => (.error fault, { p with consulted := true })
  | _, _ => (.ok table.entries, { p with consulted := true })

def bitsOf (p : BitsIndex) (names : NameSet) : Except Fault Bits × BitsIndex :=
  let (entries, p) := p.consult
  (entries.map fun entries => BitsTable.unionOf entries names, p)

/-- The names that own some bits. Nobody owns empty bits, and asking for them reads no table. -/
def namesOf (p : BitsIndex) (bits : Bits) : Except Fault (List String) × BitsIndex :=
  if bits.isEmpty then (.ok [], p)
  else
    let (entries, p) := p.consult
    (entries.map fun entries => BitsTable.ownersOf entries bits, p)

end BitsIndex

end PrivilegeStore
