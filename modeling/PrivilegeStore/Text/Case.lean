/-!
# Lower case

Capital letters of ASCII and Latin-1 become small; every other character stays.
-/
namespace PrivilegeStore.Text

def lowerChar (c : Char) : Char :=
  if ('A' ≤ c ∧ c ≤ 'Z') ∨ ('À' ≤ c ∧ c ≤ 'Þ' ∧ c ≠ '×') then Char.ofNat (c.toNat + 32) else c

def lower (text : String) : String := String.ofList (text.toList.map lowerChar)

end PrivilegeStore.Text
