import PrivilegeStore.Definition
import PrivilegeStore.Ruling

/-!
# The allocation counter

Registering an atomic privilege must leave the counter at the bit above the new bits.
-/
namespace PrivilegeStore.Counter

/-- Rules on the counter of a store in which `bits` were allocated last. -/
def check (bits : Bits) (store : View) : Ruling :=
  match store.nextBits with
  | .error fault => .fail fault
  | .ok found =>
    if found = bits.next then .accept
    else (Ruling.refuse .nextBitsNotUpdated).after [.nextBitsNotUpdated bits.next found]

theorem check_accepts_iff {bits : Bits} {store : View} :
    (check bits store).outcome = .ok () ↔ store.nextBits = .ok bits.next := by
  simp only [check]
  cases store.nextBits with
  | error fault => simp [Ruling.fail]
  | ok found => by_cases h : found = bits.next <;> simp [h, Ruling.accept, Ruling.refuse]

end PrivilegeStore.Counter
