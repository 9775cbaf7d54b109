import Mathlib.Control.Monad.Basic
import PrivilegeStore.Proofs.Definition.Readings

/-!
# An index that is asked again and again

The first question that needs the bits table makes an index read it. If the table can be read, each
answer is the one that a new index gives. If it cannot, that question fails, and later ones are
answered from the definitions in front of the broken one, so bits that a definition behind it owns
are said to be free. An index therefore answers like a new one exactly if all bits can be read, or
if no more than one of its questions needs the table.
-/
namespace PrivilegeStore

namespace BitsIndex

/-- An index that has answered has a table without a fault. -/
def Trusted (p : BitsIndex) : Prop := p.consulted = true → p.store.bitsTable.fault = none

variable {p : BitsIndex}

theorem consult_of_no_fault (clean : p.store.bitsTable.fault = none) :
    p.consult = (.ok p.store.bitsTable.entries, { p with consulted := true }) := by
  cases asked : p.consulted <;> simp only [consult, clean, asked]

theorem consult_of_fault (trusted : p.Trusted) {fault : Fault}
    (broken : p.store.bitsTable.fault = some fault) :
    p.consult = (.error fault, { p with consulted := true }) := by
  cases asked : p.consulted with
  | false => simp only [consult, asked, broken]
  | true =>
    rw [trusted asked] at broken
    contradiction

theorem namesOf_of_no_fault {bits : Bits} (some : bits.isEmpty = false)
    (clean : p.store.bitsTable.fault = none) :
    p.namesOf bits =
      (.ok (BitsTable.ownersOf p.store.bitsTable.entries bits), { p with consulted := true }) := by
  simp [namesOf, some, consult_of_no_fault clean, Except.map]

theorem namesOf_of_fault {bits : Bits} (some : bits.isEmpty = false) (trusted : p.Trusted)
    {fault : Fault} (broken : p.store.bitsTable.fault = .some fault) :
    p.namesOf bits = (.error fault, { p with consulted := true }) := by
  simp [namesOf, some, consult_of_fault trusted broken, Except.map]

theorem store_consult : (p.consult).2.store = p.store := by
  simp only [consult]
  split <;> rfl

theorem store_namesOf (bits : Bits) : (p.namesOf bits).2.store = p.store := by
  rw [namesOf]
  split
  · rfl
  · exact store_consult

theorem store_bitsOf (names : NameSet) : (p.bitsOf names).2.store = p.store := store_consult

theorem bitsOf_of_no_fault (names : NameSet) (clean : p.store.bitsTable.fault = none) :
    p.bitsOf names =
      (.ok (BitsTable.unionOf p.store.bitsTable.entries names), { p with consulted := true }) := by
  simp [bitsOf, consult_of_no_fault clean, Except.map]

theorem consult_of_consulted (asked : p.consulted = true) :
    p.consult = (.ok p.store.bitsTable.entries, p) := by
  obtain ⟨store, consulted⟩ := p
  cases asked
  cases store.bitsTable.fault <;> simp only [consult]

theorem consulted_consult : (p.consult).2.consulted = true := by
  simp only [consult]
  split <;> rfl

/-- What an index can be asked. -/
inductive Question where
  | bitsOf (names : NameSet)
  | namesOf (bits : Bits)
deriving DecidableEq, Repr

/-- What a question is answered with. -/
inductive Reply where
  | bits (bits : Bits)
  | names (names : List String)
deriving DecidableEq, Repr

namespace Question

/-- Who owns empty bits is known without a table. -/
def needsTable : Question → Bool
  | .bitsOf _ => true
  | .namesOf bits => !bits.isEmpty

/-- What the entries of a table have to say. -/
def reply (entries : Entries Bits) : Question → Reply
  | .bitsOf names => .bits (BitsTable.unionOf entries names)
  | .namesOf bits => .names (BitsTable.ownersOf entries bits)

end Question

def answer (p : BitsIndex) : Question → Except Fault Reply × BitsIndex
  | .bitsOf names =>
    let (found, p) := p.bitsOf names
    (found.map .bits, p)
  | .namesOf bits =>
    let (found, p) := p.namesOf bits
    (found.map .names, p)

/-- Answers questions one after another, and goes on after one that failed. -/
def answerAll (p : BitsIndex) : List Question → List (Except Fault Reply) × BitsIndex
  | [] => ([], p)
  | question :: rest =>
    let (answer, p) := p.answer question
    let (answers, p) := p.answerAll rest
    (answer :: answers, p)

/-- The answer of an index that has not been asked anything. -/
def freshAnswer (store : View) (question : Question) : Except Fault Reply :=
  ((BitsIndex.mk store false).answer question).1

variable {question : Question}

theorem answer_of_needsTable (needs : question.needsTable = true) :
    p.answer question = (p.consult.1.map question.reply, p.consult.2) := by
  cases question with
  | bitsOf names =>
    simp only [answer, bitsOf]
    cases p.consult.1 <;> rfl
  | namesOf bits =>
    have some : bits.isEmpty = false := by simpa [Question.needsTable] using needs
    simp only [answer, namesOf, some]
    cases p.consult.1 <;> rfl

theorem answer_of_not_needsTable (spares : question.needsTable = false) :
    p.answer question = (.ok (.names []), p) := by
  cases question with
  | bitsOf names => cases spares
  | namesOf bits =>
    have none : bits.isEmpty = true := by simpa [Question.needsTable] using spares
    simp only [answer, namesOf, none]
    rfl

/-- Once asked a question that needs the table, an index has been consulted for good. -/
theorem answer_later (question : Question) :
    (p.answer question).2 = ⟨p.store, p.consulted || question.needsTable⟩ := by
  cases needs : question.needsTable with
  | false => rw [answer_of_not_needsTable needs, Bool.or_false]
  | true =>
    rw [answer_of_needsTable needs, Bool.or_true]
    have store := store_consult (p := p)
    have asked := consulted_consult (p := p)
    generalize p.consult.2 = later at store asked
    obtain ⟨kept, consulted⟩ := later
    cases store
    cases asked
    rfl

/-- An index answers a question otherwise than a new one exactly if the question needs a table that
has been read up to a fault. -/
theorem answer_eq_fresh_iff (question : Question) :
    (p.answer question).1 = freshAnswer p.store question ↔
      p.store.bitsTable.fault = none ∨ (p.consulted && question.needsTable) = false := by
  cases needs : question.needsTable with
  | false => simp [freshAnswer, answer_of_not_needsTable needs]
  | true =>
    rw [freshAnswer, answer_of_needsTable needs, answer_of_needsTable needs, Bool.and_true]
    cases table : p.store.bitsTable.fault with
    | none =>
      have clean : (BitsIndex.mk p.store false).store.bitsTable.fault = none := table
      simp [consult_of_no_fault table, consult_of_no_fault clean]
    | some fault =>
      have broken : (BitsIndex.mk p.store false).store.bitsTable.fault = some fault := table
      have fails := consult_of_fault (by simp [Trusted]) broken
      cases asked : p.consulted with
      | false => simp [fails, consult_of_fault (p := p) (by simp [Trusted, asked]) table]
      | true => simp [fails, consult_of_consulted asked, Except.map]

/-- Answers of an index in use: the table can be read, or what it was asked before counts as one
question that needed it. -/
theorem answerAll_eq_fresh_iff (questions : List Question) :
    (p.answerAll questions).1 = questions.map (freshAnswer p.store) ↔
      p.store.bitsTable.fault = none ∨
        p.consulted.toNat + (questions.filter Question.needsTable).length ≤ 1 := by
  induction questions generalizing p with
  | nil => cases p.consulted <;> simp [answerAll]
  | cons question rest ih =>
    have later := ih (p := (p.answer question).2)
    rw [answer_later] at later
    have split : (p.answerAll (question :: rest)).1 =
        (p.answer question).1 :: ((p.answer question).2.answerAll rest).1 := rfl
    have count : ((question :: rest).filter Question.needsTable).length =
        question.needsTable.toNat + (rest.filter Question.needsTable).length := by
      rw [List.filter_cons]
      cases question.needsTable <;> simp [Nat.add_comm]
    rw [split, count, List.map_cons, List.cons.injEq, answer_eq_fresh_iff, answer_later, later]
    generalize (rest.filter Question.needsTable).length = others
    cases p.store.bitsTable.fault with
    | none => simp
    | some fault =>
      cases p.consulted <;> cases question.needsTable <;>
        simp only [reduceCtorEq, false_or, Bool.and_self, Bool.and_false, Bool.false_and,
          Bool.or_self, Bool.or_false, Bool.or_true, Bool.toNat_true, Bool.toNat_false,
          Nat.zero_add, true_and, false_and, false_iff]
      -- left is a second question that needs the table
      omega

/-- An index answers whatever it is asked like a new one exactly if the bits of all definitions can
be read or at most one of the questions needs them. -/
theorem answers_as_fresh_iff (store : View) (questions : List Question) :
    ((BitsIndex.mk store false).answerAll questions).1 = questions.map (freshAnswer store) ↔
      store.BitsReadable ∨ (questions.filter Question.needsTable).length ≤ 1 := by
  rw [answerAll_eq_fresh_iff, View.bitsReadable_iff, Bool.toNat_false, Nat.zero_add]

/-- Behind a definition whose bits cannot be read, bits in use are said to be free by an index that
is asked twice. -/
theorem owned_bits_said_free :
    ¬ ∀ (store : View) (questions : List Question),
      ((BitsIndex.mk store false).answerAll questions).1 = questions.map (freshAnswer store) := by
  intro claim
  let definition (bits : Value) : Node :=
    ⟨[(Schema.primaryType, .text Schema.privilegeType), (Schema.bits, bits)], []⟩
  let store : View := ⟨"/jcr:system/rep:privileges", some ⟨[], [
    ("read", definition (Bits.stored ⟨1⟩)), ("sync", definition (.bool true)),
    ("write", definition (Bits.stored ⟨2⟩))]⟩⟩
  have answers : ((BitsIndex.mk store false).answerAll [.namesOf ⟨2⟩, .namesOf ⟨2⟩]).1 =
      [.error (.truthValueAsBits true), .ok (.names [])] := by decide +kernel
  have fresh : freshAnswer store (.namesOf ⟨2⟩) = .error (.truthValueAsBits true) := by
    decide +kernel
  have same := claim store [.namesOf ⟨2⟩, .namesOf ⟨2⟩]
  rw [answers, List.map_cons, List.map_cons, List.map_nil, fresh] at same
  cases same

end BitsIndex

end PrivilegeStore
