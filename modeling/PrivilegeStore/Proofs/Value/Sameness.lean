import PrivilegeStore.Definition

/-!
# What the same values and nodes have in common

Sameness is equality of forms, which forgets the order of entries and how a number is written. Here
the forms are looked into: the same nodes have the same children and properties under every name,
and the readings that a store is judged by do not tell same values apart.
-/
namespace PrivilegeStore

/-- Two optional things with the same image are both missing or both there. -/
theorem cases_of_map_eq {α β γ : Type} {f : α → γ} {g : β → γ} {x : Option α} {y : Option β}
    (same : x.map f = y.map g) :
    (x = none ∧ y = none) ∨ ∃ a b, x = some a ∧ y = some b ∧ f a = g b := by
  cases x with
  | none =>
    cases y with
    | none => exact .inl ⟨rfl, rfl⟩
    | some b => cases same
  | some a =>
    cases y with
    | none => cases same
    | some b => exact .inr ⟨a, b, rfl, rfl, Option.some.inj same⟩

theorem isSome_eq_of_map_eq {α β γ : Type} {f : α → γ} {g : β → γ} {x : Option α} {y : Option β}
    (same : x.map f = y.map g) : x.isSome = y.isSome := by
  rcases cases_of_map_eq same with ⟨rfl, rfl⟩ | ⟨a, b, rfl, rfl, -⟩ <;> rfl

namespace Entries

variable {α : Type}

theorem isSome_find? {name : String} {entries : Entries α} :
    (find? name entries).isSome = true ↔ name ∈ entries.map Prod.fst := by
  induction entries with
  | nil => simp
  | cons entry rest ih =>
    rw [find?, List.map_cons, List.mem_cons, ← ih]
    split
    next here => simp [here]
    next other => simp [Ne.symm other]

theorem mem_of_find? {name : String} {value : α} {entries : Entries α}
    (h : find? name entries = some value) : (name, value) ∈ entries := by
  induction entries with
  | nil => simp [find?] at h
  | cons entry rest ih =>
    obtain ⟨n, v⟩ := entry
    simp only [find?] at h
    split at h
    next same =>
      subst same
      cases h
      exact List.mem_cons_self
    next => exact List.mem_cons_of_mem _ (ih h)

end Entries

namespace Scalar

theorem same_iff {a b : Scalar} : a.same b = true ↔ a.key = b.key := by
  simp [same]

theorem same_refl (a : Scalar) : a.same a = true := same_iff.2 rfl

theorem same_symm {a b : Scalar} (h : a.same b = true) : b.same a = true :=
  same_iff.2 (same_iff.1 h).symm

theorem same_trans {a b c : Scalar} (ab : a.same b = true) (bc : b.same c = true) :
    a.same c = true :=
  same_iff.2 ((same_iff.1 ab).trans (same_iff.1 bc))

theorem key_float_ne_text (x : Binary64) (s : String) : x.key ≠ .text s := by
  intro same
  cases x <;> cases same

theorem key_eq_text {a : Scalar} {s : String} : a.key = .text s ↔ a = .text s := by
  cases a with
  | float x => simp [key, key_float_ne_text]
  | _ => simp [key]

theorem same_text {a : Scalar} {s : String} : a.same (.text s) = true ↔ a = .text s := by
  rw [same_iff]
  exact key_eq_text

theorem text?_eq_some {a : Scalar} {s : String} : a.text? = some s ↔ a = .text s := by
  cases a <;> simp [text?]

/-- No text is the same as anything but itself. -/
theorem text?_congr {a b : Scalar} (h : a.key = b.key) : a.text? = b.text? := by
  apply Option.ext
  intro s
  rw [text?_eq_some, text?_eq_some, ← key_eq_text, ← key_eq_text, h]

end Scalar

namespace Binary64

theorem unitsPerOne_pos : 0 < unitsPerOne := by
  rw [unitsPerOne, Nat.one_shiftLeft]
  exact Nat.two_pow_pos 1074

/-- The exact value of a finite number decides its form. -/
theorem key_finite_eq_iff {s t : Bool} {m n e f : Nat} :
    key (.finite s m e) = key (.finite t n f) ↔
      signed s (m <<< e) = signed t (n <<< f) := by
  constructor
  · intro h
    simp only [key, Key.number.injEq] at h
    obtain ⟨whole, fraction⟩ := h
    have positive : (unitsPerOne : Int) ≠ 0 := by
      have := unitsPerOne_pos
      omega
    have left := Int.emod_nonneg (signed s (m <<< e)) positive
    have right := Int.emod_nonneg (signed t (n <<< f)) positive
    have rest : signed s (m <<< e) % (unitsPerOne : Int) =
        signed t (n <<< f) % (unitsPerOne : Int) := by omega
    rw [← Int.mul_ediv_add_emod (signed s (m <<< e)) unitsPerOne, whole, rest,
      Int.mul_ediv_add_emod]
  · intro h
    simp only [key, h]

theorem key_zero : key (.finite false 0 0) = .number 0 0 := by
  have zero : signed false (0 <<< 0) = 0 := by decide
  simp only [key, zero, Int.zero_ediv, Int.zero_emod, Int.toNat_zero]

theorem key_finite_eq_zero {s : Bool} {m e : Nat} : key (.finite s m e) = .number 0 0 ↔ m = 0 := by
  rw [← key_zero, key_finite_eq_iff]
  have positive := Nat.two_pow_pos e
  have shifted : m <<< e = 0 ↔ m = 0 := by
    rw [Nat.shiftLeft_eq, Nat.mul_eq_zero]
    omega
  cases s <;> simp only [signed, Bool.false_eq_true, ↓reduceIte] <;> omega

end Binary64

namespace Scalar

/-- Which scalars are void can be told from their forms. -/
theorem isVoid_iff {a : Scalar} :
    a.isVoid = true ↔ a.key = .null ∨ a.key = .number 0 0 ∨ a.key = .text "" := by
  cases a with
  | null => simp [isVoid, key]
  | bool b => cases b <;> simp [isVoid, key]
  | int n => simp [isVoid, key]
  | text s => simp [isVoid, key]
  | float x =>
    have notText := key_float_ne_text x ""
    cases x with
    | nan => simp [isVoid, Binary64.isZero, key, Binary64.key]
    | infinity s => simp [isVoid, Binary64.isZero, key, Binary64.key]
    | finite s m e =>
      have notNull : Binary64.key (.finite s m e) ≠ .null := by
        intro same
        cases same
      simp [isVoid, Binary64.isZero, key, notNull, notText, Binary64.key_finite_eq_zero]

theorem isVoid_congr {a b : Scalar} (h : a.key = b.key) : a.isVoid = b.isVoid := by
  apply Bool.eq_iff_iff.2
  rw [isVoid_iff, isVoid_iff, h]

end Scalar

namespace Form

theorem find?_insertEntry (name other : String) (form : Form) (entries : List (String × Form)) :
    Entries.find? other (insertEntry name form entries) =
      if name = other then some form else Entries.find? other entries := by
  induction entries with
  | nil => simp [insertEntry, Entries.find?]
  | cons entry rest ih =>
    obtain ⟨n, f⟩ := entry
    simp only [insertEntry]
    split
    · simp only [Entries.find?]
    · split
      next _ same =>
        subst same
        simp only [Entries.find?]
        split <;> rfl
      next _ different =>
        simp only [Entries.find?, ih]
        by_cases here : n = other
        · have : name ≠ other := fun eq => different (eq.trans here.symm)
          simp [here, this]
        · simp [here]

end Form

namespace Value

theorem find?_formEntries (name : String) (entries : List (String × Value)) :
    Entries.find? name (formEntries entries) = (Entries.find? name entries).map form := by
  induction entries with
  | nil => simp [formEntries]
  | cons entry rest ih =>
    obtain ⟨n, v⟩ := entry
    simp only [formEntries, Form.find?_insertEntry, Entries.find?, ih]
    split <;> rfl

/-- Same objects have entries of the same names. -/
theorem mem_fst_congr {entries others : Entries Value}
    (same : formEntries entries = formEntries others) {name : String} :
    name ∈ entries.map Prod.fst ↔ name ∈ others.map Prod.fst := by
  rw [← Entries.isSome_find?, ← Entries.isSome_find?, ← Option.isSome_map (f := form),
    ← Option.isSome_map (f := form), ← find?_formEntries, ← find?_formEntries, same]

theorem same_iff {v w : Value} : v.same w = true ↔ v.form = w.form := by
  simp [same]

theorem same_trans {u v w : Value} (uv : u.same v = true) (vw : v.same w = true) :
    u.same w = true :=
  same_iff.2 ((same_iff.1 uv).trans (same_iff.1 vw))

theorem text?_congr {v w : Value} (h : v.form = w.form) : v.text? = w.text? := by
  cases v <;> cases w <;> simp only [form, Form.scalar.injEq, reduceCtorEq] at h
  · exact Scalar.text?_congr h
  all_goals rfl

theorem formItems_isEmpty (items : List Value) : (formItems items).isEmpty = items.isEmpty := by
  cases items <;> simp [formItems]

theorem formEntries_isEmpty (entries : List (String × Value)) :
    (formEntries entries).isEmpty = entries.isEmpty := by
  cases entries with
  | nil => rfl
  | cons entry rest =>
    obtain ⟨n, v⟩ := entry
    have some : Entries.find? n (formEntries ((n, v) :: rest)) = some v.form := by
      simp [find?_formEntries, Entries.find?]
    cases h : formEntries ((n, v) :: rest) with
    | nil => simp [h] at some
    | cons _ _ => rfl

theorem isVoid_congr {v w : Value} (h : v.form = w.form) : v.isVoid = w.isVoid := by
  cases v <;> cases w <;>
    simp only [form, Form.scalar.injEq, Form.list.injEq, Form.object.injEq, reduceCtorEq] at h
  · exact Scalar.isVoid_congr h
  · rw [isVoid, isVoid, ← formItems_isEmpty, h, formItems_isEmpty]
  · rw [isVoid, isVoid, ← formEntries_isEmpty, h, formEntries_isEmpty]

theorem any_not_isVoid_congr {x y : Option Value} (same : x.map form = y.map form) :
    (x.any fun stored => !stored.isVoid) = y.any fun stored => !stored.isVoid := by
  rcases cases_of_map_eq same with ⟨rfl, rfl⟩ | ⟨v, w, rfl, rfl, equal⟩
  · rfl
  · rw [Option.any_some, Option.any_some, isVoid_congr equal]

theorem isNan_iff {v : Value} : v.isNan = true ↔ v.form = .scalar .nan := by
  cases v with
  | scalar s =>
    cases s with
    | float x => cases x <;> simp [isNan, Binary64.isNan, form, Scalar.key, Binary64.key]
    | _ => simp [isNan, form, Scalar.key]
  | _ => simp [isNan, form]

/-- A number, or anything else that is not a float without a value, does not differ from what is the
same. -/
theorem differs_of_same {v w : Value} (number : v.isNan = false) (h : v.form = w.form) :
    v.differs w = false := by
  have other : w.isNan = false := by
    rw [← Bool.not_eq_true, isNan_iff, ← h, ← isNan_iff, number]
    decide
  simp [differs, number, other, h]

theorem isNan_congr {v w : Value} (h : v.form = w.form) : v.isNan = w.isNan := by
  rw [Bool.eq_iff_iff, isNan_iff, isNan_iff, h]

theorem differs_congr {v w v' w' : Value} (left : v.form = v'.form) (right : w.form = w'.form) :
    v.differs w = v'.differs w' := by
  rw [differs, differs, isNan_congr left, isNan_congr right, left, right]

/-- Lists of integers are the same only if they are equal. -/
theorem formItems_ints_injective {xs ys : List Nat}
    (h : formItems (xs.map fun (x : Nat) => .int x) = formItems (ys.map fun (y : Nat) => .int y)) :
    xs = ys := by
  induction xs generalizing ys with
  | nil => cases ys <;> simp_all [formItems]
  | cons x xs ih =>
    cases ys with
    | nil => simp [formItems] at h
    | cons y ys =>
      simp only [List.map_cons, formItems, List.cons.injEq] at h
      obtain ⟨first, rest⟩ := h
      have eq : x = y := Int.ofNat_inj.1 (by simpa [int, form, Scalar.key] using first)
      rw [eq, ih rest]

/-- Lists of texts are the same only if they are equal. -/
theorem formItems_texts_injective {xs ys : List String}
    (h : formItems (xs.map text) = formItems (ys.map text)) : xs = ys := by
  induction xs generalizing ys with
  | nil => cases ys <;> simp_all [formItems]
  | cons x xs ih =>
    cases ys with
    | nil => simp [formItems] at h
    | cons y ys =>
      simp only [List.map_cons, formItems, List.cons.injEq] at h
      obtain ⟨first, rest⟩ := h
      have eq : x = y := by simpa [text, form, Scalar.key] using first
      rw [eq, ih rest]

end Value

namespace Node

theorem same_iff {a b : Node} : a.same b = true ↔ a.form = b.form := by
  simp [same]

theorem find?_formChildren (name : String) (children : List (String × Node)) :
    Entries.find? name (formChildren children) = (Entries.find? name children).map form := by
  induction children with
  | nil => simp [formChildren]
  | cons entry rest ih =>
    obtain ⟨n, child⟩ := entry
    simp only [formChildren, Form.find?_insertEntry, Entries.find?, ih]
    split <;> rfl

variable {a b : Node}

theorem property?_form_congr (h : a.form = b.form) (name : String) :
    (a.property? name).map Value.form = (b.property? name).map Value.form := by
  obtain ⟨ps, cs⟩ := a
  obtain ⟨qs, ds⟩ := b
  simp only [form, Form.list.injEq, List.cons.injEq, Form.object.injEq, and_true] at h
  rw [property?, property?, ← Value.find?_formEntries, ← Value.find?_formEntries, h.1]

theorem child?_form_congr (h : a.form = b.form) (name : String) :
    (a.child? name).map form = (b.child? name).map form := by
  obtain ⟨ps, cs⟩ := a
  obtain ⟨qs, ds⟩ := b
  simp only [form, Form.list.injEq, List.cons.injEq, Form.object.injEq, and_true] at h
  rw [child?, child?, ← find?_formChildren, ← find?_formChildren, h.2]

/-- Two same nodes have a property of a name with the same value, or both have none. -/
theorem property?_cases (h : a.same b = true) (name : String) :
    (a.property? name = none ∧ b.property? name = none) ∨
      ∃ v w, a.property? name = some v ∧ b.property? name = some w ∧ v.form = w.form :=
  cases_of_map_eq (property?_form_congr (same_iff.1 h) name)

/-- A property of one of two same nodes is a property of the other one, with the same value. -/
theorem property?_of_same (h : a.same b = true) {name : String} {v : Value}
    (found : a.property? name = some v) : ∃ w, b.property? name = some w ∧ v.form = w.form := by
  rcases property?_cases h name with ⟨left, -⟩ | ⟨x, w, left, right, same⟩
  · rw [left] at found
    contradiction
  · rw [left] at found
    cases found
    exact ⟨w, right, same⟩

/-- A child of one of two same nodes is a child of the other one, and the same there. -/
theorem child?_of_same (h : a.same b = true) {name : String} {child : Node}
    (found : a.child? name = some child) :
    ∃ other, b.child? name = some other ∧ child.same other = true := by
  have congr := child?_form_congr (same_iff.1 h) name
  rw [found] at congr
  cases there : b.child? name with
  | none => simp [there] at congr
  | some other => exact ⟨other, rfl, same_iff.2 (by simpa [there] using congr)⟩

theorem same_refl (a : Node) : a.same a = true := same_iff.2 rfl

theorem same_symm (h : a.same b = true) : b.same a = true := same_iff.2 (same_iff.1 h).symm

theorem same_trans {c : Node} (ab : a.same b = true) (bc : b.same c = true) : a.same c = true :=
  same_iff.2 ((same_iff.1 ab).trans (same_iff.1 bc))

/-- Whether a node is a definition is told from its primary type. -/
theorem isDefinition_congr (same : (a.property? Schema.primaryType).map Value.form =
    (b.property? Schema.primaryType).map Value.form) : a.isDefinition = b.isDefinition := by
  rw [isDefinition, isDefinition]
  rcases cases_of_map_eq same with ⟨left, right⟩ | ⟨v, w, left, right, equal⟩
  · rw [left, right]
  · rw [left, right, Option.bind_some, Option.bind_some, Value.text?_congr equal]

theorem isDefinition_of_same (h : a.same b = true) : a.isDefinition = b.isDefinition :=
  isDefinition_congr (property?_form_congr (same_iff.1 h) Schema.primaryType)

end Node

end PrivilegeStore
