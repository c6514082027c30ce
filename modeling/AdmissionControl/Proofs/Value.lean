import AdmissionControl.Proofs.Allowlist
import Mathlib.Algebra.Group.Nat.Defs

/-!
# Which values can be written

The raw text of an identifier that is no text is its literal, and not every value has one: an
integer may have too many digits, and containers may nest too deep.

* `Value.height`, `Value.integers` — how deep the containers of a value nest, and the integers that
  stand in it.
* `Value.Writable` — the values within both limits.
* `Value.literal_eq_ok_iff` — exactly these values have a literal.
-/

namespace AdmissionControl

/-- A computation in two parts has a result if the first part has one and the second does so, where
that does not depend on the result of the first. -/
theorem exists_bind_eq_ok_iff {ε α β : Type} {x : Except ε α} {f : α → Except ε β} {P : Prop}
    (hf : ∀ a, (∃ b, f a = .ok b) ↔ P) : (∃ b, x >>= f = .ok b) ↔ (∃ a, x = .ok a) ∧ P := by
  simp only [bind_eq_ok_iff]
  constructor
  · rintro ⟨b, a, ha, hb⟩
    exact ⟨⟨a, ha⟩, (hf a).mp ⟨b, hb⟩⟩
  · rintro ⟨⟨a, ha⟩, hP⟩
    obtain ⟨b, hb⟩ := (hf a).mpr hP
    exact ⟨b, a, ha, hb⟩

theorem exists_map_eq_ok_iff {ε α β : Type} {x : Except ε α} {f : α → Except ε β}
    (hf : ∀ a, ∃ b, f a = .ok b) : (∃ b, x >>= f = .ok b) ↔ ∃ a, x = .ok a :=
  (exists_bind_eq_ok_iff fun a => iff_true_intro (hf a)).trans (and_iff_left trivial)

namespace Numeral

/-- A number is written exactly if it has at most `maxDigits` digits. -/
theorem writeInteger?_isSome_iff (n : Int) :
    (writeInteger? n).isSome ↔ n.natAbs < 10 ^ maxDigits := by
  have hlength : (Text.ofNat n.natAbs).length ≤ maxDigits ↔ n.natAbs < 10 ^ maxDigits := by
    rw [Text.ofNat, List.length_map]
    exact Nat.length_toDigits_le_iff (by decide) (by decide)
  rw [← hlength, writeInteger?]
  by_cases h : maxDigits < (Text.ofNat n.natAbs).length
  · simp [h]
  · simp [h, Nat.le_of_not_lt h]

end Numeral

namespace Value

/-! ### Depth and integers of a value -/

mutual

/-- How many containers stand around the innermost value, at most; an empty container counts as a
value without parts. -/
def height : Value → Nat
  | list items | tuple items | set items => heights items
  | dict members => memberHeights members
  | _ => 0

def heights : List Value → Nat
  | [] => 0
  | v :: rest => max (v.height + 1) (heights rest)

def memberHeights : List (Value × Value) → Nat
  | [] => 0
  | (k, v) :: rest => max (max (k.height + 1) (v.height + 1)) (memberHeights rest)

end

mutual

/-- The integers that stand in a value. -/
def integers : Value → List Int
  | integer n => [n]
  | list items | tuple items | set items => integersOf items
  | dict members => memberIntegers members
  | _ => []

def integersOf : List Value → List Int
  | [] => []
  | v :: rest => v.integers ++ integersOf rest

def memberIntegers : List (Value × Value) → List Int
  | [] => []
  | (k, v) :: rest => k.integers ++ v.integers ++ memberIntegers rest

end

/-- Every integer has at most `Numeral.maxDigits` digits. -/
def Short (integers : List Int) : Prop := ∀ n ∈ integers, n.natAbs < 10 ^ Numeral.maxDigits

/-- A value within the limits of writing. -/
def Writable [Limits] (v : Value) : Prop := v.height ≤ Limits.literal ∧ Short v.integers

@[simp] theorem short_nil : Short [] := fun _ h => absurd h List.not_mem_nil

theorem short_append {m n : List Int} : Short (m ++ n) ↔ Short m ∧ Short n := by
  simp only [Short, List.mem_append]
  exact ⟨fun h => ⟨fun x hx => h x (.inl hx), fun x hx => h x (.inr hx)⟩,
    fun h x hx => hx.elim (h.1 x) (h.2 x)⟩

theorem writable_integer_iff [Limits] (n : Int) :
    (integer n).Writable ↔ n.natAbs < 10 ^ Numeral.maxDigits := by
  rw [Writable, integers, Short, List.forall_mem_singleton]
  exact and_iff_right (Nat.zero_le _)

/-! ### Which values have a literal -/

theorem integerLiteral_eq_ok_iff (n : Int) : (∃ s, integerLiteral n = .ok s) ↔ Short [n] := by
  rw [Short, List.forall_mem_singleton, ← Numeral.writeInteger?_isSome_iff, integerLiteral]
  cases Numeral.writeInteger? n <;> simp

mutual

theorem literalWithin_eq_ok_iff (depth : Nat) : ∀ v : Value,
    (∃ s, literalWithin depth v = .ok s) ↔ v.height ≤ depth ∧ Short v.integers
  | integer n => by
    simp only [literalWithin, height, integers, Nat.zero_le, true_and]
    exact integerLiteral_eq_ok_iff n
  | list items => by
    refine (exists_map_eq_ok_iff ?_).trans (literalsWithin_eq_ok_iff depth items)
    exact fun _ => ⟨_, rfl⟩
  | tuple items => by
    refine (exists_map_eq_ok_iff ?_).trans (literalsWithin_eq_ok_iff depth items)
    intro parts
    split <;> exact ⟨_, rfl⟩
  | set items => by
    refine (exists_map_eq_ok_iff ?_).trans (literalsWithin_eq_ok_iff depth items)
    intro parts
    split <;> exact ⟨_, rfl⟩
  | dict members => by
    refine (exists_map_eq_ok_iff ?_).trans (memberLiteralsWithin_eq_ok_iff depth members)
    exact fun _ => ⟨_, rfl⟩
  | none | bool _ | decimal _ | text _ | bytes _ | date _ | dateTime _ | loop _ => by
    simp [literalWithin, height, integers]

theorem literalsWithin_eq_ok_iff (depth : Nat) : ∀ items : List Value,
    (∃ s, literalsWithin depth items = .ok s) ↔ heights items ≤ depth ∧ Short (integersOf items)
  | [] => by simp [literalsWithin, heights, integersOf]
  | v :: rest => by
    cases depth with
    | zero => simp [literalsWithin, heights]
    | succ depth =>
      have hv := literalWithin_eq_ok_iff depth v
      have hrest := literalsWithin_eq_ok_iff (depth + 1) rest
      rw [literalsWithin, exists_bind_eq_ok_iff fun _ => exists_map_eq_ok_iff fun _ => ⟨_, rfl⟩,
        hv, hrest, heights, integersOf, Nat.max_le, Nat.add_le_add_iff_right, short_append,
        and_and_and_comm]

theorem memberLiteralsWithin_eq_ok_iff (depth : Nat) : ∀ members : List (Value × Value),
    (∃ s, memberLiteralsWithin depth members = .ok s) ↔
      memberHeights members ≤ depth ∧ Short (memberIntegers members)
  | [] => by simp [memberLiteralsWithin, memberHeights, memberIntegers]
  | (k, v) :: rest => by
    cases depth with
    | zero => simp [memberLiteralsWithin, memberHeights]
    | succ depth =>
      have hk := literalWithin_eq_ok_iff depth k
      have hv := literalWithin_eq_ok_iff depth v
      have hrest := memberLiteralsWithin_eq_ok_iff (depth + 1) rest
      rw [memberLiteralsWithin,
        exists_bind_eq_ok_iff fun _ => exists_bind_eq_ok_iff fun _ =>
          exists_map_eq_ok_iff fun _ => ⟨_, rfl⟩,
        hk, hv, hrest, memberHeights, memberIntegers, Nat.max_le, Nat.max_le,
        Nat.add_le_add_iff_right, Nat.add_le_add_iff_right, short_append, short_append]
      constructor
      · rintro ⟨⟨hk, hks⟩, ⟨hv, hvs⟩, hr, hrs⟩
        exact ⟨⟨⟨hk, hv⟩, hr⟩, ⟨hks, hvs⟩, hrs⟩
      · rintro ⟨⟨⟨hk, hv⟩, hr⟩, ⟨hks, hvs⟩, hrs⟩
        exact ⟨⟨hk, hks⟩, ⟨hv, hvs⟩, hr, hrs⟩

end

/-- **A value has a literal exactly if it is within both limits.** -/
theorem literal_eq_ok_iff [Limits] (v : Value) : (∃ s, v.literal = .ok s) ↔ v.Writable :=
  literalWithin_eq_ok_iff Limits.literal v

end Value

end AdmissionControl
