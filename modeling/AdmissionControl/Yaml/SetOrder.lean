import AdmissionControl.Value

/-!
# The order in which a set is written

A set keeps its members in the slots of a table, and it is written slot by slot.  A member is put
into the slot that its hash names; if that is taken, the next free one is looked for in windows
whose starts the rest of the hash spreads over the table.  Numbers alone have hashes that do not
differ from run to run, so a set with any other member has no order of its own and stays as it was
met.

* `Value.hash?` — the hash of a number.
* `freeSlot` — the slot that a member is put into.
* `inSetOrder`, `inSetOrder_perm` — the members slot by slot, each of them once.
-/

namespace AdmissionControl

namespace Value

/-- Hashes of numbers are remainders of this prime. -/
def hashModulus : Nat := Nat.pow 2 61 - 1

/-- A remainder with a sign as a number of 64 bits; minus one is no hash, and minus two stands for
it. -/
def signedHash (negative : Bool) (n : Nat) : Nat :=
  if negative && n != 0 then Nat.pow 2 64 - (if n = 1 then 2 else n) else n

/-- Two to the power of 61 leaves a remainder of one, so an exponent counts by what it leaves of 61.
What is not a number has no hash of its own. -/
def decimalHash? : Binary64 → Option Nat
  | .finite negative m e => some (signedHash negative (m * Nat.pow 2 (e % 61).toNat % hashModulus))
  | .infinite negative => some (signedHash negative 314159)
  | .nan => .none

def hash? : Value → Option Nat
  | bool b => some b.toNat
  | integer n => some (signedHash (n < 0) (n.natAbs % hashModulus))
  | decimal x => decimalHash? x
  | _ => .none

end Value

namespace Yaml

/-- The slots of a table for so many members: eight for at most four of them, else the least power
of two that is more than twice the number. -/
def tableSize (count : Nat) : Nat := if count ≤ 4 then 8 else Nat.pow 2 ((2 * count).log2 + 1)

/-- The slots that are looked at from one on: ten in a row if there are so many, else the one. -/
def window (size slot : Nat) : List Nat :=
  if slot + 9 < size then List.range' slot 10 else [slot]

/-- The first free slot of the windows from one on.  The hash is shifted by five bits from window to
window.  When nothing is left of it, the starts run through all slots, so the rounds suffice that
`place` allows. -/
def freeSlot (size : Nat) (taken : List Nat) : (rounds slot hash : Nat) → Nat
  | 0, slot, _ => slot
  | rounds + 1, slot, hash =>
    match (window size slot).find? fun s => !taken.contains s with
    | some free => free
    | none => freeSlot size taken rounds ((slot * 5 + 1 + hash / 32) % size) (hash / 32)

/-- A table: the slots that are taken, in their order, with what they hold. -/
abbrev Table := List (Nat × Value)

def fillSlot (slot : Nat) (v : Value) : Table → Table
  | [] => [(slot, v)]
  | (s, w) :: rest =>
    if slot < s then (slot, v) :: (s, w) :: rest else (s, w) :: fillSlot slot v rest

/-- Puts a member with a hash into a table of so many slots. -/
def place (size : Nat) (table : Table) (member : Nat × Value) : Table :=
  fillSlot (freeSlot size (table.map (·.1)) (13 + size) (member.1 % size) member.1) member.2 table

/-- The members of a set in the order in which they are written. -/
def inSetOrder (members : List Value) : List Value :=
  match members.mapM fun v => v.hash?.map (·, v) with
  | none => members
  | some hashed => (hashed.foldl (place (tableSize members.length)) []).map (·.2)

/-! ### No member is lost -/

theorem fillSlot_perm (slot : Nat) (v : Value) (table : Table) :
    (fillSlot slot v table).Perm ((slot, v) :: table) := by
  induction table with
  | nil => exact .refl _
  | cons taken rest ih =>
    rw [fillSlot]
    split
    · exact .refl _
    · exact (ih.cons taken).trans (.swap ..)

theorem foldl_place_perm (size : Nat) (table : Table) (hashed : List (Nat × Value)) :
    ((hashed.foldl (place size) table).map (·.2)).Perm ((hashed ++ table).map (·.2)) := by
  induction hashed generalizing table with
  | nil => exact .refl _
  | cons member rest ih =>
    refine (ih (place size table member)).trans ?_
    have hfill := (fillSlot_perm (freeSlot size (table.map (·.1)) (13 + size) (member.1 % size)
      member.1) member.2 table).map (·.2)
    rw [List.map_append, List.cons_append, List.map_cons, List.map_append]
    exact (hfill.append_left _).trans List.perm_middle

theorem map_snd_of_hashed {members : List Value} {hashed : List (Nat × Value)}
    (h : (members.mapM fun v => v.hash?.map (·, v)) = some hashed) :
    hashed.map (·.2) = members := by
  induction members generalizing hashed with
  | nil =>
    obtain rfl := Option.some.inj h
    rfl
  | cons v rest ih =>
    rw [List.mapM_cons, Option.bind_eq_bind, Option.bind_eq_some_iff] at h
    obtain ⟨member, hmember, h⟩ := h
    obtain ⟨hash, _, rfl⟩ := Option.map_eq_some_iff.mp hmember
    obtain ⟨later, hlater, h⟩ := Option.bind_eq_some_iff.mp h
    rw [← Option.some.inj h, List.map_cons, ih hlater]

/-- **A set is written with all of its members**, each of them once. -/
theorem inSetOrder_perm (members : List Value) : (inSetOrder members).Perm members := by
  rw [inSetOrder]
  split
  · exact .refl _
  · next hashed hhashed =>
    have hperm := foldl_place_perm (tableSize members.length) [] hashed
    rwa [List.append_nil, map_snd_of_hashed hhashed] at hperm

example : (inSetOrder [.integer (-3), .integer 10, .integer 3]).map Value.asInteger? =
    [some 10, some 3, some (-3)] := by
  decide +kernel

end Yaml

end AdmissionControl
