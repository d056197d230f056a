import Mathlib.Algebra.BigOperators.Group.List.Basic
import Mathlib.Algebra.Ring.Nat
import Mathlib.Data.Nat.Bits

/-!
# HID report maps

The part of the HID class's report descriptors that says where the inputs of a report
are. A descriptor is a string of short items: a prefix byte, whose low two bits give the
size of the value that follows (`3` stands for four bytes), and the value, little-endian.
Global items set the state the main items read; local items hold until the next main
item; an `Input` main item lays out `count` fields of `size` bits after those already
laid out in the report of the current id. `inputs` reads a descriptor to that layout and
`pressed` reads a button from a report's bytes by it.
-/

namespace ReportMap

/-- A short item: its tag (the prefix without the size bits) and its value. -/
structure Item where
  tag : ℕ
  value : ℕ
  deriving DecidableEq, Repr

/-- The number whose little-endian bytes are `bs`. -/
def leNat : List UInt8 → ℕ
  | [] => 0
  | b :: bs => b.toNat + 256 * leNat bs

/-- The value bytes that follow a prefix. -/
def valueSize (b : UInt8) : ℕ := if b.toNat % 4 = 3 then 4 else b.toNat % 4

/-- The items of a descriptor; `n` is at least the number of its bytes. -/
def items : ℕ → List UInt8 → List Item
  | n + 1, b :: bs =>
    ⟨b.toNat / 4 * 4, leNat (bs.take (valueSize b))⟩ :: items n (bs.drop (valueSize b))
  | _, _ => []

/-- Fields of a report: `count` fields of `size` bits from bit `offset`, for the usages
from `usageMin` to `usageMax` of a usage page. -/
structure Input where
  reportId : ℕ
  usagePage : ℕ
  usageMin : ℕ
  usageMax : ℕ
  offset : ℕ
  size : ℕ
  count : ℕ
  deriving DecidableEq, Repr

/-- The state of reading a descriptor: the globals, the locals, and the inputs so far. -/
structure Reader where
  usagePage : ℕ
  reportSize : ℕ
  reportId : ℕ
  reportCount : ℕ
  usageMin : ℕ
  usageMax : ℕ
  inputs : List Input
  deriving DecidableEq, Repr

/-- The state before the first item. -/
def Reader.start : Reader := ⟨0, 0, 0, 0, 0, 0, []⟩

/-- How many bits of report `id` are laid out. -/
def bits (id : ℕ) (is : List Input) : ℕ :=
  ((is.filter (·.reportId = id)).map fun i => i.size * i.count).sum

/-- Read one item. Items that do not bear on the layout of inputs are passed over; a main
item ends the locals. -/
def Reader.item (r : Reader) (it : Item) : Reader :=
  match it.tag with
  | 0x04 => { r with usagePage := it.value }
  | 0x74 => { r with reportSize := it.value }
  | 0x84 => { r with reportId := it.value }
  | 0x94 => { r with reportCount := it.value }
  | 0x18 => { r with usageMin := it.value }
  | 0x28 => { r with usageMax := it.value }
  | 0x80 =>
    { r with
      inputs := r.inputs ++ [⟨r.reportId, r.usagePage, r.usageMin, r.usageMax,
        bits r.reportId r.inputs, r.reportSize, r.reportCount⟩],
      usageMin := 0, usageMax := 0 }
  | 0x90 | 0xA0 | 0xB0 | 0xC0 => { r with usageMin := 0, usageMax := 0 }
  | _ => r

/-- The inputs a descriptor lays out. -/
def inputs (map : List UInt8) : List Input :=
  ((items map.length map).foldl Reader.item .start).inputs

/-- The value of usage `u` in the bytes of a report. -/
def Input.value (i : Input) (data : List UInt8) (u : ℕ) : ℕ :=
  leNat data / 2 ^ (i.offset + (u - i.usageMin) * i.size) % 2 ^ i.size

/-- Whether the layout has usage `u`. -/
def Input.has (i : Input) (u : ℕ) : Prop :=
  i.usageMin ≤ u ∧ u ≤ i.usageMax ∧ u - i.usageMin < i.count

instance (i : Input) (u : ℕ) : Decidable (i.has u) := inferInstanceAs (Decidable (_ ∧ _ ∧ _))

/-- The usage page of buttons. -/
def buttonPage : ℕ := 0x09

/-- Whether button `u` is pressed in a report of the given id; `none` when the map has no
such button. -/
def pressed (map : List UInt8) (id : ℕ) (data : List UInt8) (u : ℕ) : Option Bool :=
  ((inputs map).find? fun i => i.reportId = id ∧ i.usagePage = buttonPage ∧ i.has u).map
    fun i => i.value data u ≠ 0

/-- A field of one bit is a bit of the report's number. -/
theorem Input.value_one_bit {i : Input} (hi : i.size = 1) (data : List UInt8) (u : ℕ) :
    decide (i.value data u ≠ 0) = (leNat data).testBit (i.offset + (u - i.usageMin)) := by
  rw [Nat.testBit_eq_decide_div_mod_eq]
  unfold Input.value
  rw [hi, Nat.mul_one, Nat.pow_one]
  congr 1
  have := Nat.mod_lt (leNat data / 2 ^ (i.offset + (u - i.usageMin))) (by decide : 0 < 2)
  exact propext (by omega)

end ReportMap
