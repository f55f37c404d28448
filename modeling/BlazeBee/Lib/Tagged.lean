import Mathlib.Tactic.Common

/-!
Binary formats in which the first byte of an item says what follows it.

A format is a map from first bytes. `Item format s rest`: an item stands at the beginning of
`s`, and `rest` behind it. MessagePack and CBOR are two such formats.

* `wellFormed_single`: an item whose first byte stands alone has no other byte.
* `not_wellFormed`: no item begins with a byte that has no shape.
-/

namespace BlazeBee.Lib.Tagged

/-- What follows a first byte. -/
inductive Shape where
  /-- So many bytes. -/
  | bytes (n : Nat)
  /-- A length of `width` bytes, and that many bytes with `extra` more. -/
  | counted (width extra : Nat)
  /-- So many bytes, and items. -/
  | items (skip n : Nat)
  /-- A number of `width` bytes, and `per` items for each. -/
  | countedItems (width per : Nat)
  /-- Items in groups of `per`, up to a break. -/
  | untilBreak (per : Nat)
  /-- Items with a first byte in this range, up to a break. -/
  | chunks (low high : UInt8)
  /-- A byte that is 32 or more. -/
  | simple
deriving DecidableEq, Repr

/-- The number that the bytes are for, the most significant one first. -/
def bigEndian (bytes : List UInt8) : Nat := bytes.foldl (fun n b => 256 * n + b.toNat) 0

/-- The byte that ends what has no length. -/
def stop : UInt8 := 0xFF

section

variable (format : UInt8 → Option Shape)

mutual

/-- A first byte, and what it says that follows. -/
inductive Item : List UInt8 → List UInt8 → Prop where
  | intro {b : UInt8} {kind : Shape} {s rest : List UInt8} :
      format b = some kind → Body kind s rest → Item (b :: s) rest

/-- So many items. -/
inductive Items : Nat → List UInt8 → List UInt8 → Prop where
  | nil {s : List UInt8} : Items 0 s s
  | cons {n : Nat} {s t rest : List UInt8} : Item s t → Items n t rest → Items (n + 1) s rest

/-- What follows the first byte, by its shape. -/
inductive Body : Shape → List UInt8 → List UInt8 → Prop where
  | bytes {n : Nat} {payload rest : List UInt8} :
      payload.length = n → Body (.bytes n) (payload ++ rest) rest
  | counted {width extra : Nat} {length payload rest : List UInt8} :
      length.length = width → payload.length = bigEndian length + extra →
      Body (.counted width extra) (length ++ payload ++ rest) rest
  | items {skip n : Nat} {skipped s rest : List UInt8} :
      skipped.length = skip → Items n s rest → Body (.items skip n) (skipped ++ s) rest
  | countedItems {width per : Nat} {number s rest : List UInt8} :
      number.length = width → Items (per * bigEndian number) s rest →
      Body (.countedItems width per) (number ++ s) rest
  | untilBreak {per n : Nat} {s rest : List UInt8} :
      Items (per * n) s (stop :: rest) → Body (.untilBreak per) s rest
  | chunks {low high : UInt8} {s rest : List UInt8} :
      Chunks low high s rest → Body (.chunks low high) s rest
  | simple {b : UInt8} {rest : List UInt8} : 32 ≤ b → Body .simple (b :: rest) rest

/-- Items with a first byte in the range, up to the break. -/
inductive Chunks : UInt8 → UInt8 → List UInt8 → List UInt8 → Prop where
  | stop {low high : UInt8} {rest : List UInt8} : Chunks low high (stop :: rest) rest
  | cons {low high b : UInt8} {s t rest : List UInt8} :
      low ≤ b → b ≤ high → Item (b :: s) t → Chunks low high t rest →
      Chunks low high (b :: s) rest

end

/-- Exactly one item. -/
def WellFormed (s : List UInt8) : Prop := Item format s []

end

section First

variable {format : UInt8 → Option Shape} {b : UInt8} {s : List UInt8}

/-- An item whose first byte stands alone is that byte, and nothing may follow it. -/
theorem wellFormed_single (alone : format b = some (.bytes 0))
    (wellFormed : WellFormed format (b :: s)) : s = [] := by
  obtain ⟨found, body⟩ := wellFormed
  obtain rfl := Option.some.inj (alone.symm.trans found)
  cases body with
  | bytes length =>
      rw [List.append_nil]
      exact List.eq_nil_of_length_eq_zero length

/-- No item begins with a byte that the format reserves. -/
theorem not_wellFormed (unknown : format b = none) : ¬ WellFormed format (b :: s) := by
  rintro ⟨found, -⟩
  cases unknown.symm.trans found

end First

/-! ### MessagePack -/

namespace MessagePack

/-- The bytes from 0xC0 to 0xDF. -/
def other : Nat → Option Shape
  | 0xC0 => some (.bytes 0)
  | 0xC1 => none
  | 0xC2 => some (.bytes 0)
  | 0xC3 => some (.bytes 0)
  | 0xC4 => some (.counted 1 0)
  | 0xC5 => some (.counted 2 0)
  | 0xC6 => some (.counted 4 0)
  | 0xC7 => some (.counted 1 1)
  | 0xC8 => some (.counted 2 1)
  | 0xC9 => some (.counted 4 1)
  | 0xCA => some (.bytes 4)
  | 0xCB => some (.bytes 8)
  | 0xCC => some (.bytes 1)
  | 0xCD => some (.bytes 2)
  | 0xCE => some (.bytes 4)
  | 0xCF => some (.bytes 8)
  | 0xD0 => some (.bytes 1)
  | 0xD1 => some (.bytes 2)
  | 0xD2 => some (.bytes 4)
  | 0xD3 => some (.bytes 8)
  | 0xD4 => some (.bytes 2)
  | 0xD5 => some (.bytes 3)
  | 0xD6 => some (.bytes 5)
  | 0xD7 => some (.bytes 9)
  | 0xD8 => some (.bytes 17)
  | 0xD9 => some (.counted 1 0)
  | 0xDA => some (.counted 2 0)
  | 0xDB => some (.counted 4 0)
  | 0xDC => some (.countedItems 2 1)
  | 0xDD => some (.countedItems 4 1)
  | 0xDE => some (.countedItems 2 2)
  | 0xDF => some (.countedItems 4 2)
  | _ => none

/-- Small integers, maps, arrays and strings have their value or their length in the first
byte. -/
def shape (b : UInt8) : Option Shape :=
  let n := b.toNat
  if n < 0x80 then some (.bytes 0)
  else if n < 0x90 then some (.items 0 (2 * (n - 0x80)))
  else if n < 0xA0 then some (.items 0 (n - 0x90))
  else if n < 0xC0 then some (.bytes (n - 0xA0))
  else if n < 0xE0 then other n
  else some (.bytes 0)

end MessagePack

/-! ### CBOR -/

namespace Cbor

/-- By the width of the argument: none in 0 to 23, and then 1, 2, 4 or 8 bytes. -/
def byArgument (info : Nat) (inside : Nat → Shape) (behind : Nat → Shape)
    (indefinite : Option Shape) : Option Shape :=
  if info < 24 then some (inside info)
  else if info = 24 then some (behind 1)
  else if info = 25 then some (behind 2)
  else if info = 26 then some (behind 4)
  else if info = 27 then some (behind 8)
  else if info = 31 then indefinite
  else none

/-- Major type 7: simple values and floating-point numbers. -/
def simpleOrFloat (info : Nat) : Option Shape :=
  if info < 24 then some (.bytes 0)
  else if info = 24 then some .simple
  else if info = 25 then some (.bytes 2)
  else if info = 26 then some (.bytes 4)
  else if info = 27 then some (.bytes 8)
  else none

/-- The major type is in the upper three bits. -/
def shape (b : UInt8) : Option Shape :=
  let info := b.toNat % 32
  match b.toNat / 32 with
  | 0 => byArgument info (fun _ => .bytes 0) .bytes none
  | 1 => byArgument info (fun _ => .bytes 0) .bytes none
  | 2 => byArgument info .bytes (.counted · 0) (some (.chunks 0x40 0x5B))
  | 3 => byArgument info .bytes (.counted · 0) (some (.chunks 0x60 0x7B))
  | 4 => byArgument info (.items 0) (.countedItems · 1) (some (.untilBreak 1))
  | 5 => byArgument info (fun n => .items 0 (2 * n)) (.countedItems · 2) (some (.untilBreak 2))
  | 6 => byArgument info (fun _ => .items 0 1) (.items · 1) none
  | _ => simpleOrFloat info

end Cbor

end BlazeBee.Lib.Tagged
