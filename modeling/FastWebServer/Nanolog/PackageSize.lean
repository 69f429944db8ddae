import FastWebServer.Nanolog.Nibbler

/-!
# The size of a package

`pack`, `unpack` and `get_size_of_package` each have their own reading of a nibble. A floating point
value is packed to its full size, and that is its code. Four bits hold the code of a `long double`,
which is 16, as zero.

All three readings agree: each item has one `width`, by which `pack` advances (`packItems_eq`),
which `unpack` consumes whatever it reads (`unpackItems_width`), and which its nibble adds to the
size. So the size of a package is the number of bytes that were packed and that are unpacked
(`packageSize_accounts`).
-/

set_option autoImplicit false

namespace FastWebServer.Nanolog

open Bytes Cxx

/-! ## Floating point values -/

/-- The floating point types. -/
inductive FloatType where
  | float
  | double
  | longDouble
deriving Repr, DecidableEq

/-- `sizeof(T)`. -/
def FloatType.size : FloatType → ℕ
  | .float => 4
  | .double => 8
  | .longDouble => 16

/-- A value of a floating point type, as the number that its bytes spell. -/
structure FloatValue where
  type : FloatType
  image : ℕ
  short : image < 256 ^ type.size

/-- The value of a type that stands at an address. -/
def FloatValue.load (memory : Memory) (address : ℕ) (T : FloatType) : FloatValue :=
  ⟨T, Bytes.load memory address T.size, load_lt memory address T.size⟩

/-- `pack<T>` for a floating point type. -/
def packFloating (buffer : Cursor) (value : FloatValue) : ℕ × Cursor :=
  (value.type.size, ⟨store buffer.memory buffer.position value.type.size value.image,
    buffer.position + value.type.size⟩)

/-- `unpack<T>` for a floating point type: the package, before it is converted to `T`, and the
advanced `*data_array`. A copy of more or fewer bytes than the package has leaves no value. -/
def unpackFloating (T : FloatType) (memory : Memory) (dataArray packNibble : ℕ) :
    Except Crash (FloatValue × ℕ) :=
  if packNibble = FloatType.float.size then
    .ok (.load memory dataArray .float, dataArray + FloatType.float.size)
  else
    let numBytes := if packNibble = 0 then 16 else packNibble
    if numBytes = T.size then .ok (.load memory dataArray T, dataArray + numBytes)
    else .error .undefinedBehaviour

/-! ## Items -/

/-- What is packed. -/
inductive Item where
  | integer (value : Value)
  | floating (value : FloatValue)

/-- The type that `unpack` is called with. -/
inductive ItemType where
  | integer (T : IntType)
  | floating (T : FloatType)

/-- What `unpack` returns. -/
inductive Unpacked where
  | integer (value : ℤ)
  | floating (value : FloatValue)

def Item.type : Item → ItemType
  | .integer value => .integer value.type
  | .floating value => .floating value.type

/-- The `pack` of an item. -/
def packItem (buffer : Cursor) : Item → ℕ × Cursor
  | .integer value => pack buffer value
  | .floating value => packFloating buffer value

/-- Items packed one after the other, and the codes returned. -/
def packItems (buffer : Cursor) : List Item → List ℕ × Cursor
  | [] => ([], buffer)
  | item :: items =>
      let packed := packItem buffer item
      let rest := packItems packed.2 items
      (packed.1 :: rest.1, rest.2)

/-- What four bits hold of a code. -/
def nibbleOf (code : ℕ) : ℕ := code % 16

/-- The `unpack` of a type. -/
def unpackItem (memory : Memory) (dataArray packNibble : ℕ) :
    ItemType → Except Crash (Unpacked × ℕ)
  | .integer T => (unpack T memory dataArray packNibble).map fun (value, dataArray) =>
      (.integer value, dataArray)
  | .floating T => (unpackFloating T memory dataArray packNibble).map fun (value, dataArray) =>
      (.floating value, dataArray)

/-- Items unpacked one after the other, with the type and the nibble of each. -/
def unpackItems (memory : Memory) (dataArray : ℕ) :
    List (ItemType × ℕ) → Except Crash (List Unpacked × ℕ)
  | [] => .ok ([], dataArray)
  | (T, packNibble) :: rest =>
      match unpackItem memory dataArray packNibble T with
      | .error crash => .error crash
      | .ok (value, dataArray) =>
          match unpackItems memory dataArray rest with
          | .error crash => .error crash
          | .ok (values, dataArray) => .ok (value :: values, dataArray)

/-! ## One width -/

namespace Item

/-- The bytes of an item in a package. -/
def width : Item → ℕ
  | .integer value => value.width
  | .floating value => value.type.size

/-- The code of an item. -/
def code : Item → ℕ
  | .integer value => value.code
  | .floating value => value.type.size

/-- A nibble holds the code of an integer. -/
theorem nibbleOf_code (value : Value) : nibbleOf value.code = value.code :=
  Nat.mod_eq_of_lt (Nat.lt_succ_of_le (code_range value).2)

/-- The nibble of an item adds its width to the size. -/
theorem addNibble_nibbleOf (size : UInt32) (item : Item) :
    addNibble (size + UInt32.ofNat (nibbleOf item.code)) (nibbleOf item.code) =
      size + UInt32.ofNat item.width := by
  cases item with
  | integer value =>
      have same : nibbleOf (Item.integer value).code = value.code := nibbleOf_code value
      rw [same]
      exact addNibble_code size value
  | floating value =>
      cases type : value.type with
      | float => simp [code, width, type, FloatType.size, nibbleOf, addNibble]
      | double => simp [code, width, type, FloatType.size, nibbleOf, addNibble]
      | longDouble => simp [code, width, type, FloatType.size, nibbleOf, addNibble]

end Item

/-- **`pack` advances by the width.** -/
theorem packItem_eq (buffer : Cursor) (item : Item) :
    (packItem buffer item).1 = item.code ∧
      (packItem buffer item).2.position = buffer.position + item.width := by
  cases item with
  | integer value => exact ⟨by rw [packItem, pack_eq]; rfl, pack_position buffer value⟩
  | floating value => exact ⟨rfl, rfl⟩

theorem packItems_eq (buffer : Cursor) (items : List Item) :
    (packItems buffer items).1 = items.map Item.code ∧
      (packItems buffer items).2.position = buffer.position + (items.map Item.width).sum := by
  induction items generalizing buffer with
  | nil => exact ⟨rfl, rfl⟩
  | cons item items ih =>
      obtain ⟨code, moved⟩ := packItem_eq buffer item
      obtain ⟨codes, rest⟩ := ih (packItem buffer item).2
      refine ⟨by rw [packItems, code, codes, List.map_cons], ?_⟩
      rw [packItems, rest, moved, List.map_cons, List.sum_cons, Nat.add_assoc]

/-- **`unpack` consumes the width**, whatever it reads. -/
theorem unpackItem_width (memory : Memory) (dataArray : ℕ) (item : Item) :
    ∃ value, unpackItem memory dataArray (nibbleOf item.code) item.type =
      .ok (value, dataArray + item.width) := by
  cases item with
  | integer value =>
      have same : nibbleOf (Item.integer value).code = value.code := Item.nibbleOf_code value
      rw [same]
      exact ⟨_, congrArg (Except.map _) (unpack_code value.type memory dataArray value)⟩
  | floating value =>
      refine ⟨.floating (.load memory dataArray value.type), ?_⟩
      show (unpackFloating value.type memory dataArray (nibbleOf value.type.size)).map _ =
        .ok (_, dataArray + value.type.size)
      cases value.type with
      | float => rfl
      | double => rfl
      | longDouble => rfl

theorem unpackItems_width (memory : Memory) (dataArray : ℕ) (items : List Item) :
    ∃ values, unpackItems memory dataArray
        ((items.map Item.type).zip (items.map fun item => nibbleOf item.code)) =
      .ok (values, dataArray + (items.map Item.width).sum) := by
  induction items generalizing dataArray with
  | nil => exact ⟨[], rfl⟩
  | cons item items ih =>
      obtain ⟨value, first⟩ := unpackItem_width memory dataArray item
      obtain ⟨values, rest⟩ := ih (dataArray + item.width)
      refine ⟨value :: values, ?_⟩
      simp only [List.map_cons, List.zip_cons_cons, unpackItems, first, rest, List.sum_cons,
        Nat.add_assoc]

/-! ## The size -/

/-- **The size of a package** is the number of bytes by which `pack` has advanced, and the number
that `unpack` consumes, with the types and the nibbles of the items, in any memory. -/
theorem packageSize_accounts (buffer : Cursor) (items : List Item) {memory : Memory} {nibbles : ℕ}
    (stored : (List.range items.length).map (nibbleAt memory nibbles) =
      (packItems buffer items).1.map nibbleOf)
    (bound : (packItems buffer items).2.position < buffer.position + 2 ^ 32) :
    buffer.position + (getSizeOfPackage memory nibbles items.length).toNat =
        (packItems buffer items).2.position ∧
      ∀ data dataArray, ∃ values, unpackItems data dataArray
          ((items.map Item.type).zip ((packItems buffer items).1.map nibbleOf)) =
        .ok (values, dataArray + (getSizeOfPackage memory nibbles items.length).toNat) := by
  obtain ⟨codes, moved⟩ := packItems_eq buffer items
  rw [codes, List.map_map] at stored
  rw [moved] at bound
  have size : (getSizeOfPackage memory nibbles items.length).toNat =
      (items.map Item.width).sum := by
    refine getSizeOfPackage_eq_sum Item.addNibble_nibbleOf ?_ (by omega)
    intro i inside
    have nibble := congrArg (fun nibbles => nibbles[i]?) stored
    simpa [inside] using nibble
  rw [codes, moved, size, List.map_map]
  exact ⟨rfl, fun data dataArray => unpackItems_width data dataArray items⟩

/-- The values `11`, a `long double` and `-3`. -/
def threeItems : List Item :=
  [.integer ⟨.uint32, 11, by decide, by decide⟩, .floating ⟨.longDouble, 7, by decide⟩,
    .integer ⟨.int32, -3, by decide, by decide⟩]

/-- Their codes are `1`, `16` and `9`, and the package has 18 bytes. -/
theorem threeItems_accounted :
    (getSizeOfPackage (memoryOf [0x01, 0x09]) 0 threeItems.length).toNat = 18 ∧
      ∀ data dataArray, ∃ values, unpackItems data dataArray
          ((threeItems.map Item.type).zip ((packItems ⟨fun _ => 0, 0⟩ threeItems).1.map nibbleOf)) =
        .ok (values, dataArray + 18) := by
  have size : (getSizeOfPackage (memoryOf [0x01, 0x09]) 0 threeItems.length).toNat = 18 := by decide
  obtain ⟨-, unpacked⟩ := @packageSize_accounts ⟨fun _ => 0, 0⟩ threeItems
    (memoryOf [0x01, 0x09]) 0 (by decide) (by decide)
  rw [size] at unpacked
  exact ⟨size, unpacked⟩

end FastWebServer.Nanolog
