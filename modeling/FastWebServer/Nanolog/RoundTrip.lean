import FastWebServer.Nanolog.PackageSize

/-!
# Reading a package back

Integers and floating point values packed into one buffer are read back in order from any memory
that holds the bytes they were packed to, each from where its own bytes begin: `pack` of an integer
copies `sizeof(T)` bytes and advances by fewer, so what is packed behind it overwrites only bytes
that its nibble does not read (`load_packItems`). The reader needs nothing but the types and the
nibbles. It starts behind the nibbles and stops where `get_size_of_package` says the package ends
(`package_roundTrip`).
-/

set_option autoImplicit false

namespace FastWebServer.Nanolog

open Bytes Cxx

/-- What `unpack` should return. -/
def Item.unpacked : Item → Unpacked
  | .integer value => .integer value.val
  | .floating value => .floating value

/-- The number of bytes that `pack` copies. -/
def Item.copied : Item → ℕ
  | .integer value => value.type.size
  | .floating value => value.type.size

/-- The number that `pack` copies. -/
def Item.image : Item → ℕ
  | .integer value => value.magnitude
  | .floating value => value.image

/-- The memory holds the items from `start` on: the nibbles of their codes, and behind them the
bytes that packing them writes. -/
structure Packaged (memory : Memory) (start : ℕ) (items : List Item) : Prop where
  nibbles : ∀ i (inside : i < items.length),
    nibbleAt memory start i = nibbleOf (items.get ⟨i, inside⟩).code
  bytes : ∃ scratch : Memory, ∀ a, packageStart start items.length ≤ a →
    a < (packItems ⟨scratch, packageStart start items.length⟩ items).2.position →
    memory a = (packItems ⟨scratch, packageStart start items.length⟩ items).2.memory a

/-! ## The bytes of an item -/

theorem packItem_memory (buffer : Cursor) (item : Item) :
    (packItem buffer item).2.memory =
      store buffer.memory buffer.position item.copied item.image := by
  cases item with
  | integer value =>
      rw [packItem, pack_eq]
      rfl
  | floating value => rfl

namespace Item

theorem width_le_copied (item : Item) : item.width ≤ item.copied := by
  cases item with
  | integer value => exact value.width_le_size
  | floating value => exact le_rfl

/-- The bytes by which `pack` advances hold all of the item. -/
theorem image_lt (item : Item) : item.image < 256 ^ item.width := by
  cases item with
  | integer value => exact (value.width_le_iff value.width_pos).1 le_rfl
  | floating value => exact value.short

end Item

/-- No item changes a byte before its start. -/
theorem packItems_before {buffer : Cursor} {items : List Item} {a : ℕ}
    (before : a < buffer.position) : (packItems buffer items).2.memory a = buffer.memory a := by
  induction items generalizing buffer with
  | nil => rfl
  | cons item items ih =>
      have moved := (packItem_eq buffer item).2
      have later : a < (packItem buffer item).2.position := by omega
      rw [packItems, ih later, packItem_memory]
      exact store_outside (.inl before)

/-- **An item stands where it was packed**, whatever is packed behind it. -/
theorem load_packItems {buffer : Cursor} {item : Item} {items : List Item} {memory : Memory}
    (same : ∀ a, buffer.position ≤ a → a < buffer.position + item.width →
      memory a = (packItems buffer (item :: items)).2.memory a) :
    load memory buffer.position item.width = item.image := by
  have moved := (packItem_eq buffer item).2
  have own : load memory buffer.position item.width =
      load (packItem buffer item).2.memory buffer.position item.width := by
    refine load_congr fun a lower upper => ?_
    have behind : a < (packItem buffer item).2.position := by omega
    rw [same a lower upper, packItems, packItems_before behind]
  rw [own, packItem_memory, load_store item.width_le_copied]
  exact Nat.mod_eq_of_lt item.image_lt

/-! ## Reading the items -/

/-- Whatever stands in front, an item is read from its own bytes. -/
theorem unpackItem_of_load {memory : Memory} {dataArray : ℕ} {item : Item}
    (stands : load memory dataArray item.width = item.image) :
    unpackItem memory dataArray (nibbleOf item.code) item.type =
      .ok (item.unpacked, dataArray + item.width) := by
  cases item with
  | integer value =>
      have code : nibbleOf (Item.integer value).code = value.code := Item.nibbleOf_code value
      have magnitude : load memory dataArray value.width = value.magnitude := stands
      rw [code]
      show (unpack value.type memory dataArray value.code).map _ = _
      rw [unpack_code, magnitude, value.readAs_magnitude]
      rfl
  | floating value =>
      have loaded : FloatValue.load memory dataArray value.type = value := by
        obtain ⟨type, image, short⟩ := value
        have number : load memory dataArray type.size = image := stands
        simp only [FloatValue.load, number]
      show (unpackFloating value.type memory dataArray (nibbleOf value.type.size)).map _ =
        .ok (Unpacked.floating value, dataArray + value.type.size)
      cases type : value.type with
      | float | double | longDouble =>
          rw [type] at loaded
          simp [unpackFloating, nibbleOf, FloatType.size, loaded, Except.map]

/-- **Items are unpacked from every memory that holds the bytes they were packed to.** -/
theorem unpackItems_of_same {buffer : Cursor} {items : List Item} {memory : Memory}
    (same : ∀ a, buffer.position ≤ a → a < (packItems buffer items).2.position →
      memory a = (packItems buffer items).2.memory a) :
    unpackItems memory buffer.position
        ((items.map Item.type).zip (items.map fun item => nibbleOf item.code)) =
      .ok (items.map Item.unpacked, (packItems buffer items).2.position) := by
  induction items generalizing buffer with
  | nil => rfl
  | cons item items ih =>
      have position := (packItems_eq buffer (item :: items)).2
      rw [List.map_cons, List.sum_cons] at position
      have first := unpackItem_of_load (load_packItems fun a lower upper =>
        same a lower (by omega))
      have next := (packItem_eq buffer item).2
      have rest := @ih (packItem buffer item).2 fun a lower upper => same a (by omega) upper
      rw [next] at rest
      simp only [List.map_cons, List.zip_cons_cons, unpackItems, first, rest, packItems]

/-! ## The package -/

/-- The nibbles that the reader takes from the stream. -/
theorem Packaged.read {memory : Memory} {start : ℕ} {items : List Item}
    (packaged : Packaged memory start items) :
    (List.range items.length).map (nibbleAt memory start) =
      items.map fun item => nibbleOf item.code := by
  refine List.ext_getElem (by simp) fun i inside _ => ?_
  have bound : i < items.length := by simpa using inside
  simpa using packaged.nibbles i bound

/-- **A package is read back.** With the types of the items and the nibbles in front of the
package, `unpack` returns every item as it was packed, and stops at the end that
`get_size_of_package` computes from the nibbles. -/
theorem package_roundTrip {memory : Memory} {start : ℕ} {items : List Item}
    (packaged : Packaged memory start items) (bound : (items.map Item.width).sum < 2 ^ 32) :
    unpackItems memory (packageStart start items.length)
        ((items.map Item.type).zip ((List.range items.length).map (nibbleAt memory start))) =
      .ok (items.map Item.unpacked,
        packageStart start items.length +
          (getSizeOfPackage memory start items.length).toNat) := by
  have size : (getSizeOfPackage memory start items.length).toNat =
      (items.map Item.width).sum :=
    getSizeOfPackage_eq_sum Item.addNibble_nibbleOf packaged.nibbles bound
  obtain ⟨scratch, same⟩ := packaged.bytes
  have read := @unpackItems_of_same ⟨scratch, packageStart start items.length⟩ items memory same
  rw [(packItems_eq _ items).2] at read
  rw [packaged.read, size, read]

/-- The nibbles of three items, and behind them their bytes. -/
def threePackage : Memory := fun a =>
  if a = 0 then 0x01 else if a = 1 then 0x09 else (packItems ⟨fun _ => 0, 2⟩ threeItems).2.memory a

theorem threePackage_read :
    unpackItems threePackage 2
        ((threeItems.map Item.type).zip ((List.range 3).map (nibbleAt threePackage 0))) =
      .ok (threeItems.map Item.unpacked,
        2 + (getSizeOfPackage threePackage 0 3).toNat) := by
  refine @package_roundTrip threePackage 0 threeItems ⟨?_, fun _ => 0, fun a lower _ => ?_⟩
    (by decide)
  · decide
  · have first : a ≠ 0 := fun zero => by simp [zero, packageStart, threeItems] at lower
    have second : a ≠ 1 := fun one => by simp [one, packageStart, threeItems] at lower
    rw [threePackage, if_neg first, if_neg second]
    rfl

end FastWebServer.Nanolog
