import Mathlib.Data.List.Range

namespace FuseOverlay

/-!
# Files as arrays of bytes

A file has a size and a byte at every offset below it.  A write puts bytes at
an offset and leaves zeros where it opens a gap; a read ends at the end of the
file.  `Stored` says that a list is the file.
-/

/-- A file; bytes from the size on do not count. -/
structure ByteFile (Byte : Type) where
  size : Nat
  byte : Nat → Byte

namespace ByteFile

variable {Byte : Type} [Zero Byte]

/-- The file after bytes were written at an offset. -/
def write
    (file : ByteFile Byte)
    (offset : Nat)
    (bytes : List Byte) :
    ByteFile Byte where
  size := max file.size (offset + bytes.length)
  byte place :=
    if offset ≤ place ∧ place < offset + bytes.length then
      bytes.getD (place - offset) 0
    else if place < file.size then
      file.byte place
    else
      0

omit [Zero Byte] in
/-- The bytes from an offset on, at most to the end of the file. -/
def read
    (file : ByteFile Byte)
    (offset count : Nat) :
    List Byte :=
  (List.range (min count (file.size - offset))).map fun place =>
    file.byte (offset + place)

/-- The file of some bytes. -/
def ofList (data : List Byte) : ByteFile Byte :=
  ⟨data.length, fun place => data.getD place 0⟩

/-- The list has the bytes of the file. -/
structure Stored
    (file : ByteFile Byte)
    (data : List Byte) : Prop where
  length : data.length = file.size
  byte : ∀ place < file.size, data[place]? = some (file.byte place)

theorem stored_ofList
    (data : List Byte) :
    (ofList data).Stored data := by
  refine ⟨rfl, fun place inside => ?_⟩
  change place < data.length at inside
  simp [ofList, inside]

omit [Zero Byte] in
/-- A read of the list is a read of the file. -/
theorem Stored.read
    {file : ByteFile Byte}
    {data : List Byte}
    (stored : file.Stored data)
    (offset count : Nat) :
    (data.drop offset).take count = file.read offset count := by
  apply List.ext_getElem?
  intro place
  unfold ByteFile.read
  rw [List.getElem?_take, List.getElem?_map, List.getElem?_drop]
  by_cases inside : place < min count (file.size - offset)
  · rw [if_pos (by omega), List.getElem?_range inside,
      stored.byte _ (by omega)]
    rfl
  · have past : (List.range (min count (file.size - offset)))[place]? = none :=
      List.getElem?_eq_none (by rw [List.length_range]; omega)
    rw [past]
    split
    · exact List.getElem?_eq_none (by rw [stored.length]; omega)
    · rfl

/-- A write into the list is a write into the file. -/
theorem Stored.write
    {file : ByteFile Byte}
    {data bytes : List Byte}
    {offset : Nat}
    (stored : file.Stored data)
    (filled : bytes ≠ []) :
    (file.write offset bytes).Stored
      (data.take offset ++ List.replicate (offset - data.length) 0 ++ bytes ++
        data.drop (offset + bytes.length)) := by
  have isLength := stored.length
  have notEmpty : 0 < bytes.length := List.length_pos_iff.mpr filled
  constructor
  · simp only [List.length_append, List.length_take, List.length_replicate,
      List.length_drop, ByteFile.write]
    omega
  · intro place inside
    change place < max file.size (offset + bytes.length) at inside
    have front :
        (data.take offset ++ List.replicate (offset - data.length) 0).length =
          offset := by
      simp only [List.length_append, List.length_take, List.length_replicate]
      omega
    unfold ByteFile.write
    simp only
    by_cases before : place < offset
    · rw [if_neg (by omega), List.append_assoc,
        List.getElem?_append_left (by omega)]
      by_cases old : place < file.size
      · rw [if_pos old, List.getElem?_append_left (by simp; omega),
          List.getElem?_take, if_pos before]
        exact stored.byte place old
      · rw [if_neg old, List.getElem?_append_right (by simp; omega),
          List.getElem?_replicate, if_pos (by simp; omega)]
    · by_cases within : place < offset + bytes.length
      · rw [if_pos ⟨by omega, within⟩, List.append_assoc,
          List.getElem?_append_right (by omega), front,
          List.getElem?_append_left (by omega)]
        simp [show place - offset < bytes.length by omega]
      · rw [if_neg (by omega), if_pos (by omega),
          List.getElem?_append_right (by simp; omega), List.getElem?_drop]
        have samePlace :
            offset + bytes.length +
                (place - (data.take offset ++
                  List.replicate (offset - data.length) 0 ++ bytes).length) =
              place := by
          rw [List.length_append, front]
          omega
        rw [samePlace]
        exact stored.byte place (by omega)

/-- The file has these bytes at an offset. -/
structure Has
    (file : ByteFile Byte)
    (offset : Nat)
    (bytes : List Byte) : Prop where
  within : offset + bytes.length ≤ file.size
  read : file.read offset bytes.length = bytes

/-- A file has the bytes that were written. -/
theorem has_write
    (file : ByteFile Byte)
    (offset : Nat)
    (bytes : List Byte) :
    (file.write offset bytes).Has offset bytes := by
  refine ⟨Nat.le_max_right .., ?_⟩
  apply List.ext_getElem?
  intro place
  unfold ByteFile.read ByteFile.write
  rw [List.getElem?_map]
  by_cases inside : place < bytes.length
  · rw [List.getElem?_range (by simp only; omega), Option.map_some]
    simp [inside]
  · have past : bytes[place]? = none :=
      List.getElem?_eq_none (by omega)
    rw [past, Option.map_eq_none_iff]
    exact List.getElem?_eq_none (by simp; omega)

/-- A write elsewhere leaves them alone. -/
theorem Has.write
    {file : ByteFile Byte}
    {offset place : Nat}
    {bytes other : List Byte}
    (has : file.Has offset bytes)
    (apart :
      place + other.length ≤ offset ∨ offset + bytes.length ≤ place) :
    (file.write place other).Has offset bytes := by
  have within := has.within
  refine ⟨within.trans (Nat.le_max_left ..), ?_⟩
  refine Eq.trans ?_ has.read
  unfold ByteFile.read ByteFile.write
  simp only
  rw [Nat.min_eq_left (by omega), Nat.min_eq_left (by omega)]
  apply List.map_congr_left
  intro step member
  have inside : step < bytes.length := List.mem_range.mp member
  rw [if_neg (by omega), if_pos (by omega)]

end ByteFile

end FuseOverlay
