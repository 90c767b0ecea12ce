import BoostLearn.Core.WireFormat
import BoostLearn.Model.AsyncServerUseProtobuf.MsgData

/-! # The generated code of Book

A `float` is the four bytes that hold it. The serializer leaves a price out when these are all zero,
so it writes the negative zero.
-/

namespace BoostLearn.Model.ProtobufDemo

open CInt WireFormat AsyncServerUseProtobuf

structure Book where
  name : List UInt8
  pages : ℤ
  price : List UInt8
deriving DecidableEq, Repr

/-- The raw bytes of `0.0f`. -/
def zero : List UInt8 := [0, 0, 0, 0]

namespace Book

/-- `Book::Clear`. -/
def clear : Book := ⟨[], 0, zero⟩

/-- `Book::MergeImpl`. -/
def mergeImpl (to_msg from_msg : Book) : Book :=
  let to_msg := if from_msg.name ≠ [] then { to_msg with name := from_msg.name } else to_msg
  let to_msg := if from_msg.pages ≠ 0 then { to_msg with pages := from_msg.pages } else to_msg
  if from_msg.price ≠ zero then { to_msg with price := from_msg.price } else to_msg

/-- The switch in `Book::_InternalParse`. -/
def switch (runtime : Runtime) : Switch Book := fun tag msg ptr =>
  match tag / 8 with
  | 1 =>
    if tag % 256 = 10 then
      let (str, ptr) := runtime.stringParser ptr
      let msg := { msg with name := str }
      some (msg, ptr.bind fun ptr => if runtime.verifyUtf8 str then some ptr else none)
    else none
  | 2 =>
    if tag % 256 = 16 then
      let (value, ptr) := runtime.readVarint32 ptr
      some ({ msg with pages := toInt value }, ptr)
    else none
  | 3 =>
    if tag % 256 = 29 then
      let (value, ptr) := runtime.unalignedLoad ptr
      some ({ msg with price := value }, ptr)
    else none
  | _ => none

/-- `Book::_InternalParse`. -/
def internalParse (runtime : Runtime) : ℕ → Book → List UInt8 → Option (Book × Ended) :=
  WireFormat.internalParse runtime (Book.switch runtime)

/-- `WireFormatLite::WriteFloatToArray`: the tag with the wire type 5, and the bytes. -/
def writeFloatToArray (field : ℕ) (value : List UInt8) : List UInt8 := varint (8 * field + 5) ++ value

/-- `Book::_InternalSerialize`, without unknown fields. -/
def internalSerialize (book : Book) : List UInt8 :=
  (if book.name ≠ [] then writeString 1 book.name else []) ++
    (if book.pages ≠ 0 then writeInt32ToArray 2 book.pages else []) ++
    (if book.price ≠ zero then writeFloatToArray 3 book.price else [])

/-- `Book::ByteSizeLong`, without unknown fields. -/
def byteSizeLong (book : Book) : ℕ :=
  let totalSize := 0
  let totalSize :=
    if book.name ≠ [] then totalSize + (1 + ((varint book.name.length).length + book.name.length))
    else totalSize
  let totalSize :=
    if book.pages ≠ 0 then totalSize + (1 + (varint (toSizeT book.pages)).length) else totalSize
  if book.price ≠ zero then totalSize + (1 + 4) else totalSize

end Book

end BoostLearn.Model.ProtobufDemo
