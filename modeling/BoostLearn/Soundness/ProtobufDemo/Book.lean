import BoostLearn.Model.ProtobufDemo.Book
import Mathlib.Tactic.SplitIfs

/-! # A book that is serialized and parsed

The parser merges what has been serialized into the book it is given, and a cleared book is read back
as it was written. A price is compared as bytes, so no price is lost, also not the negative zero or one
that is not a number.
-/

namespace BoostLearn.Soundness.ProtobufDemo

open CInt WireFormat Model.AsyncServerUseProtobuf Model.ProtobufDemo

def setName (name : List UInt8) (book : Book) : Book := { book with name }

def setPages (pages : ℤ) (book : Book) : Book := { book with pages }

def setPrice (price : List UInt8) (book : Book) : Book := { book with price }

/-- What a record says about a book, and whether its text is accepted. -/
def applyRecord (runtime : Runtime) (record : Record) (book : Book) : Option (Book × Bool) :=
  match record.field with
  | 1 => applyString runtime setName record book
  | 2 => applyInt32 setPages record book
  | 3 => applyFloat setPrice record book
  | _ => none

variable {runtime : Runtime}

theorem interprets_switch (lawful : runtime.Lawful) :
    Interprets (Book.switch runtime) (applyRecord runtime) := by
  intro record book rest
  have cases_ : Book.switch runtime record.tag book (record.payload.bytes ++ rest) =
      match record.field with
      | 1 => stringCase runtime 1 setName record.tag book (record.payload.bytes ++ rest)
      | 2 => int32Case runtime 2 setPages record.tag book (record.payload.bytes ++ rest)
      | 3 => floatCase runtime 3 setPrice record.tag book (record.payload.bytes ++ rest)
      | _ => none := by
    rw [Book.switch, record.tag_div]
    rfl
  rw [cases_, applyRecord]
  split
  · next field => exact interprets_string lawful field (by decide) setName book rest
  · next field => exact interprets_int32 lawful field (by decide) setPages book rest
  · next field => exact interprets_float lawful field (by decide) setPrice book rest
  · rfl

/-- The fields are values of their types, and of sizes that the runtime reads. -/
structure Typed (book : Book) : Prop where
  short : book.name.length ≤ maxSize
  low : -2147483648 ≤ book.pages
  high : book.pages < 2147483648
  four : book.price.length = 4

variable {book : Book}

/-- The records of a book. -/
def records (typed : Typed book) : List Record :=
  (if book.name ≠ [] then [stringRecord known_one typed.short] else []) ++
    (if book.pages ≠ 0 then [int32Record known_two book.pages] else []) ++
    (if book.price ≠ zero then [floatRecord known_three typed.four] else [])

theorem bytes_records (typed : Typed book) :
    (records typed).flatMap Record.bytes = book.internalSerialize := by
  have name : (stringRecord known_one typed.short).bytes = writeString 1 book.name := (List.append_assoc ..).symm
  have pages : (int32Record known_two book.pages).bytes = writeInt32ToArray 2 book.pages := rfl
  have price : (floatRecord known_three typed.four).bytes = Book.writeFloatToArray 3 book.price := rfl
  rw [records, Book.internalSerialize, List.flatMap_append, List.flatMap_append]
  congr 1
  · congr 1
    · split_ifs
      · rw [List.flatMap_singleton, name]
      · rfl
    · split_ifs
      · rw [List.flatMap_singleton, pages]
      · rfl
  · split_ifs
    · rw [List.flatMap_singleton, price]
    · rfl

theorem merges_book (typed : Typed book) (valid : book.name ≠ [] → runtime.verifyUtf8 book.name = true) :
    Merges (applyRecord runtime) Book.internalSerialize Book.mergeImpl book := by
  intro to_msg
  refine ⟨records typed, (bytes_records typed).symm, ?_⟩
  have applied : applyRecord runtime (stringRecord known_one typed.short) to_msg =
      some (setName book.name to_msg, runtime.verifyUtf8 book.name) := rfl
  have pages (msg : Book) : applyRecord runtime (int32Record known_two book.pages) msg =
      some (setPages book.pages msg, true) := apply_int32Record known_two setPages typed.low typed.high msg
  have price (msg : Book) : applyRecord runtime (floatRecord known_three typed.four) msg =
      some (setPrice book.price msg, true) := rfl
  have name := interpret_last applied (book.name ≠ [])
  rw [if_pos valid] at name
  have numbered := interpret_append name (if book.pages ≠ 0 then [int32Record known_two book.pages] else [])
  rw [interpret_optional (pages _)] at numbered
  have priced := interpret_append numbered
    (if book.price ≠ zero then [floatRecord known_three typed.four] else [])
  rw [interpret_optional (price _)] at priced
  exact priced

/-- Books behind each other are merged one after the other. -/
theorem parses_books (lawful : runtime.Lawful) {books : List Book} (typed : ∀ book ∈ books, Typed book)
    (valid : ∀ book ∈ books, book.name ≠ [] → runtime.verifyUtf8 book.name = true) (to_msg : Book) {fuel : ℕ}
    (enough : (books.flatMap Book.internalSerialize).length < fuel) :
    Book.internalParse runtime fuel to_msg (books.flatMap Book.internalSerialize) =
      some (books.foldl Book.mergeImpl to_msg, .endOfStream) :=
  internalParse_concatenation lawful (interprets_switch lawful)
    (fun book member => merges_book (typed book member) (valid book member)) to_msg enough

theorem mergeImpl_clear (book : Book) : Book.mergeImpl .clear book = book := by
  obtain ⟨name, pages, price⟩ := book
  simp only [Book.mergeImpl, Book.clear]
  split_ifs <;> simp_all

/-- A book takes as many bytes as are announced, and these are parsed into the same book. -/
theorem parses_serialized_book (lawful : runtime.Lawful) (typed : Typed book)
    (valid : book.name ≠ [] → runtime.verifyUtf8 book.name = true) :
    book.internalSerialize.length = book.byteSizeLong ∧
      Book.internalParse runtime (book.byteSizeLong + 1) .clear book.internalSerialize =
        some (book, .endOfStream) := by
  have size : book.internalSerialize.length = book.byteSizeLong := by
    have tag {value : ℕ} (small : value < 128) : (varint value).length = 1 := by
      rw [varint_of_lt small, List.length_singleton]
    have four := typed.four
    rw [Book.internalSerialize, Book.byteSizeLong, List.length_append, List.length_append]
    split_ifs
    all_goals simp only [writeString, writeInt32ToArray, Book.writeFloatToArray, List.length_append,
      List.length_nil, tag (show 8 * 1 + 2 < 128 by decide), tag (show 8 * 2 < 128 by decide),
      tag (show 8 * 3 + 5 < 128 by decide), four]
    all_goals omega
  refine ⟨size, ?_⟩
  have parsed := @parses_books runtime lawful [book] (fun other member => List.mem_singleton.mp member ▸ typed)
    (fun other member => List.mem_singleton.mp member ▸ valid) .clear (book.byteSizeLong + 1)
    (by rw [List.flatMap_singleton, size]; exact Nat.lt_succ_self _)
  rwa [List.flatMap_singleton, List.foldl_cons, List.foldl_nil, mergeImpl_clear] at parsed

/-- A book for the negative zero. -/
def gift : Book := ⟨[65], 100, [0, 0, 0, 128]⟩

theorem parses_serialized_gift :
    Book.internalParse plain 11 .clear [10, 1, 65, 16, 100, 29, 0, 0, 0, 128] = some (gift, .endOfStream) := by
  have serialized : gift.internalSerialize = [10, 1, 65, 16, 100, 29, 0, 0, 0, 128] := by
    simp [gift, Book.internalSerialize, writeString, writeInt32ToArray, Book.writeFloatToArray, varint_of_lt,
      toSizeT, zero]
  have typed : Typed gift := ⟨by decide, by decide, by decide, rfl⟩
  obtain ⟨size, parsed⟩ := parses_serialized_book lawful_plain typed (by decide)
  rw [← size, serialized] at parsed
  exact parsed

end BoostLearn.Soundness.ProtobufDemo
