/-! # Text as bytes

A source is scanned as the list of its UTF-8 bytes.

* `Utf8.encode s` is the list of bytes of a text, `Utf8.decode?` reads a list of bytes back
  and fails on one that is no text;
* `Utf8.text` names the text of a slice of an encoding;
* `Utf8.width b` is the number of bytes of a character, told from its first byte;
* `Utf8.ascii b` is the character with the byte's number, so that tests on bytes can be written
  as tests on ASCII characters.

`decode?_encode` says that reading back what was written gives the text again. -/

namespace StreamScript.Utf8

/-- The bytes of a text. -/
def encode (s : String) : List UInt8 := s.toList.flatMap String.utf8EncodeChar

/-- The text that the bytes encode, if they encode one. -/
def decode? (bytes : List UInt8) : Option String := String.fromUTF8? bytes.toByteArray

/-- The text that the bytes encode; the empty text if they encode none. -/
def text (bytes : List UInt8) : String := (decode? bytes).getD ""

/-- The character with the byte's number.  Below 128 it is the character that the byte encodes. -/
def ascii (b : UInt8) : Char := Char.ofNat b.toNat

/-- The number of bytes of the character whose first byte is `lead`. -/
def width (lead : UInt8) : Nat :=
  if lead < 0x80 then 1 else if lead < 0xe0 then 2 else if lead < 0xf0 then 3 else 4

theorem width_pos (lead : UInt8) : 0 < width lead := by
  grind [width]

theorem toByteArray_encode (s : String) : (encode s).toByteArray = s.toByteArray := by
  conv => rhs; rw [← String.ofList_toList (s := s), String.toByteArray_ofList]
  rfl

/-- Reading back the bytes of a text gives the text. -/
theorem decode?_encode (s : String) : decode? (encode s) = some s := by
  have h : s.toByteArray.IsValidUTF8 := s.isValidUTF8
  simp [decode?, toByteArray_encode, String.fromUTF8?, h, String.fromUTF8]

theorem text_encode (s : String) : text (encode s) = s := by simp [text, decode?_encode]

@[simp] theorem encode_empty : encode "" = [] := rfl

@[simp] theorem encode_append (s t : String) : encode (s ++ t) = encode s ++ encode t := by
  simp [encode]

end StreamScript.Utf8
