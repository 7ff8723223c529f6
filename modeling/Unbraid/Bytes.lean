/-!
# Bytes

Byte strings, and the text they stand for. Text is read from bytes only if they are well-formed
UTF-8 (`text?`), and the bytes of a text read back as that text (`text?_ofText`).
-/

namespace Unbraid

/-- A sequence of bytes: a buffer, a message body, the content of a file. -/
abbrev Bytes := List UInt8

namespace Bytes

/-- The bytes of a text in UTF-8. -/
def ofText (text : String) : Bytes := text.toByteArray.data.toList

/-- The text of well-formed UTF-8. -/
def text? (bytes : Bytes) : Option String := String.fromUTF8? ⟨bytes.toArray⟩

theorem text?_ofText (text : String) : text? (ofText text) = some text := by
  have same : (⟨(ofText text).toArray⟩ : ByteArray) = text.toByteArray := by
    simp [ofText]
  simpa [text?, same, String.fromUTF8?, String.fromUTF8] using text.isValidUTF8

/-- The blanks of ASCII that may surround a body: space, tab, line feed, form
feed and carriage return. The vertical tab is not among them. -/
def isAsciiBlank (byte : UInt8) : Bool :=
  byte = 0x20 || byte = 0x09 || byte = 0x0A || byte = 0x0C || byte = 0x0D

def trimAscii (bytes : Bytes) : Bytes :=
  ((bytes.dropWhile isAsciiBlank).reverse.dropWhile isAsciiBlank).reverse

def hexDigit (n : Nat) : Char := if n < 10 then Char.ofNat (48 + n) else Char.ofNat (87 + n)

def hex (bytes : Bytes) : String :=
  String.ofList (bytes.flatMap fun byte => [hexDigit (byte.toNat / 16), hexDigit (byte.toNat % 16)])

/-- The value of a hexadecimal digit, in either case. -/
def hexValue? (byte : UInt8) : Option Nat :=
  if 0x30 ≤ byte ∧ byte ≤ 0x39 then some (byte.toNat - 0x30)
  else if 0x41 ≤ byte ∧ byte ≤ 0x46 then some (byte.toNat - 0x37)
  else if 0x61 ≤ byte ∧ byte ≤ 0x66 then some (byte.toNat - 0x57)
  else none

def isDigit (byte : UInt8) : Bool := 0x30 ≤ byte && byte ≤ 0x39

end Bytes

end Unbraid
