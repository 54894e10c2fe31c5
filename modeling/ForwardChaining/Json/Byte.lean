namespace ForwardChaining.Json.Byte

abbrev quote : UInt8 := 0x22

abbrev backslash : UInt8 := 0x5C

abbrev slash : UInt8 := 0x2F

abbrev comma : UInt8 := 0x2C

abbrev colon : UInt8 := 0x3A

abbrev openBracket : UInt8 := 0x5B

abbrev closeBracket : UInt8 := 0x5D

abbrev openBrace : UInt8 := 0x7B

abbrev closeBrace : UInt8 := 0x7D

abbrev plus : UInt8 := 0x2B

abbrev minus : UInt8 := 0x2D

abbrev point : UInt8 := 0x2E

abbrev zero : UInt8 := 0x30

/-- The letter after the backslash of an escape with four digits. -/
abbrev unitMark : UInt8 := 0x75

/-- Whether a byte is one of the four blanks of JSON. -/
def isSpace (byte : UInt8) : Bool :=
  byte = 0x20 || byte = 0x09 || byte = 0x0A || byte = 0x0D

/-- Whether a byte is a control character, which no string holds unescaped. -/
def isControl (byte : UInt8) : Bool :=
  byte < 0x20

/-- Whether a byte is a decimal digit. -/
def isDigit (byte : UInt8) : Bool :=
  0x30 ≤ byte && byte ≤ 0x39

/-- Whether a byte marks the exponent of a number. -/
def isExponentMark (byte : UInt8) : Bool :=
  byte = 0x65 || byte = 0x45

/-- The value of a hexadecimal digit in either case. -/
def hexValue? (byte : UInt8) : Option Nat :=
  if 0x30 ≤ byte && byte ≤ 0x39 then some (byte.toNat - 0x30)
  else if 0x61 ≤ byte && byte ≤ 0x66 then some (byte.toNat - 0x61 + 10)
  else if 0x41 ≤ byte && byte ≤ 0x46 then some (byte.toNat - 0x41 + 10)
  else none

/-- The number that hexadecimal digits spell. -/
def hexNumber? (digits : List UInt8) : Option Nat :=
  digits.foldlM (fun number digit => (hexValue? digit).map (number * 16 + ·)) 0

/-- The byte that a short escape stands for, by the byte after the backslash. -/
def unescape? (byte : UInt8) : Option UInt8 :=
  if byte = quote || byte = backslash || byte = slash then some byte
  else if byte = 0x62 then some 0x08
  else if byte = 0x66 then some 0x0C
  else if byte = 0x6E then some 0x0A
  else if byte = 0x72 then some 0x0D
  else if byte = 0x74 then some 0x09
  else none

/-- The bytes that end the words `null`, `true` and `false`, by their first byte. -/
def wordAfter? (byte : UInt8) : Option (List UInt8) :=
  if byte = 0x6E then some [0x75, 0x6C, 0x6C]
  else if byte = 0x74 then some [0x72, 0x75, 0x65]
  else if byte = 0x66 then some [0x61, 0x6C, 0x73, 0x65]
  else none

end ForwardChaining.Json.Byte
