import ForwardChaining.Text.CharSet

namespace ForwardChaining.Text

/-- The characters with the White_Space property. -/
def blanks : CharSet :=
  ⟨[(0x9, 0xD), (0x20, 0x20), (0x85, 0x85), (0xA0, 0xA0), (0x1680, 0x1680), (0x2000, 0x200A),
    (0x2028, 0x2029), (0x202F, 0x202F), (0x205F, 0x205F), (0x3000, 0x3000)]⟩

/-- Whether the character only separates others. -/
def isBlank (c : Char) : Bool :=
  blanks.contains c

/-- The characters without the blanks at either end. -/
def trimChars (chars : List Char) : List Char :=
  ((chars.dropWhile isBlank).reverse.dropWhile isBlank).reverse

/-- The text without the blanks at either end. -/
def trim (text : String) : String :=
  String.ofList (trimChars text.toList)

end ForwardChaining.Text
