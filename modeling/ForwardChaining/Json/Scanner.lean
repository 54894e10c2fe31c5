import ForwardChaining.Json.Byte

namespace ForwardChaining.Json

/-- What a byte does to a scanner, for the bytes it does not refuse. -/
inductive Scan (σ α : Type) where
  /-- The byte was taken and more are wanted. -/
  | more (state : σ)
  /-- The byte was the last. -/
  | last (value : α)
  /-- What was scanned ended before the byte. -/
  | before (value : α)

/-- How far a number has been read. -/
inductive NumberScan where
  /-- Only its sign. -/
  | minus
  /-- A whole part that is zero. -/
  | zero
  /-- A whole part that is not zero. -/
  | whole
  /-- Up to its decimal point. -/
  | point
  /-- Some digits after the point. -/
  | fraction
  /-- Up to the mark of its exponent. -/
  | mark
  /-- Up to the sign of its exponent. -/
  | sign
  /-- Some digits of its exponent. -/
  | exponent
deriving DecidableEq

namespace NumberScan

/-- The state after a byte that begins a number. -/
def first? (byte : UInt8) : Option NumberScan :=
  if byte = Byte.minus then some .minus
  else if byte = Byte.zero then some .zero
  else if Byte.isDigit byte then some .whole
  else none

/-- The effect of a byte, unless a number can neither go on with it nor end before it. -/
def step (state : NumberScan) (byte : UInt8) : Option (Scan NumberScan Unit) :=
  match state with
  | .minus =>
    if byte = Byte.zero then some (.more .zero)
    else if Byte.isDigit byte then some (.more .whole)
    else none
  | .zero =>
    if Byte.isDigit byte then none
    else if byte = Byte.point then some (.more .point)
    else if Byte.isExponentMark byte then some (.more .mark)
    else some (.before ())
  | .whole =>
    if Byte.isDigit byte then some (.more .whole)
    else if byte = Byte.point then some (.more .point)
    else if Byte.isExponentMark byte then some (.more .mark)
    else some (.before ())
  | .point => if Byte.isDigit byte then some (.more .fraction) else none
  | .fraction =>
    if Byte.isDigit byte then some (.more .fraction)
    else if Byte.isExponentMark byte then some (.more .mark)
    else some (.before ())
  | .mark =>
    if byte = Byte.plus || byte = Byte.minus then some (.more .sign)
    else if Byte.isDigit byte then some (.more .exponent)
    else none
  | .sign => if Byte.isDigit byte then some (.more .exponent) else none
  | .exponent => if Byte.isDigit byte then some (.more .exponent) else some (.before ())

end NumberScan

/-- Where in a string the next byte stands. -/
inductive TextPhase where
  /-- Among the characters. -/
  | plain
  /-- After a backslash. -/
  | escape
  /-- Among the four digits of an escape. -/
  | digits (read : List UInt8)
  /-- After an escaped leading surrogate, where a backslash is due. -/
  | pair (lead : Nat)
  /-- After that backslash, where a `u` is due. -/
  | pairMark (lead : Nat)
  /-- Among the four digits of the trailing surrogate's escape. -/
  | pairDigits (lead : Nat) (read : List UInt8)

/-- A string whose text is kept: the bytes of the text so far, last one first. -/
structure TextScan where
  phase : TextPhase := .plain
  bytes : List UInt8 := []

namespace TextScan

/-- Adds the character with the given code point. -/
def push (scan : TextScan) (code : Nat) : TextScan :=
  ⟨.plain, (String.utf8EncodeChar (Char.ofNat code)).reverse ++ scan.bytes⟩

/-- Goes on after the four digits of an escape. A trailing surrogate cannot come first. -/
def unit (scan : TextScan) (code : Nat) : Option TextScan :=
  if 0xDC00 ≤ code && code ≤ 0xDFFF then none
  else if 0xD800 ≤ code && code ≤ 0xDBFF then some { scan with phase := .pair code }
  else some (scan.push code)

/-- Goes on after the four digits of the escape after a leading surrogate, which have to give a
    trailing one. -/
def pairUnit (scan : TextScan) (lead code : Nat) : Option TextScan :=
  if 0xDC00 ≤ code && code ≤ 0xDFFF then
    some (scan.push (0x10000 + (lead - 0xD800) * 0x400 + (code - 0xDC00)))
  else none

/-- The text, if its bytes are UTF-8. -/
def text? (scan : TextScan) : Option String :=
  String.fromUTF8? ⟨scan.bytes.reverse.toArray⟩

/-- The effect of a byte of a string, unless it is refused. All four digits of an escape are taken
    before they are looked at, and all bytes of the text before its encoding is. -/
def step (scan : TextScan) (byte : UInt8) : Option (Scan TextScan String) :=
  match scan.phase with
  | .plain =>
    if byte = Byte.quote then scan.text?.map .last
    else if byte = Byte.backslash then some (.more { scan with phase := .escape })
    else if Byte.isControl byte then none
    else some (.more { scan with bytes := byte :: scan.bytes })
  | .escape =>
    if byte = Byte.unitMark then some (.more { scan with phase := .digits [] })
    else (Byte.unescape? byte).map fun byte => .more ⟨.plain, byte :: scan.bytes⟩
  | .digits read =>
    if read.length < 3 then some (.more { scan with phase := .digits (read ++ [byte]) })
    else do
      let code ← Byte.hexNumber? (read ++ [byte])
      return .more (← scan.unit code)
  | .pair lead =>
    if byte = Byte.backslash then some (.more { scan with phase := .pairMark lead }) else none
  | .pairMark lead =>
    if byte = Byte.unitMark then some (.more { scan with phase := .pairDigits lead [] }) else none
  | .pairDigits lead read =>
    if read.length < 3 then
      some (.more { scan with phase := .pairDigits lead (read ++ [byte]) })
    else do
      let code ← Byte.hexNumber? (read ++ [byte])
      return .more (← scan.pairUnit lead code)

end TextScan

end ForwardChaining.Json
