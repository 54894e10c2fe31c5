import ForwardChaining.Json.Scanner

namespace ForwardChaining.Json

/-- A string whose text is not kept. Its surrogates need no partners and its bytes may be any. -/
inductive SkipText where
  | plain
  | escape
  | digits (read : List UInt8)

/-- The effect of a byte of a skipped string, unless it is refused. -/
def SkipText.step (state : SkipText) (byte : UInt8) : Option (Scan SkipText Unit) :=
  match state with
  | .plain =>
    if byte = Byte.quote then some (.last ())
    else if byte = Byte.backslash then some (.more .escape)
    else if Byte.isControl byte then none
    else some (.more .plain)
  | .escape =>
    if byte = Byte.unitMark then some (.more (.digits []))
    else (Byte.unescape? byte).map fun _ => .more .plain
  | .digits read =>
    if read.length < 3 then some (.more (.digits (read ++ [byte])))
    else (Byte.hexNumber? (read ++ [byte])).map fun _ => .more .plain

/-- A kind of brackets. -/
inductive Frame where
  | array
  | object
deriving DecidableEq

/-- The kind of brackets that a byte opens. -/
def Frame.ofOpening? (byte : UInt8) : Option Frame :=
  if byte = Byte.openBracket then some .array
  else if byte = Byte.openBrace then some .object
  else none

/-- The byte that closes brackets of a kind. -/
def Frame.closing : Frame → UInt8
  | .array => Byte.closeBracket
  | .object => Byte.closeBrace

/-- Where in a skipped value the next byte stands. -/
inductive SkipPhase where
  /-- A value is due. -/
  | value
  /-- Brackets were just opened. -/
  | opened
  /-- A key is due. -/
  | key
  /-- Inside a key. -/
  | keyText (state : SkipText)
  /-- A colon is due. -/
  | colon
  /-- Inside a string. -/
  | text (state : SkipText)
  /-- Inside a word, with the bytes that are due. -/
  | word (due : List UInt8)
  /-- Inside a number. -/
  | number (state : NumberScan)
  /-- A value has ended inside the innermost brackets. -/
  | ended

/-- A value that is passed over but has to be well formed, to any depth. The frames are the
    brackets that are open, innermost first. -/
structure Skip where
  phase : SkipPhase := .value
  frames : List Frame := []

namespace Skip

/-- The effect of a value's last byte: the whole value has ended if no brackets are open. -/
def afterValue (skip : Skip) : Scan Skip Unit :=
  match skip.frames with
  | [] => .last ()
  | _ => .more { skip with phase := .ended }

/-- The effect of a byte that begins a value. -/
def begin (skip : Skip) (byte : UInt8) : Option (Scan Skip Unit) :=
  if byte = Byte.quote then some (.more { skip with phase := .text .plain })
  else
    match Frame.ofOpening? byte, Byte.wordAfter? byte, NumberScan.first? byte with
    | some frame, _, _ => some (.more ⟨.opened, frame :: skip.frames⟩)
    | _, some due, _ => some (.more { skip with phase := .word due })
    | _, _, some state => some (.more { skip with phase := .number state })
    | none, none, none => none

/-- The effect of a byte after a value inside the innermost brackets. -/
def afterItem (frames : List Frame) (byte : UInt8) : Option (Scan Skip Unit) :=
  match frames with
  | [] => none
  | frame :: outer =>
    if Byte.isSpace byte then some (.more ⟨.ended, frames⟩)
    else if byte = frame.closing then some (afterValue ⟨.ended, outer⟩)
    else if byte = Byte.comma then
      some (.more ⟨if frame = .object then .key else .value, frames⟩)
    else none

/-- The effect of a byte, unless no well formed value goes on with it. -/
def step (skip : Skip) (byte : UInt8) : Option (Scan Skip Unit) :=
  match skip.phase with
  | .value => if Byte.isSpace byte then some (.more skip) else skip.begin byte
  | .opened =>
    match skip.frames with
    | [] => none
    | frame :: outer =>
      if Byte.isSpace byte then some (.more skip)
      else if byte = frame.closing then some (afterValue ⟨.ended, outer⟩)
      else if frame = .array then skip.begin byte
      else if byte = Byte.quote then some (.more { skip with phase := .keyText .plain })
      else none
  | .key =>
    if Byte.isSpace byte then some (.more skip)
    else if byte = Byte.quote then some (.more { skip with phase := .keyText .plain })
    else none
  | .keyText state =>
    (state.step byte).map fun
      | .more state => .more { skip with phase := .keyText state }
      | .last () | .before () => .more { skip with phase := .colon }
  | .colon =>
    if Byte.isSpace byte then some (.more skip)
    else if byte = Byte.colon then some (.more { skip with phase := .value })
    else none
  | .text state =>
    (state.step byte).map fun
      | .more state => .more { skip with phase := .text state }
      | .last () | .before () => skip.afterValue
  | .word due =>
    match due with
    | [] => none
    | next :: due =>
      if byte = next then
        some (if due.isEmpty then skip.afterValue else .more { skip with phase := .word due })
      else none
  | .number state =>
    match state.step byte with
    | none => none
    | some (.more state) => some (.more { skip with phase := .number state })
    | some (.last ()) => some skip.afterValue
    | some (.before ()) =>
      match skip.frames with
      | [] => some (.before ())
      | frames => afterItem frames byte
  | .ended => afterItem skip.frames byte

end Skip

end ForwardChaining.Json
