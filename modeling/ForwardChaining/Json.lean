namespace ForwardChaining

/-- A value to be written as JSON. The fields of an object keep their order. -/
inductive Json where
  | null
  | bool (value : Bool)
  | string (text : String)
  | array (items : List Json)
  | object (fields : List (String × Json))

namespace Json

/-- A hexadecimal digit, in lower case. -/
def hexDigit (value : Nat) : Char :=
  if value < 10 then Char.ofNat ('0'.toNat + value) else Char.ofNat ('a'.toNat + (value - 10))

/-- A character as it stands inside a string. Only quotes, backslashes and characters below
    U+0020 are escaped, with the short escape if there is one. -/
def escape (c : Char) : List Char :=
  if c = '"' then ['\\', '"']
  else if c = '\\' then ['\\', '\\']
  else if c = '\x08' then ['\\', 'b']
  else if c = '\x0c' then ['\\', 'f']
  else if c = '\n' then ['\\', 'n']
  else if c = '\r' then ['\\', 'r']
  else if c = '\t' then ['\\', 't']
  else if c.toNat < 0x20 then
    ['\\', 'u', '0', '0', hexDigit (c.toNat / 16), hexDigit (c.toNat % 16)]
  else [c]

/-- A text as a JSON string. -/
def quote (text : String) : String :=
  String.ofList ('"' :: (text.toList.flatMap escape ++ ['"']))

/-- The opening bracket of an object. -/
def openBrace : String := "\x7b"

/-- The closing bracket of an object. -/
def closeBrace : String := "\x7d"

mutual

/-- A value on one line, without blanks. -/
def compact : Json → String
  | .null => "null"
  | .bool value => if value then "true" else "false"
  | .string text => quote text
  | .array items => "[" ++ String.intercalate "," (compactItems items) ++ "]"
  | .object fields =>
    openBrace ++ String.intercalate "," (compactFields fields) ++ closeBrace

/-- Every item on one line. -/
def compactItems : List Json → List String
  | [] => []
  | item :: items => compact item :: compactItems items

/-- Every field on one line. -/
def compactFields : List (String × Json) → List String
  | [] => []
  | (key, value) :: fields => (quote key ++ ":" ++ compact value) :: compactFields fields

end

/-- A line break and the indentation of a depth, two spaces a level. -/
def newline (depth : Nat) : String :=
  "\n" ++ String.ofList (List.replicate (2 * depth) ' ')

/-- Lines in brackets, indented one level more than the brackets. -/
def block (opening closing : String) (depth : Nat) (lines : List String) : String :=
  match lines with
  | [] => opening ++ closing
  | lines =>
    opening ++ newline (depth + 1) ++
      String.intercalate ("," ++ newline (depth + 1)) lines ++ newline depth ++ closing

mutual

/-- A value over several lines, at a depth of indentation. -/
def prettyAt (depth : Nat) : Json → String
  | .null => "null"
  | .bool value => if value then "true" else "false"
  | .string text => quote text
  | .array items => block "[" "]" depth (prettyItems (depth + 1) items)
  | .object fields => block openBrace closeBrace depth (prettyFields (depth + 1) fields)

/-- Every item over several lines. -/
def prettyItems (depth : Nat) : List Json → List String
  | [] => []
  | item :: items => prettyAt depth item :: prettyItems depth items

/-- Every field over several lines. -/
def prettyFields (depth : Nat) : List (String × Json) → List String
  | [] => []
  | (key, value) :: fields =>
    (quote key ++ ": " ++ prettyAt depth value) :: prettyFields depth fields

end

/-- A value over several lines. -/
def pretty (value : Json) : String :=
  prettyAt 0 value

end Json

end ForwardChaining
