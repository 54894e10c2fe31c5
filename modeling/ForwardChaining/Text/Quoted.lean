import ForwardChaining.Text.Unprintable

namespace ForwardChaining.Text

/-- A character as it stands inside a quoted text. Double quotes and backslashes have a backslash
    before them, and what does not show is written by name or by its code point. -/
def escape (c : Char) : String :=
  if c = '\x00' then "\\0"
  else if c = '\t' then "\\t"
  else if c = '\r' then "\\r"
  else if c = '\n' then "\\n"
  else if c = '"' || c = '\\' then String.ofList ['\\', c]
  else if isUnprintable c then "\\u\x7b" ++ String.ofList (Nat.toDigits 16 c.toNat) ++ "\x7d"
  else String.ofList [c]

/-- A text in double quotes, on one line whatever it holds. -/
def quoted (text : String) : String :=
  "\"" ++ String.join (text.toList.map escape) ++ "\""

end ForwardChaining.Text
