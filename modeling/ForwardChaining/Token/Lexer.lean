import ForwardChaining.ReadError
import ForwardChaining.Text.Alphanumeric
import ForwardChaining.Text.Blank
import ForwardChaining.Token

namespace ForwardChaining.Token

/-- The tokens of a text whose first character stands at the given position. Blanks are passed
    over, a glyph is a token, and a longest run of alphanumeric characters is an atom. The first
    character of any other kind is an error. -/
def scan (position : Nat) : List Char → Except ReadError (List Token)
  | [] => .ok []
  | c :: rest =>
    if Text.isBlank c then
      scan (position + 1) rest
    else
      match ofGlyph? c with
      | some token => (scan (position + 1) rest).map (token :: ·)
      | none =>
        if Text.isAlphanumeric c then
          let run := rest.takeWhile Text.isAlphanumeric
          (scan (position + 1 + run.length) (rest.dropWhile Text.isAlphanumeric)).map
            (.atom (String.ofList (c :: run)) :: ·)
        else
          .error (.unexpectedCharacter c position)
termination_by chars => chars.length
decreasing_by
  · simp
  · simp
  · have := (List.dropWhile_suffix Text.isAlphanumeric (l := rest)).length_le
    simp only [List.length_cons]
    omega

/-- The tokens of a text. -/
def tokenize (text : String) : Except ReadError (List Token) :=
  scan 0 text.toList

end ForwardChaining.Token
