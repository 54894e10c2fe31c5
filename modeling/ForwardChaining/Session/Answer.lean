import ForwardChaining.Session

namespace ForwardChaining.Session

/-- The verdict on an answer. An answer that is not a literal is noted. -/
def answer (session : Session) (answer : String) : Verdict × Session :=
  let text := Text.trim answer
  let session := session.record (Log.ofFormula text)
  match Literal.parse text with
  | .ok literal =>
    let verdict := Verdict.ofFacts session.facts literal
    (verdict, session.record [⟨.info, .answer, s!"{literal.render}: {verdict.name}"⟩])
  | .error error =>
    (.undefined,
      (session.record [⟨.info, .answer, s!"Invalid answer '{text}': {error.message}"⟩]).note
        (.invalidAnswer text error))

/-- The verdict on an answer, which leaves the trace alone. -/
def reportOn (session : Session) (answer : String) : Verdict × Session :=
  let text := Text.trim answer
  let verdict :=
    match Literal.parse text with
    | .ok literal => Verdict.ofFacts session.facts literal
    | .error _ => .undefined
  (verdict, session.record (Log.ofFormula text))

end ForwardChaining.Session
