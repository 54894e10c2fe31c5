import Mathlib.Data.List.Basic
import ForwardChaining.Json.Skip

namespace ForwardChaining.Json

/-- A run of blanks. -/
structure Blanks where
  bytes : List UInt8
  blank : ∀ byte ∈ bytes, Byte.isSpace byte = true

/-- No blanks. -/
def Blanks.none : Blanks := ⟨[], List.forall_mem_nil _⟩

/-- Digits, one at least. -/
def IsDigits (bytes : List UInt8) : Prop :=
  bytes ≠ [] ∧ ∀ byte ∈ bytes, Byte.isDigit byte = true

/-- A number: a whole part without leading zeros, with or without a sign, a fraction and an
    exponent. -/
inductive IsNumber : List UInt8 → Prop where
  | mk {sign whole fraction exponent : List UInt8}
      (hsign : sign = [] ∨ sign = [Byte.minus])
      (hwhole : whole = [Byte.zero] ∨ IsDigits whole ∧ whole.head? ≠ some Byte.zero)
      (hfraction : fraction = [] ∨ ∃ digits, IsDigits digits ∧ fraction = Byte.point :: digits)
      (hexponent : exponent = [] ∨ ∃ mark sign digits, Byte.isExponentMark mark = true ∧
        (sign = [] ∨ sign = [Byte.plus] ∨ sign = [Byte.minus]) ∧ IsDigits digits ∧
        exponent = mark :: (sign ++ digits)) :
      IsNumber (sign ++ whole ++ fraction ++ exponent)

/-- The four hexadecimal digits of a number. -/
def IsUnit (digits : List UInt8) (code : Nat) : Prop :=
  digits.length = 4 ∧ Byte.hexNumber? digits = some code

/-- What stands between the quotes of a string, whether or not it spells a text: any bytes but
    control characters, with escapes. -/
inductive IsBody : List UInt8 → Prop where
  | nil : IsBody []
  | plain {byte : UInt8} {rest : List UInt8} (hquote : byte ≠ Byte.quote)
      (hbackslash : byte ≠ Byte.backslash) (hcontrol : Byte.isControl byte = false)
      (hrest : IsBody rest) : IsBody (byte :: rest)
  | short {letter byte : UInt8} {rest : List UInt8} (hletter : Byte.unescape? letter = some byte)
      (hrest : IsBody rest) : IsBody (Byte.backslash :: letter :: rest)
  | unit {digits rest : List UInt8} {code : Nat} (hunit : IsUnit digits code)
      (hrest : IsBody rest) : IsBody (Byte.backslash :: Byte.unitMark :: (digits ++ rest))

/-- What stands between the quotes of a string that spells the characters: every one of them as it
    is, or escaped. One beyond U+FFFF is escaped as a pair of surrogates. -/
inductive Spells : List UInt8 → List Char → Prop where
  | nil : Spells [] []
  | plain {c : Char} {rest : List UInt8} {chars : List Char} (hquote : c ≠ '"')
      (hbackslash : c ≠ '\\') (hcontrol : 0x20 ≤ c.toNat) (hrest : Spells rest chars) :
      Spells (String.utf8EncodeChar c ++ rest) (c :: chars)
  | short {letter byte : UInt8} {rest : List UInt8} {chars : List Char}
      (hletter : Byte.unescape? letter = some byte) (hrest : Spells rest chars) :
      Spells (Byte.backslash :: letter :: rest) (Char.ofNat byte.toNat :: chars)
  | unit {digits rest : List UInt8} {code : Nat} {chars : List Char} (hunit : IsUnit digits code)
      (hvalid : code < 0xD800 ∨ 0xDFFF < code) (hrest : Spells rest chars) :
      Spells (Byte.backslash :: Byte.unitMark :: (digits ++ rest)) (Char.ofNat code :: chars)
  | pair {digits digits' rest : List UInt8} {lead trail : Nat} {chars : List Char}
      (hlead : IsUnit digits lead) (htrail : IsUnit digits' trail)
      (hleads : 0xD800 ≤ lead ∧ lead ≤ 0xDBFF) (htrails : 0xDC00 ≤ trail ∧ trail ≤ 0xDFFF)
      (hrest : Spells rest chars) :
      Spells (Byte.backslash :: Byte.unitMark :: (digits ++
          Byte.backslash :: Byte.unitMark :: (digits' ++ rest)))
        (Char.ofNat (0x10000 + (lead - 0xD800) * 0x400 + (trail - 0xDC00)) :: chars)

/-- A string with its quotes. -/
def quoted (body : List UInt8) : List UInt8 :=
  Byte.quote :: (body ++ [Byte.quote])

/-- The byte that opens brackets of a kind. -/
def Frame.opening : Frame → UInt8
  | .array => Byte.openBracket
  | .object => Byte.openBrace

/-- What a part of a JSON text is. -/
inductive Shape where
  /-- A value. -/
  | value
  /-- What stands between the commas inside brackets: a value, after a key in an object. -/
  | element (frame : Frame)
  /-- Elements with commas between them, one at least. -/
  | elements (frame : Frame)

/-- Well formed JSON, with blanks wherever they may stand and brackets to any depth. -/
inductive Forms : Shape → List UInt8 → Prop where
  | word {first : UInt8} {due : List UInt8} (hword : Byte.wordAfter? first = some due) :
      Forms .value (first :: due)
  | number {bytes : List UInt8} (hnumber : IsNumber bytes) : Forms .value bytes
  | text {body : List UInt8} (hbody : IsBody body) : Forms .value (quoted body)
  | empty (frame : Frame) (blanks : Blanks) :
      Forms .value (frame.opening :: (blanks.bytes ++ [frame.closing]))
  | brackets {frame : Frame} {bytes : List UInt8} (helements : Forms (.elements frame) bytes) :
      Forms .value (frame.opening :: (bytes ++ [frame.closing]))
  | item {bytes : List UInt8} (hvalue : Forms .value bytes) : Forms (.element .array) bytes
  | field {key value : List UInt8} (hkey : IsBody key) (gap gap' : Blanks)
      (hvalue : Forms .value value) :
      Forms (.element .object)
        (quoted key ++ (gap.bytes ++ Byte.colon :: (gap'.bytes ++ value)))
  | single {frame : Frame} {element : List UInt8} (before : Blanks)
      (helement : Forms (.element frame) element) (after : Blanks) :
      Forms (.elements frame) (before.bytes ++ (element ++ after.bytes))
  | more {frame : Frame} {element rest : List UInt8} (before : Blanks)
      (helement : Forms (.element frame) element) (after : Blanks)
      (hrest : Forms (.elements frame) rest) :
      Forms (.elements frame) (before.bytes ++ (element ++ (after.bytes ++ Byte.comma :: rest)))

/-- A byte that can stand after a value. -/
def IsDelimiter (byte : UInt8) : Prop :=
  Byte.isSpace byte = true ∨ byte = Byte.comma ∨ byte = Byte.closeBracket ∨ byte = Byte.closeBrace

/-- The first byte that is not a blank begins something: it is not one that can stand after a
    value. -/
def Begins (bytes : List UInt8) : Prop :=
  ∃ (before : Blanks) (first : UInt8) (rest : List UInt8),
    bytes = before.bytes ++ first :: rest ∧ ¬ IsDelimiter first

theorem Begins.after_blanks {bytes : List UInt8} (h : Begins bytes) (blanks : Blanks)
    (more : List UInt8) : Begins (blanks.bytes ++ (bytes ++ more)) := by
  obtain ⟨before, first, rest, rfl, hfirst⟩ := h
  refine ⟨⟨blanks.bytes ++ before.bytes, ?_⟩, first, rest ++ more, by simp, hfirst⟩
  exact List.forall_mem_append.mpr ⟨blanks.blank, before.blank⟩

namespace IsDelimiter

variable {byte : UInt8} (h : IsDelimiter byte)
include h

theorem cases : byte = 0x20 ∨ byte = 0x09 ∨ byte = 0x0A ∨ byte = 0x0D ∨ byte = Byte.comma ∨
    byte = Byte.closeBracket ∨ byte = Byte.closeBrace := by
  simpa [IsDelimiter, Byte.isSpace, or_assoc] using h

theorem isDigit : Byte.isDigit byte = false := by
  rcases h.cases with rfl | rfl | rfl | rfl | rfl | rfl | rfl <;> decide

theorem ne_point : byte ≠ Byte.point := by
  rcases h.cases with rfl | rfl | rfl | rfl | rfl | rfl | rfl <;> decide

theorem isExponentMark : Byte.isExponentMark byte = false := by
  rcases h.cases with rfl | rfl | rfl | rfl | rfl | rfl | rfl <;> decide

end IsDelimiter

theorem isSpace_of_not_isDelimiter {byte : UInt8} (h : ¬ IsDelimiter byte) :
    Byte.isSpace byte = false :=
  Bool.eq_false_iff.mpr fun hspace => h (.inl hspace)

theorem not_isDelimiter_of_isDigit {byte : UInt8} (hdigit : Byte.isDigit byte = true) :
    ¬ IsDelimiter byte := by
  intro h
  rw [h.isDigit] at hdigit
  cases hdigit

instance (byte : UInt8) : Decidable (IsDelimiter byte) :=
  inferInstanceAs (Decidable (_ ∨ _))

/-- A scanner takes all of the bytes, the last one included, and wants more. -/
inductive Takes {σ α : Type} (step : σ → UInt8 → Option (Scan σ α)) :
    σ → List UInt8 → σ → Prop where
  | nil (state : σ) : Takes step state [] state
  | cons {state next final : σ} {byte : UInt8} {rest : List UInt8}
      (hstep : step state byte = some (.more next)) (hrest : Takes step next rest final) :
      Takes step state (byte :: rest) final

theorem Takes.append {σ α : Type} {step : σ → UInt8 → Option (Scan σ α)} {state next final : σ}
    {bytes more : List UInt8} (h : Takes step state bytes next)
    (hmore : Takes step next more final) : Takes step state (bytes ++ more) final := by
  induction h with
  | nil => exact hmore
  | cons hstep _ ih => exact .cons hstep (ih hmore)

/-- A scanner refuses one of the bytes, once it has taken those before it. -/
def Refuses {σ α : Type} (step : σ → UInt8 → Option (Scan σ α)) (state : σ) (bytes : List UInt8) :
    Prop :=
  ∃ taken byte rest next, bytes = taken ++ byte :: rest ∧ Takes step state taken next ∧
    step next byte = none

theorem Refuses.after {σ α : Type} {step : σ → UInt8 → Option (Scan σ α)} {state next : σ}
    {bytes more : List UInt8} (h : Refuses step next more) (htakes : Takes step state bytes next) :
    Refuses step state (bytes ++ more) := by
  obtain ⟨taken, byte, rest, final, rfl, hmore, hnone⟩ := h
  exact ⟨bytes ++ taken, byte, rest, final, (List.append_assoc ..).symm, htakes.append hmore, hnone⟩

namespace NumberScan

/-- A number may end here. -/
def MayEnd : NumberScan → Prop
  | .zero | .whole | .fraction | .exponent => True
  | .minus | .point | .mark | .sign => False

theorem MayEnd.step_of_isDelimiter {scan : NumberScan} (h : scan.MayEnd) {byte : UInt8}
    (hbyte : IsDelimiter byte) : scan.step byte = some (.before ()) := by
  cases scan with
  | zero | whole | fraction | exponent =>
    simp [step, hbyte.isDigit, hbyte.ne_point, hbyte.isExponentMark]
  | minus | point | mark | sign => cases h

/-- In the middle of digits, more digits change nothing. -/
theorem takes_digits {scan : NumberScan}
    (hscan : scan = .whole ∨ scan = .fraction ∨ scan = .exponent) {digits : List UInt8}
    (hdigits : ∀ byte ∈ digits, Byte.isDigit byte = true) : Takes step scan digits scan := by
  induction digits with
  | nil => exact .nil scan
  | cons digit rest ih =>
    obtain ⟨hdigit, hrest⟩ := List.forall_mem_cons.mp hdigits
    refine .cons ?_ (ih hrest)
    rcases hscan with rfl | rfl | rfl <;> simp [step, hdigit]

/-- The whole part of a number, at its beginning or after a sign. -/
theorem takes_whole {whole : List UInt8}
    (hwhole : whole = [Byte.zero] ∨ IsDigits whole ∧ whole.head? ≠ some Byte.zero) :
    ∃ first rest scan, whole = first :: rest ∧ Byte.isDigit first = true ∧
      first? first = some scan ∧ NumberScan.minus.step first = some (.more scan) ∧
      Takes step scan rest scan ∧ (scan = .zero ∨ scan = .whole) := by
  rcases hwhole with rfl | ⟨⟨hne, hdigits⟩, hzero⟩
  · exact ⟨Byte.zero, [], .zero, rfl, by decide, by decide, rfl, .nil _, .inl rfl⟩
  · obtain ⟨first, rest, rfl⟩ := List.exists_cons_of_ne_nil hne
    obtain ⟨hfirst, hrest⟩ := List.forall_mem_cons.mp hdigits
    have hzero : first ≠ Byte.zero := by simpa using hzero
    have hminus : first ≠ Byte.minus := by
      rintro rfl
      cases hfirst
    refine ⟨first, rest, .whole, rfl, hfirst, ?_, ?_, takes_digits (.inl rfl) hrest, .inr rfl⟩
    · simp [first?, hminus, hzero, hfirst]
    · simp [step, hzero, hfirst]

theorem takes_fraction {fraction : List UInt8}
    (hfraction : fraction = [] ∨ ∃ digits, IsDigits digits ∧ fraction = Byte.point :: digits)
    {scan : NumberScan} (hscan : scan = .zero ∨ scan = .whole) :
    ∃ next, Takes step scan fraction next ∧ (next = .zero ∨ next = .whole ∨ next = .fraction) := by
  rcases hfraction with rfl | ⟨digits, ⟨hne, hdigits⟩, rfl⟩
  · exact ⟨scan, .nil scan, hscan.imp_right .inl⟩
  · obtain ⟨first, rest, rfl⟩ := List.exists_cons_of_ne_nil hne
    obtain ⟨hfirst, hrest⟩ := List.forall_mem_cons.mp hdigits
    have hpoint : scan.step Byte.point = some (.more .point) := by
      rcases hscan with rfl | rfl <;> rfl
    have hdigit : NumberScan.point.step first = some (.more .fraction) := by simp [step, hfirst]
    exact ⟨.fraction, .cons hpoint (.cons hdigit (takes_digits (.inr (.inl rfl)) hrest)),
      .inr (.inr rfl)⟩

theorem takes_exponent {exponent : List UInt8}
    (hexponent : exponent = [] ∨ ∃ mark sign digits, Byte.isExponentMark mark = true ∧
      (sign = [] ∨ sign = [Byte.plus] ∨ sign = [Byte.minus]) ∧ IsDigits digits ∧
      exponent = mark :: (sign ++ digits))
    {scan : NumberScan} (hscan : scan = .zero ∨ scan = .whole ∨ scan = .fraction) :
    ∃ final, Takes step scan exponent final ∧ final.MayEnd := by
  rcases hexponent with rfl | ⟨mark, sign, digits, hmark, hsign, ⟨hne, hdigits⟩, rfl⟩
  · exact ⟨scan, .nil scan, by rcases hscan with rfl | rfl | rfl <;> trivial⟩
  · obtain ⟨first, rest, rfl⟩ := List.exists_cons_of_ne_nil hne
    obtain ⟨hfirst, hrest⟩ := List.forall_mem_cons.mp hdigits
    have hmarked : scan.step mark = some (.more .mark) := by
      have heq : mark = 0x65 ∨ mark = 0x45 := by simpa [Byte.isExponentMark] using hmark
      rcases hscan with rfl | rfl | rfl <;> rcases heq with rfl | rfl <;> rfl
    have hsigned : ∃ next, Takes step .mark sign next ∧
        next.step first = some (.more .exponent) := by
      rcases hsign with rfl | rfl | rfl
      · refine ⟨.mark, .nil _, ?_⟩
        have hplus : first ≠ Byte.plus := by
          rintro rfl
          cases hfirst
        have hminus : first ≠ Byte.minus := by
          rintro rfl
          cases hfirst
        simp [step, hfirst, hplus, hminus]
      · exact ⟨.sign, .cons rfl (.nil _), by simp [step, hfirst]⟩
      · exact ⟨.sign, .cons rfl (.nil _), by simp [step, hfirst]⟩
    obtain ⟨next, hnext, hdigit⟩ := hsigned
    have hall : Takes step next (first :: rest) .exponent :=
      .cons hdigit (takes_digits (.inr (.inr rfl)) hrest)
    exact ⟨.exponent, .cons hmarked (hnext.append hall), trivial⟩

end NumberScan

/-- A number is scanned from its first byte to its last. -/
theorem IsNumber.scanned {bytes : List UInt8} (h : IsNumber bytes) :
    ∃ first rest scan final, bytes = first :: rest ∧ ¬ IsDelimiter first ∧
      NumberScan.first? first = some scan ∧ Takes NumberScan.step scan rest final ∧
      final.MayEnd := by
  obtain ⟨hsign, hwhole, hfraction, hexponent⟩ := h
  rename_i sign whole fraction exponent
  obtain ⟨first, rest, scan, rfl, hdigit, hfirst, hminus, hrest, hscan⟩ :=
    NumberScan.takes_whole hwhole
  obtain ⟨next, hnext, hends⟩ := NumberScan.takes_fraction hfraction hscan
  obtain ⟨final, hfinal, hend⟩ := NumberScan.takes_exponent hexponent hends
  have hall : Takes NumberScan.step scan (rest ++ fraction ++ exponent) final :=
    (hrest.append hnext).append hfinal
  rcases hsign with rfl | rfl
  · exact ⟨first, rest ++ fraction ++ exponent, scan, final, rfl,
      not_isDelimiter_of_isDigit hdigit, hfirst, hall, hend⟩
  · exact ⟨Byte.minus, first :: (rest ++ fraction ++ exponent), .minus, final, rfl, by decide,
      by decide, .cons hminus hall, hend⟩

theorem not_isDelimiter_of_wordAfter? {first : UInt8} {due : List UInt8}
    (hword : Byte.wordAfter? first = some due) : ¬ IsDelimiter first := by
  intro hdelimiter
  rcases hdelimiter.cases with rfl | rfl | rfl | rfl | rfl | rfl | rfl <;> cases hword

theorem not_isDelimiter_opening (frame : Frame) : ¬ IsDelimiter frame.opening := by
  cases frame <;> decide

/-- All of JSON begins with a byte that cannot stand after a value. -/
theorem Forms.begins {shape : Shape} {bytes : List UInt8} (h : Forms shape bytes) :
    Begins bytes := by
  induction h with
  | word hword => exact ⟨.none, _, _, rfl, not_isDelimiter_of_wordAfter? hword⟩
  | number hnumber =>
    obtain ⟨first, rest, _, _, rfl, hfirst, _⟩ := hnumber.scanned
    exact ⟨.none, first, rest, rfl, hfirst⟩
  | text hbody => exact ⟨.none, Byte.quote, _, rfl, by decide⟩
  | empty frame blanks => exact ⟨.none, _, _, rfl, not_isDelimiter_opening frame⟩
  | @brackets frame bytes helements ih => exact ⟨.none, _, _, rfl, not_isDelimiter_opening frame⟩
  | item hvalue ih => exact ih
  | field hkey gap gap' hvalue ih => exact ⟨.none, Byte.quote, _, rfl, by decide⟩
  | single before helement after ih => exact ih.after_blanks before _
  | more before helement after hrest ih _ => exact ih.after_blanks before _

/-- The first byte of a value tells strings and lists from other values. -/
theorem Forms.first {bytes : List UInt8} (h : Forms .value bytes) :
    ∃ first rest, bytes = first :: rest ∧ ¬ IsDelimiter first ∧
      (first = Byte.quote → ∃ body, IsBody body ∧ rest = body ++ [Byte.quote]) ∧
      (first = Byte.openBracket →
        (∃ blanks : Blanks, rest = blanks.bytes ++ [Byte.closeBracket]) ∨
          ∃ elements, Forms (.elements .array) elements ∧
            rest = elements ++ [Byte.closeBracket]) := by
  cases h with
  | @word first due hword =>
    refine ⟨first, due, rfl, not_isDelimiter_of_wordAfter? hword, ?_, ?_⟩
    all_goals
      rintro rfl
      cases hword
  | number hnumber =>
    obtain ⟨first, rest, scan, _, rfl, hfirst, hscan, _⟩ := hnumber.scanned
    refine ⟨first, rest, rfl, hfirst, ?_, ?_⟩
    all_goals
      rintro rfl
      cases hscan
  | @text body hbody =>
    exact ⟨Byte.quote, _, rfl, by decide, fun _ => ⟨body, hbody, rfl⟩, nofun⟩
  | empty frame blanks =>
    cases frame with
    | array => exact ⟨_, _, rfl, by decide, nofun, fun _ => .inl ⟨blanks, rfl⟩⟩
    | object => exact ⟨_, _, rfl, by decide, nofun, nofun⟩
  | @brackets frame bytes helements =>
    cases frame with
    | array => exact ⟨_, _, rfl, by decide, nofun, fun _ => .inr ⟨bytes, helements, rfl⟩⟩
    | object => exact ⟨_, _, rfl, by decide, nofun, nofun⟩

end ForwardChaining.Json
