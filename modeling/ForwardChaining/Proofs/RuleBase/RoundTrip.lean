import ForwardChaining.Proofs.RuleBase.Members

namespace ForwardChaining

namespace Json

/-- A text between the quotes of a string, with the escapes it is written with. -/
def body (text : String) : List UInt8 :=
  (text.toList.flatMap escape).flatMap String.utf8EncodeChar

theorem isUnit_control {code : Nat} (h : code < 0x20) :
    IsUnit (['0', '0', hexDigit (code / 16), hexDigit (code % 16)].flatMap String.utf8EncodeChar)
      code := by
  have hall : ∀ code < 0x20,
      Byte.hexNumber? (['0', '0', hexDigit (code / 16), hexDigit (code % 16)].flatMap
        String.utf8EncodeChar) = some code := by decide +kernel
  have hlength : ∀ code < 0x20,
      (['0', '0', hexDigit (code / 16), hexDigit (code % 16)].flatMap
        String.utf8EncodeChar).length = 4 := by decide +kernel
  exact ⟨hlength code h, hall code h⟩

/-- The characters with a short escape, with the byte that stands for them after the backslash and
    the byte that they are. -/
def shortEscapes : List (Char × UInt8 × UInt8) :=
  [('"', 0x22, 0x22), ('\\', 0x5C, 0x5C), ('\x08', 0x62, 0x08), ('\x0c', 0x66, 0x0C),
    ('\n', 0x6E, 0x0A), ('\r', 0x72, 0x0D), ('\t', 0x74, 0x09)]

theorem escape_of_mem_shortEscapes : ∀ entry ∈ shortEscapes,
    Byte.unescape? entry.2.1 = some entry.2.2 ∧ Char.ofNat entry.2.2.toNat = entry.1 ∧
      (escape entry.1).flatMap String.utf8EncodeChar = [Byte.backslash, entry.2.1] := by
  decide +kernel

theorem escape_of_not_short {c : Char} (h : c ∉ shortEscapes.map Prod.fst) :
    escape c = if c.toNat < 0x20 then
        ['\\', 'u', '0', '0', hexDigit (c.toNat / 16), hexDigit (c.toNat % 16)]
      else [c] := by
  simp only [shortEscapes, List.map_cons, List.map_nil, List.mem_cons, List.not_mem_nil,
    not_or] at h
  simp [escape, h]

/-- Every character is spelt by what it is written as. -/
theorem spells_escape (c : Char) {rest : List UInt8} {chars : List Char}
    (hrest : Spells rest chars) :
    Spells ((escape c).flatMap String.utf8EncodeChar ++ rest) (c :: chars) := by
  by_cases hshort : c ∈ shortEscapes.map Prod.fst
  · obtain ⟨entry, hentry, rfl⟩ := List.mem_map.mp hshort
    obtain ⟨hletter, hchar, hescape⟩ := escape_of_mem_shortEscapes entry hentry
    have hspells := Spells.short hletter hrest
    rw [hchar] at hspells
    rwa [hescape]
  · rw [escape_of_not_short hshort]
    split
    · rename_i hcontrol
      have hspells := Spells.unit (isUnit_control hcontrol) (.inl (by omega)) hrest
      rwa [Char.ofNat_toNat] at hspells
    · rename_i hcontrol
      have hne : ∀ special ∈ shortEscapes.map Prod.fst, c ≠ special := by
        rintro special hspecial rfl
        exact hshort hspecial
      rw [List.flatMap_singleton]
      exact .plain (hne '"' (by decide)) (hne '\\' (by decide)) (by omega) hrest

theorem spells_body (text : String) : Spells (body text) text.toList := by
  unfold body
  induction text.toList with
  | nil => exact .nil
  | cons c rest ih =>
    rw [List.flatMap_cons, List.flatMap_append]
    exact spells_escape c ih

theorem utf8_quote (text : String) : utf8 (quote text) = quoted (body text) := by
  rw [quote, utf8_ofList, List.flatMap_cons, List.flatMap_append]
  rfl

theorem utf8_commas (texts : List String) :
    utf8 (String.intercalate "," texts) = [Byte.comma].intercalate (texts.map utf8) := by
  induction texts with
  | nil => rfl
  | cons text rest ih =>
    cases rest with
    | nil => simp
    | cons next rest =>
      rw [String.intercalate_cons_cons, utf8_append, utf8_append, ih]
      exact List.intercalate_cons_cons.symm

theorem compactItems_strings (texts : List String) :
    compactItems (texts.map .string) = texts.map quote := by
  induction texts with
  | nil => rfl
  | cons text rest ih => rw [List.map_cons, compactItems, compact, ih, List.map_cons]

theorem spellsItems_commas (text : String) (rest : List String) :
    SpellsItems ([Byte.comma].intercalate ((text :: rest).map (utf8 ∘ quote))) (text :: rest) := by
  induction rest generalizing text with
  | nil =>
    have hspells := SpellsItems.single .none (spells_body text) .none
    simpa [Blanks.none, utf8_quote] using hspells
  | cons next rest ih =>
    have hspells := SpellsItems.more .none (spells_body text) .none (ih next)
    simpa [Blanks.none, utf8_quote, List.intercalate_cons_cons] using hspells

theorem spellsList_compact (texts : List String) :
    SpellsList (utf8 (compact (.array (texts.map .string)))) texts := by
  have hbytes : utf8 (compact (.array (texts.map .string))) = Byte.openBracket ::
      ([Byte.comma].intercalate (texts.map (utf8 ∘ quote)) ++ [Byte.closeBracket]) := by
    rw [compact, compactItems_strings, utf8_append, utf8_append, utf8_commas, List.map_map]
    rfl
  rw [hbytes]
  cases texts with
  | nil => exact .empty .none
  | cons text rest => exact .items (spellsItems_commas text rest)

theorem spellsText_compact (text : String) : SpellsText (utf8 (compact (.string text))) text := by
  refine ⟨body text, ?_, spells_body text⟩
  rw [compact, utf8_quote]

end Json

namespace RuleBase

open Json

theorem writes_compact (ruleBase : RuleBase) (field : Field) :
    ruleBase.Writes (utf8 (ruleBase.fieldValue field).compact) field := by
  rcases field with (_ | _) | _
  · exact spellsList_compact ruleBase.statements
  · exact spellsList_compact ruleBase.entries
  · exact spellsText_compact ruleBase.answer

/-- A field of a rule base as it is written without blanks. -/
def compactMember (ruleBase : RuleBase) (field : Field) : Member where
  before := .none
  key := field.key
  spelling := body field.key
  spells := spells_body field.key
  beforeColon := .none
  afterColon := .none
  value := utf8 (ruleBase.fieldValue field).compact
  formed := (ruleBase.writes_compact field).forms
  after := .none

/-- A rule base as it is written without blanks. -/
def compactObject (ruleBase : RuleBase) : ObjectText :=
  ⟨.none, .none, Field.all.map ruleBase.compactMember, .none⟩

theorem compactFields_map (ruleBase : RuleBase) (fields : List Field) :
    (compactFields (fields.map fun field => (field.key, ruleBase.fieldValue field))).map utf8 =
      (fields.map ruleBase.compactMember).map Member.bytes := by
  induction fields with
  | nil => rfl
  | cons field rest ih =>
    have hmember : utf8 (quote field.key ++ ":" ++ compact (ruleBase.fieldValue field)) =
        (ruleBase.compactMember field).bytes := by
      rw [utf8_append, utf8_append, utf8_quote]
      simp only [Member.bytes, compactMember, Blanks.none, List.nil_append, List.append_nil,
        List.append_assoc]
      rfl
    rw [List.map_cons, compactFields, List.map_cons, hmember, ih]
    rfl

theorem bytes_compactObject (ruleBase : RuleBase) :
    ruleBase.compactObject.bytes = utf8 ruleBase.toJson.compact := by
  rw [toJson, compact, utf8_append, utf8_append, utf8_commas, compactFields_map]
  rfl

theorem holds_compactObject (ruleBase : RuleBase) : ruleBase.compactObject.Holds ruleBase where
  written := by
    intro member hmember field hkey
    obtain ⟨other, _, rfl⟩ := List.mem_map.mp hmember
    obtain rfl : other = field := Field.key_eq_iff.mp hkey
    exact ruleBase.writes_compact other
  once := by
    intro field
    change (Field.all.map ruleBase.compactMember).countP _ ≤ 1
    rw [List.countP_map]
    change Field.all.countP (fun other => other.key = field.key) ≤ 1
    rcases field with (_ | _) | _ <;> decide
  default := by
    intro field habsent
    have hmem : field ∈ Field.all := by rcases field with (_ | _) | _ <;> decide
    exact absurd rfl (habsent _ (List.mem_map_of_mem hmem))

/-- A rule base is read back from the text it is written as. More generally it is read from every
    object that holds it, with its fields in any order, with further fields and with blanks, and no
    rule base is read from an object in which one of the fields comes again. -/
theorem ofJson_compact (ruleBase : RuleBase) :
    ofJson ruleBase.toJson.compact = .ok ruleBase ∧
    read ⟨ruleBase.toJson.compact.toUTF8.data.toList, none⟩ = .ok ruleBase ∧
    (∀ object : ObjectText, object.Holds ruleBase →
      read ⟨object.bytes, none⟩ = .ok ruleBase ∧
        ∀ text : String, text.toUTF8.data.toList = object.bytes → ofJson text = .ok ruleBase) ∧
    ∀ (object : ObjectText) (field : Field),
      2 ≤ object.members.countP (·.key = field.key) →
      read ⟨object.bytes, none⟩ = .error .malformed ∧
        ∀ text : String, text.toUTF8.data.toList = object.bytes →
          ofJson text = .error .malformed := by
  have hread : read ⟨ruleBase.toJson.compact.toUTF8.data.toList, none⟩ = .ok ruleBase := by
    have hholds := ruleBase.holds_compactObject.read_eq
    rwa [bytes_compactObject] at hholds
  refine ⟨hread, hread, ?_, ?_⟩
  · intro object hholds
    refine ⟨hholds.read_eq, fun text htext => ?_⟩
    rw [ofJson, htext]
    exact hholds.read_eq
  · intro object field hrepeated
    refine ⟨read_of_repeated hrepeated, fun text htext => ?_⟩
    rw [ofJson, htext]
    exact read_of_repeated hrepeated

/-- Two of the fields are left out, a further one comes first, and there are blanks. Then the answer
    is given twice. -/
theorem ofJson_compact_spaced :
    ofJson "\x7b\"more\":[null], \"rule_representation\":[\"A\\n\"] \x7d" =
        .ok { entries := ["A\n"] } ∧
      ofJson "\x7b\"answer_logical_statement\":\"A\",\"answer_logical_statement\":\"B\"\x7d" =
        .error .malformed := by
  let ruleBase : RuleBase := { entries := ["A\n"] }
  let space : Blanks := ⟨[0x20], List.forall_mem_singleton.mpr rfl⟩
  let other : Member := ⟨.none, "more", body "more", spells_body "more", .none, .none, _,
    .brackets (.single .none (.item (@Forms.word 0x6E _ rfl)) .none), .none⟩
  let entries : Member :=
    { ruleBase.compactMember (.list .entries) with before := space, after := space }
  have hholds : (ObjectText.mk .none .none [other, entries] .none).Holds ruleBase := by
    refine ⟨?_, ?_, ?_⟩
    · intro member hmember field hkey
      rcases List.mem_pair.mp hmember with rfl | rfl
      · rcases field with (_ | _) | _ <;> exact absurd hkey (by decide)
      · obtain rfl : Field.list .entries = field := Field.key_eq_iff.mp hkey
        exact ruleBase.writes_compact _
    · intro field
      rcases field with (_ | _) | _ <;> decide
    · intro field habsent
      rcases field with (_ | _) | _
      · rfl
      · exact absurd rfl (habsent entries (by simp))
      · rfl
  let first := compactMember { answer := "A" } .answer
  let second := compactMember { answer := "B" } .answer
  obtain ⟨_, _, hread, hrefused⟩ := ofJson_compact ruleBase
  exact ⟨(hread _ hholds).2 _ (by decide +kernel),
    (hrefused ⟨.none, .none, [first, second], .none⟩ .answer (by decide +kernel)).2 _
      (by decide +kernel)⟩

end RuleBase

end ForwardChaining
