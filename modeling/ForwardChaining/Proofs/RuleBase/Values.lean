import ForwardChaining.Proofs.RuleBase.Skipping

namespace ForwardChaining

namespace Json

/-- Strings that spell the texts, with commas between them. -/
inductive SpellsItems : List UInt8 → List String → Prop where
  | single {body : List UInt8} {text : String} (before : Blanks) (hspells : Spells body text.toList)
      (after : Blanks) : SpellsItems (before.bytes ++ (quoted body ++ after.bytes)) [text]
  | more {body rest : List UInt8} {text : String} {texts : List String} (before : Blanks)
      (hspells : Spells body text.toList) (after : Blanks) (hrest : SpellsItems rest texts) :
      SpellsItems (before.bytes ++ (quoted body ++ (after.bytes ++ Byte.comma :: rest)))
        (text :: texts)

/-- A list of strings that spells the texts. -/
inductive SpellsList : List UInt8 → List String → Prop where
  | empty (blanks : Blanks) :
      SpellsList (Byte.openBracket :: (blanks.bytes ++ [Byte.closeBracket])) []
  | items {bytes : List UInt8} {texts : List String} (hitems : SpellsItems bytes texts) :
      SpellsList (Byte.openBracket :: (bytes ++ [Byte.closeBracket])) texts

/-- A string that spells the text. -/
def SpellsText (bytes : List UInt8) (text : String) : Prop :=
  ∃ body, bytes = quoted body ∧ Spells body text.toList

theorem SpellsItems.forms {bytes : List UInt8} {texts : List String} (h : SpellsItems bytes texts) :
    Forms (.elements .array) bytes := by
  induction h with
  | single before hspells after => exact .single before (.item (.text hspells.isBody)) after
  | more before hspells after _ ih => exact .more before (.item (.text hspells.isBody)) after ih

theorem SpellsList.forms {bytes : List UInt8} {texts : List String} (h : SpellsList bytes texts) :
    Forms .value bytes := by
  cases h with
  | empty blanks => exact .empty .array blanks
  | items hitems => exact @Forms.brackets .array _ hitems.forms

end Json

namespace RuleBase

open Json

/-- The bytes are the value of a field of the rule base. -/
def Writes (ruleBase : RuleBase) (bytes : List UInt8) : Field → Prop
  | .list .statements => SpellsList bytes ruleBase.statements
  | .list .entries => SpellsList bytes ruleBase.entries
  | .answer => SpellsText bytes ruleBase.answer

theorem Writes.forms {ruleBase : RuleBase} {bytes : List UInt8} {field : Field}
    (h : ruleBase.Writes bytes field) : Forms .value bytes := by
  rcases field with (_ | _) | _
  · exact SpellsList.forms h
  · exact SpellsList.forms h
  · obtain ⟨body, rfl, hspells⟩ := h
    exact .text hspells.isBody

namespace Draft

/-- All that has been read is as in the rule base. -/
structure Agrees (draft : Draft) (ruleBase : RuleBase) : Prop where
  statements : ∀ items ∈ draft.statements?, items = ruleBase.statements
  entries : ∀ items ∈ draft.entries?, items = ruleBase.entries
  answer : ∀ text ∈ draft.answer?, text = ruleBase.answer

@[simp] theorem has_putItems (draft : Draft) (items : List String) (field : ListField)
    (other : Field) :
    (draft.putItems items field).has other = (draft.has other || other = .list field) := by
  rcases other with (_ | _) | _ <;> cases field <;> simp [putItems, has]

@[simp] theorem has_putAnswer (draft : Draft) (text : String) (other : Field) :
    ({ draft with answer? := some text } : Draft).has other =
      (draft.has other || other = .answer) := by
  rcases other with (_ | _) | _ <;> simp [has]

end Draft

namespace Progress

variable {draft : Draft} {place : Place} {bytes : List UInt8}

theorem Hosts.run_spelling {wrap : TextScan → Progress} {finish : String → Option Progress}
    (h : Hosts TextScan.step wrap finish) {body : List UInt8} {text : String}
    (hspells : Spells body text.toList) (more : List UInt8) :
    (wrap {}).run (body ++ Byte.quote :: more) = (finish text).bind (·.run more) := by
  have hlast := TextScan.step_quote text.toList
  rw [String.ofList_toList] at hlast
  rw [h.run_of_takes (hspells.takes []), List.append_nil, run_cons, h.step_of_last hlast]

theorem Hosts.run_body {wrap : TextScan → Progress} {finish : String → Option Progress}
    (h : Hosts TextScan.step wrap finish) {body : List UInt8} (hbody : IsBody body)
    (more : List UInt8) :
    (wrap {}).run (body ++ Byte.quote :: more) = none ∨
      ∃ text, (wrap {}).run (body ++ Byte.quote :: more) = (finish text).bind (·.run more) := by
  rcases @IsBody.takes_or_refuses body hbody {} (.inl rfl) with hrefuses | ⟨final, hfinal, htakes⟩
  · exact .inl (h.run_of_refuses hrefuses _)
  · rw [h.run_of_takes htakes, run_cons]
    rcases hfinal.step_quote with hnone | ⟨text, hlast⟩
    · left
      rw [h, hnone]
      rfl
    · exact .inr ⟨text, by rw [h.step_of_last hlast]⟩

/-- Nothing but a closing bracket is taken otherwise after an opening one than after a comma. -/
theorem run_listOpened_of_begins (h : Begins bytes) (field : ListField) (more : List UInt8) :
    (listOpened draft place field).run (bytes ++ more) =
      (item draft place field []).run (bytes ++ more) := by
  obtain ⟨before, first, rest, rfl, hfirst⟩ := h
  have hclosing : first ≠ Byte.closeBracket := by
    rintro rfl
    exact hfirst (by decide)
  rw [List.append_assoc, run_blanks rfl, run_blanks rfl,
    List.cons_append, run_cons, run_cons]
  simp [step, isSpace_of_not_isDelimiter hfirst, hclosing]

theorem run_item_spelling {body : List UInt8} {text : String} (hspells : Spells body text.toList)
    (field : ListField) (items : List String) (before after : Blanks) (more : List UInt8) :
    (item draft place field items).run
        (before.bytes ++ (quoted body ++ (after.bytes ++ more))) =
      (itemEnded draft place field (items ++ [text])).run more := by
  have hopen : (item draft place field items).step Byte.quote =
      some (.itemText draft place field items {}) := rfl
  simp only [quoted, List.cons_append, List.append_assoc, List.nil_append]
  rw [run_blanks rfl, run_cons_of hopen,
    (hosts_itemText draft place field items).run_spelling hspells]
  exact run_blanks rfl after more

theorem run_items {texts : List String} (h : SpellsItems bytes texts) (field : ListField)
    (items : List String) :
    (item draft place field items).run (bytes ++ [Byte.closeBracket]) =
      some (.ended (draft.putItems (items ++ texts) field) place) := by
  induction h generalizing items with
  | single before hspells after =>
    simp only [List.append_assoc]
    exact run_item_spelling hspells field items before after [Byte.closeBracket]
  | @more body rest text texts before hspells after _ ih =>
    simp only [List.append_assoc, List.cons_append]
    rw [run_item_spelling hspells, List.append_cons items text texts]
    exact ih (items ++ [text])

theorem run_list {texts : List String} (h : SpellsList bytes texts) (field : ListField) :
    (value draft place (.list field)).run bytes =
      some (.ended (draft.putItems texts field) place) := by
  have hopen : (value draft place (.list field)).step Byte.openBracket =
      some (.listOpened draft place field) := rfl
  cases h with
  | empty blanks =>
    rw [run_cons_of hopen, run_blanks rfl]
    rfl
  | items hitems =>
    rw [run_cons_of hopen, run_listOpened_of_begins hitems.forms.begins]
    exact run_items hitems field []

theorem run_answer {text : String} (h : SpellsText bytes text) :
    (value draft place .answer).run bytes =
      some (.ended { draft with answer? := some text } place) := by
  obtain ⟨body, rfl, hspells⟩ := h
  have hopen : (value draft place .answer).step Byte.quote =
      some (.answerText draft place {}) := rfl
  rw [quoted, run_cons_of hopen, (hosts_answerText draft place).run_spelling hspells]
  rfl

/-- The value of a field is read as it is written. -/
theorem run_value_of_writes {ruleBase : RuleBase} {field : Field}
    (h : ruleBase.Writes bytes field) (hagrees : draft.Agrees ruleBase) :
    ∃ draft' : Draft, draft'.Agrees ruleBase ∧
      (∀ other, draft'.has other = (draft.has other || other = field)) ∧
      (value draft place field).run bytes = some (.ended draft' place) := by
  obtain ⟨hstatements, hentries, hanswer⟩ := hagrees
  rcases field with (_ | _) | _
  · exact ⟨draft.putItems ruleBase.statements .statements,
      ⟨by simp [Draft.putItems], hentries, hanswer⟩, draft.has_putItems _ _, run_list h _⟩
  · exact ⟨draft.putItems ruleBase.entries .entries,
      ⟨hstatements, by simp [Draft.putItems], hanswer⟩, draft.has_putItems _ _, run_list h _⟩
  · exact ⟨{ draft with answer? := some ruleBase.answer },
      ⟨hstatements, hentries, by simp⟩, draft.has_putAnswer _, run_answer h⟩

/-- Nothing is read any more: a byte was refused, or the value at hand will be. -/
def Doomed (progress? : Option Progress) : Prop :=
  ∀ progress ∈ progress?, ∃ wrong, progress = .misfit wrong

theorem doomed_none : Doomed none := by
  intro progress hprogress
  cases hprogress

theorem doomed_misfit (wrong : Misfit) (bytes : List UInt8) :
    Doomed ((misfit wrong).run bytes) := by
  induction bytes generalizing wrong with
  | nil =>
    intro progress hprogress
    cases hprogress
    exact ⟨wrong, rfl⟩
  | cons byte rest ih =>
    rw [run_cons]
    change Doomed (((wrong.step byte).map misfit).bind _)
    cases wrong.step byte with
    | none => exact doomed_none
    | some next => exact ih next

theorem Doomed.run {progress? : Option Progress} (h : Doomed progress?) (bytes : List UInt8) :
    Doomed (progress?.bind (·.run bytes)) := by
  cases progress? with
  | none => exact doomed_none
  | some progress =>
    obtain ⟨wrong, rfl⟩ := h progress rfl
    exact doomed_misfit wrong bytes

theorem Doomed.append {progress : Progress} (h : Doomed (progress.run bytes))
    (more : List UInt8) : Doomed (progress.run (bytes ++ more)) := by
  rw [run_append]
  exact h.run more

theorem doomed_of_first {progress : Progress} {first : UInt8} {rest : List UInt8}
    (h : progress.step first = (Misfit.first? first).map .misfit) :
    Doomed (progress.run (first :: rest)) := by
  rw [run_cons, h]
  cases Misfit.first? first with
  | none => exact doomed_none
  | some wrong => exact doomed_misfit wrong rest

/-- An item of a list is refused, unless it is a string that spells a text. -/
theorem run_item_or_doomed (h : Forms .value bytes) (field : ListField) (items : List String) :
    Doomed ((item draft place field items).run bytes) ∨
      ∃ text, (item draft place field items).run bytes =
        some (.itemEnded draft place field (items ++ [text])) := by
  obtain ⟨first, rest, rfl, hfirst, htext, _⟩ := h.first
  by_cases hquote : first = Byte.quote
  · obtain ⟨body, hbody, rfl⟩ := htext hquote
    subst hquote
    have hopen : (item draft place field items).step Byte.quote =
        some (.itemText draft place field items {}) := rfl
    rw [run_cons_of hopen]
    rcases (hosts_itemText draft place field items).run_body hbody [] with hnone | ⟨text, htext⟩
    · left
      rw [hnone]
      exact doomed_none
    · exact .inr ⟨text, htext⟩
  · left
    apply doomed_of_first
    simp [step, beginItem, isSpace_of_not_isDelimiter hfirst, hquote]

theorem run_elements_or_doomed (h : Forms (.elements .array) bytes) (field : ListField)
    (items : List String) :
    Doomed ((item draft place field items).run (bytes ++ [Byte.closeBracket])) ∨
      ∃ texts, (item draft place field items).run (bytes ++ [Byte.closeBracket]) =
        some (.ended (draft.putItems texts field) place) := by
  -- The induction is on the elements, of which only those of lists are of this shape.
  generalize hshape : Shape.elements .array = shape at h
  induction h generalizing items with
  | word | number | text | empty | brackets | item | field => cases hshape
  | single before helement after =>
    cases hshape
    cases helement with
    | item hvalue =>
      rw [List.append_assoc, run_blanks rfl, List.append_assoc]
      rcases run_item_or_doomed hvalue field items with hdoomed | ⟨text, hrun⟩
      · exact .inl (hdoomed.append _)
      · rw [run_append_of hrun, run_blanks rfl]
        exact .inr ⟨items ++ [text], rfl⟩
  | more before helement after _ _ ih =>
    cases hshape
    cases helement with
    | item hvalue =>
      simp only [List.append_assoc, List.cons_append]
      rw [run_blanks rfl]
      rcases run_item_or_doomed hvalue field items with hdoomed | ⟨text, hrun⟩
      · exact .inl (hdoomed.append _)
      · rw [run_append_of hrun, run_blanks rfl]
        exact ih (items ++ [text]) rfl

/-- Whatever is written for the value of a field, it is refused or read as one. -/
theorem run_value_or_doomed (h : Forms .value bytes) (field : Field) :
    Doomed ((value draft place field).run bytes) ∨
      ∃ draft' : Draft, (∀ other, draft'.has other = (draft.has other || other = field)) ∧
        (value draft place field).run bytes = some (.ended draft' place) := by
  obtain ⟨first, rest, rfl, hfirst, htext, hlist⟩ := h.first
  have hspace := isSpace_of_not_isDelimiter hfirst
  cases field with
  | list list =>
    by_cases hbracket : first = Byte.openBracket
    · subst hbracket
      have hopen : (value draft place (.list list)).step Byte.openBracket =
          some (.listOpened draft place list) := rfl
      rw [run_cons_of hopen]
      rcases hlist rfl with ⟨blanks, rfl⟩ | ⟨elements, helements, rfl⟩
      · rw [run_blanks rfl]
        exact .inr ⟨draft.putItems [] list, draft.has_putItems _ _, rfl⟩
      · rw [run_listOpened_of_begins helements.begins]
        rcases run_elements_or_doomed helements list [] with hdoomed | ⟨texts, hrun⟩
        · exact .inl hdoomed
        · exact .inr ⟨draft.putItems texts list, draft.has_putItems _ _, hrun⟩
    · left
      apply doomed_of_first
      simp [step, beginValue, hspace, hbracket]
  | answer =>
    by_cases hquote : first = Byte.quote
    · obtain ⟨body, hbody, rfl⟩ := htext hquote
      subst hquote
      have hopen : (value draft place .answer).step Byte.quote =
          some (.answerText draft place {}) := rfl
      rw [run_cons_of hopen]
      rcases (hosts_answerText draft place).run_body hbody [] with hnone | ⟨text, hrun⟩
      · left
        rw [hnone]
        exact doomed_none
      · exact .inr ⟨{ draft with answer? := some text }, draft.has_putAnswer _, hrun⟩
    · left
      apply doomed_of_first
      simp [step, beginValue, hspace, hquote]

end Progress

end RuleBase

end ForwardChaining
