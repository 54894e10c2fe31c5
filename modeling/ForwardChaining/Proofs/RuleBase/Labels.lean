import ForwardChaining.Proofs.Token.Concatenation
import ForwardChaining.RuleBase

namespace ForwardChaining

namespace Label

theorem toNat_letter {index : Nat} (hindex : index < 26) :
    (letter index).toNat = 'A'.toNat + index := by
  have hall : ∀ digit < 26, (letter digit).toNat = 'A'.toNat + digit := by decide
  exact hall index hindex

/-- What letters come to as a number whose digits go from `A` for one to `Z` for 26. -/
def value (letters : List Char) : Nat :=
  letters.foldl (fun number c => number * 26 + (c.toNat - 'A'.toNat + 1)) 0

theorem value_append_letter (letters : List Char) {index : Nat} (hindex : index < 26) :
    value (letters ++ [letter index]) = value letters * 26 + (index + 1) := by
  rw [value, List.foldl_append, List.foldl_cons, List.foldl_nil, ← value, toNat_letter hindex,
    Nat.add_sub_cancel_left]

/-- The labels are counted from one. -/
theorem value_letters (index : Nat) : value (letters index) = index + 1 := by
  fun_induction letters index with
  | case1 index hsmall => simpa [value] using value_append_letter [] hsmall
  | case2 index hlarge ih =>
    rw [value_append_letter _ (Nat.mod_lt index (by decide)), ih]
    omega

/-- No two positions have the same label. -/
theorem ofIndex_injective : Function.Injective ofIndex := by
  intro index other hsame
  have hletters : letters index = letters other := String.ofList_injective hsame
  have hvalue := congrArg value hletters
  rw [value_letters, value_letters] at hvalue
  omega

theorem isAlphanumeric_letter {index : Nat} (hindex : index < 26) :
    Text.isAlphanumeric (letter index) = true := by
  have hall : ∀ digit < 26, Text.isAlphanumeric (letter digit) = true := by decide +kernel
  exact hall index hindex

theorem isAtomName_ofIndex (index : Nat) : Text.IsAtomName (ofIndex index) := by
  unfold Text.IsAtomName ofIndex
  rw [String.toList_ofList]
  refine ⟨fun hempty => letters_ne_nil index ?_, ?_⟩
  · simpa using congrArg String.toList hempty
  · fun_induction letters index with
    | case1 index hsmall => simpa using isAlphanumeric_letter hsmall
    | case2 index hlarge ih =>
      have hlast := isAlphanumeric_letter (Nat.mod_lt index (by decide))
      simpa [or_imp, forall_and, hlast] using ih

end Label

namespace RuleBase

variable {ruleBase : RuleBase} {label text : String}

theorem mem_labelled_iff :
    (label, text) ∈ ruleBase.labelled ↔ ∃ index statement,
      ruleBase.statements[index]? = some statement ∧ Label.ofIndex index = label ∧
        Label.strip statement = text := by
  unfold labelled
  rw [List.mem_map]
  constructor
  · rintro ⟨⟨statement, index⟩, hplace, heq⟩
    cases heq
    exact ⟨index, statement, List.mk_mem_zipIdx_iff_getElem?.mp hplace, rfl, rfl⟩
  · rintro ⟨index, statement, hstatement, rfl, rfl⟩
    exact ⟨(statement, index), List.mk_mem_zipIdx_iff_getElem?.mpr hstatement, rfl⟩

/-- A label finds the statement at the position that it is the label of, and nothing else. -/
theorem statement?_eq_some_iff :
    ruleBase.statement? label = some text ↔ ∃ index statement,
      ruleBase.statements[index]? = some statement ∧ Label.ofIndex index = label ∧
        Label.strip statement = text := by
  have hfound : ∀ {found}, ruleBase.statement? label = some found →
      (label, found) ∈ ruleBase.labelled := by
    intro found hlookup
    obtain ⟨before, after, hsplit, _⟩ := List.lookup_eq_some_iff.mp hlookup
    rw [hsplit]
    exact List.mem_append_right _ List.mem_cons_self
  constructor
  · intro hlookup
    exact mem_labelled_iff.mp (hfound hlookup)
  · rintro ⟨index, statement, hstatement, rfl, rfl⟩
    have hmem := mem_labelled_iff.mpr ⟨index, statement, hstatement, rfl, rfl⟩
    have hsome : (ruleBase.statement? (Label.ofIndex index)).isSome = true :=
      List.lookup_isSome_iff.mpr ⟨_, hmem, BEq.rfl⟩
    obtain ⟨found, hlookup⟩ := Option.isSome_iff_exists.mp hsome
    -- Whatever else might be found would stand at the same position.
    obtain ⟨other, statement', hother, hlabel, rfl⟩ := mem_labelled_iff.mp (hfound hlookup)
    obtain rfl : other = index := Label.ofIndex_injective hlabel
    obtain rfl : statement' = statement := Option.some.inj (hother.symm.trans hstatement)
    exact hlookup

end RuleBase

end ForwardChaining
