import Mathlib.Data.List.Induction
import Mathlib.Data.List.Shortlex
import Mathlib.Data.Set.Function
import ForwardChaining.Proofs.RuleBase.Labels

namespace ForwardChaining

namespace Label

/-- A word that can be a label: one capital letter or more. -/
def IsWord (word : String) : Prop :=
  word ≠ "" ∧ ∀ c ∈ word.toList, 'A' ≤ c ∧ c ≤ 'Z'

instance (word : String) : Decidable (IsWord word) :=
  @instDecidableAnd _ _ inferInstance (List.decidableBAll _ word.toList)

theorem capital_letter {index : Nat} (hindex : index < 26) :
    'A' ≤ letter index ∧ letter index ≤ 'Z' := by
  have hall : ∀ digit < 26, 'A' ≤ letter digit ∧ letter digit ≤ 'Z' := by decide
  exact hall index hindex

theorem exists_letter_of_capital {c : Char} (hc : 'A' ≤ c ∧ c ≤ 'Z') :
    ∃ index < 26, letter index = c := by
  have hleast : 65 ≤ c.toNat := hc.1
  have hgreatest : c.toNat ≤ 90 := hc.2
  refine ⟨c.toNat - 65, by omega, ?_⟩
  have hplace : 'A'.toNat + (c.toNat - 65) = c.toNat := Nat.add_sub_cancel' hleast
  rw [letter, hplace, Char.ofNat_toNat]

theorem letter_lt_letter {index other : Nat} (hlt : index < other) (hother : other < 26) :
    letter index < letter other := by
  have hplaces : (letter index).toNat < (letter other).toNat := by
    rw [toNat_letter (hlt.trans hother), toNat_letter hother]
    omega
  exact hplaces

theorem letters_of_lt {index : Nat} (hindex : index < 26) : letters index = [letter index] := by
  rw [letters, if_pos hindex]

/-- Behind the label at an index each letter gives one more label. -/
theorem letters_append_letter (index : Nat) {digit : Nat} (hdigit : digit < 26) :
    letters ((index + 1) * 26 + digit) = letters index ++ [letter digit] := by
  have hfront : ((index + 1) * 26 + digit) / 26 - 1 = index := by omega
  have hlast : ((index + 1) * 26 + digit) % 26 = digit := by omega
  rw [letters, if_neg (by omega), hfront, hlast]

theorem isWord_ofIndex (index : Nat) : IsWord (ofIndex index) := by
  refine ⟨(isAtomName_ofIndex index).1, ?_⟩
  rw [ofIndex, String.toList_ofList]
  fun_induction letters index with
  | case1 index hsmall => simpa using capital_letter hsmall
  | case2 index hlarge ih =>
    have hlast := capital_letter (Nat.mod_lt index (by decide))
    simpa [or_imp, forall_and, hlast] using ih

/-- Every word is a label. -/
theorem exists_letters_eq {word : List Char} (hne : word ≠ [])
    (hword : ∀ c ∈ word, 'A' ≤ c ∧ c ≤ 'Z') : ∃ index, letters index = word := by
  induction word using List.reverseRecOn with
  | nil => exact absurd rfl hne
  | append_singleton front c ih =>
    obtain ⟨digit, hdigit, rfl⟩ := exists_letter_of_capital (hword c (by simp))
    by_cases hfront : front = []
    · subst hfront
      exact ⟨digit, letters_of_lt hdigit⟩
    · obtain ⟨index, rfl⟩ := ih hfront fun d hd => hword d (List.mem_append_left _ hd)
      exact ⟨(index + 1) * 26 + digit, letters_append_letter index hdigit⟩

theorem value_ofIndex (index : Nat) : value (ofIndex index).toList = index + 1 := by
  rw [ofIndex, String.toList_ofList, value_letters]

theorem exists_ofIndex_eq {word : String} (hword : IsWord word) :
    ∃ index, ofIndex index = word := by
  have hne : word.toList ≠ [] := fun hnil => hword.1 (String.toList_eq_nil_iff.mp hnil)
  obtain ⟨index, hindex⟩ := exists_letters_eq hne hword.2
  exact ⟨index, by rw [ofIndex, hindex, String.ofList_toList]⟩

/-- The labels of the indices below a bound are just the words whose value is at most the bound. -/
theorem bijOn_ofIndex (bound : Nat) :
    Set.BijOn ofIndex (Set.Iio bound) {word | IsWord word ∧ value word.toList ≤ bound} := by
  refine ⟨fun index hindex => ⟨isWord_ofIndex index, ?_⟩, ofIndex_injective.injOn, ?_⟩
  · rw [value_ofIndex]
    exact hindex
  · rintro word ⟨hword, hvalue⟩
    obtain ⟨index, rfl⟩ := exists_ofIndex_eq hword
    rw [value_ofIndex] at hvalue
    exact ⟨index, hvalue, rfl⟩

section Order

theorem lex_append_singleton {front back : List Char} (hlength : front.length = back.length)
    (h : List.Lex (· < ·) front back) (c d : Char) :
    List.Lex (· < ·) (front ++ [c]) (back ++ [d]) := by
  induction h with
  | nil => cases hlength
  | cons _ ih => exact .cons (ih (Nat.succ.inj hlength))
  | rel hlt => exact .rel hlt

/-- What comes before another word by length and then by the alphabet still does so with one more
    letter behind either. -/
theorem shortlex_append_singleton {front back : List Char}
    (h : List.Shortlex (· < ·) front back) (c d : Char) :
    List.Shortlex (· < ·) (front ++ [c]) (back ++ [d]) := by
  rcases List.shortlex_def.mp h with hshorter | ⟨hlength, hlex⟩
  · exact .of_length_lt (by simpa using hshorter)
  · exact .of_lex (by simpa using hlength) (lex_append_singleton hlength hlex c d)

theorem shortlex_letters {index other : Nat} (hlt : index < other) :
    List.Shortlex (· < ·) (letters index) (letters other) := by
  fun_induction letters other generalizing index with
  | case1 other hsmall =>
    rw [letters_of_lt (hlt.trans hsmall), List.shortlex_singleton_iff]
    exact letter_lt_letter hlt hsmall
  | case2 other hlarge ih =>
    by_cases hsmall : index < 26
    · have hfront := List.length_pos_iff.mpr (letters_ne_nil (other / 26 - 1))
      rw [letters_of_lt hsmall]
      exact .of_length_lt (by simpa using hfront)
    · rw [letters, if_neg hsmall]
      by_cases hfront : index / 26 - 1 < other / 26 - 1
      · exact shortlex_append_singleton (ih hfront) _ _
      · -- The labels differ in the last letter only.
        have hsame : index / 26 - 1 = other / 26 - 1 := by omega
        rw [hsame]
        apply List.Shortlex.append_left
        rw [List.shortlex_singleton_iff]
        exact letter_lt_letter (by omega) (Nat.mod_lt other (by decide))

theorem lt_iff_shortlex_ofIndex {index other : Nat} :
    index < other ↔
      List.Shortlex (· < ·) (ofIndex index).toList (ofIndex other).toList := by
  simp only [ofIndex, String.toList_ofList]
  refine ⟨shortlex_letters, fun hbefore => ?_⟩
  by_contra hnot
  rcases Nat.eq_or_lt_of_not_lt hnot with rfl | hgt
  · exact Std.Asymm.asymm _ _ hbefore hbefore
  · exact Std.Asymm.asymm _ _ hbefore (shortlex_letters hgt)

end Order

end Label

namespace RuleBase

theorem statement?_eq_none_iff {ruleBase : RuleBase} {label : String} :
    ruleBase.statement? label = none ↔
      ∀ index < ruleBase.statements.length, Label.ofIndex index ≠ label := by
  constructor
  · intro hnone index hindex hlabel
    have hfound := statement?_eq_some_iff.mpr
      ⟨index, _, List.getElem?_eq_getElem hindex, hlabel, rfl⟩
    rw [hnone] at hfound
    cases hfound
  · intro hother
    rw [Option.eq_none_iff_forall_ne_some]
    intro text hfound
    obtain ⟨index, statement, hstatement, hlabel, _⟩ := statement?_eq_some_iff.mp hfound
    exact hother index (List.getElem?_eq_some_iff.mp hstatement).1 hlabel

/-- The labels of the indices below any bound are just the words of capital letters whose value is
    at most the bound, each of them the label of one index, and they go by length and then by the
    alphabet. So a text finds the statement at the index that it is the label of, and one that is
    the label of no statement finds nothing. -/
theorem statement?_by_label :
    (∀ bound, Set.BijOn Label.ofIndex (Set.Iio bound)
      {word | Label.IsWord word ∧ Label.value word.toList ≤ bound}) ∧
    (∀ index other, index < other ↔
      List.Shortlex (· < ·) (Label.ofIndex index).toList (Label.ofIndex other).toList) ∧
    ∀ (ruleBase : RuleBase) (query : String),
      (∀ (index : Nat) (hindex : index < ruleBase.statements.length),
        Label.ofIndex index = query →
        ruleBase.statement? query = some (Label.strip ruleBase.statements[index])) ∧
      ((∀ index < ruleBase.statements.length, Label.ofIndex index ≠ query) →
        ruleBase.statement? query = none) := by
  refine ⟨Label.bijOn_ofIndex, fun index other => Label.lt_iff_shortlex_ofIndex,
    fun ruleBase query => ⟨fun index hindex hquery => ?_, statement?_eq_none_iff.mpr⟩⟩
  exact statement?_eq_some_iff.mpr ⟨index, _, List.getElem?_eq_getElem hindex, hquery, rfl⟩

/-- `AB` finds the last of 28 statements and `AC` finds none, and `ZZ` comes right before `AAA`. -/
theorem statement?_by_label_twoLetters :
    let ruleBase : RuleBase := { statements := List.replicate 27 "It snows." ++ ["AB. It rains."] }
    ruleBase.statement? "AB" = some "It rains." ∧ ruleBase.statement? "AC" = none ∧
      (∃ index < 2 ^ 64 - 1, Label.ofIndex index = "ZZ") ∧
      List.Shortlex (· < ·) "ZZ".toList "AAA".toList := by
  intro ruleBase
  obtain ⟨hbijection, horder, hlookup⟩ := statement?_by_label
  refine ⟨?_, ?_, ?_, ?_⟩
  · refine ((hlookup ruleBase "AB").1 27 (by decide) (by decide +kernel)).trans ?_
    decide +kernel
  · exact (hlookup ruleBase "AC").2 (by decide +kernel)
  · exact (hbijection (2 ^ 64 - 1)).surjOn ⟨by decide +kernel, by decide +kernel⟩
  · have hlast : Label.ofIndex 701 = "ZZ" := by decide +kernel
    have hnext : Label.ofIndex 702 = "AAA" := by decide +kernel
    rw [← hlast, ← hnext]
    exact (horder 701 702).mp (by decide)

end RuleBase

end ForwardChaining
