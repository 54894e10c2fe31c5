import Mathlib.Data.List.DropRight
import ForwardChaining.Text.Blank

namespace ForwardChaining.Text

theorem trimChars_prefix (chars : List Char) : trimChars chars <+: chars.dropWhile isBlank :=
  List.rdropWhile_prefix isBlank _

theorem dropWhile_trimChars (chars : List Char) :
    (trimChars chars).dropWhile isBlank = trimChars chars := by
  rw [List.dropWhile_eq_self_iff]
  intro hpos
  have hfront := trimChars_prefix chars
  -- What is left begins with the first character that is not blank.
  rw [hfront.getElem hpos]
  exact List.dropWhile_get_zero_not isBlank chars (Nat.lt_of_lt_of_le hpos hfront.length_le)

/-- A trimmed text has nothing more to be trimmed. -/
@[simp] theorem trim_trim (text : String) : trim (trim text) = trim text := by
  have hchars : trimChars (trimChars text.toList) = trimChars text.toList := by
    rw [trimChars, dropWhile_trimChars]
    exact List.rdropWhile_idempotent isBlank (text.toList.dropWhile isBlank)
  rw [trim, trim, String.toList_ofList, hchars]

/-- Only blanks are trimmed, in front and behind. -/
theorem exists_trimChars (chars : List Char) :
    ∃ trail, chars = chars.takeWhile isBlank ++ trimChars chars ++ trail ∧
      ∀ c ∈ trail, isBlank c = true := by
  refine ⟨(chars.dropWhile isBlank).rtakeWhile isBlank, ?_, fun c => List.mem_rtakeWhile_imp⟩
  have hback : trimChars chars ++ (chars.dropWhile isBlank).rtakeWhile isBlank =
      chars.dropWhile isBlank := List.rdropWhile_append_rtakeWhile
  rw [List.append_assoc, hback, List.takeWhile_append_dropWhile]

theorem isBlank_of_getLast?_trimChars {chars : List Char} {c : Char}
    (hlast : (trimChars chars).getLast? = some c) : isBlank c = false := by
  rw [trimChars, List.getLast?_reverse] at hlast
  have hstop := List.head?_dropWhile_not isBlank (chars.dropWhile isBlank).reverse
  rwa [hlast] at hstop

/-- A word behind blanks is what trimming leaves. -/
theorem trimChars_blanks_append {lead word : List Char} (hlead : ∀ c ∈ lead, isBlank c = true)
    (hword : ∀ c ∈ word, isBlank c = false) : trimChars (lead ++ word) = word := by
  have hkept : ∀ chars : List Char, (∀ c ∈ chars, isBlank c = false) →
      chars.dropWhile isBlank = chars := by
    intro chars hchars
    rw [List.dropWhile_eq_self_iff]
    intro hpos
    simp [hchars _ (List.getElem_mem hpos)]
  rw [trimChars, List.dropWhile_append_of_pos hlead, hkept word hword,
    hkept word.reverse (by simpa using hword), List.reverse_reverse]

theorem trim_of_unblank {text : String} (h : ∀ c ∈ text.toList, isBlank c = false) :
    trim text = text := by
  have hchars : trimChars text.toList = text.toList :=
    trimChars_blanks_append (List.forall_mem_nil _) h
  rw [trim, hchars, String.ofList_toList]

end ForwardChaining.Text
