import Mathlib.Data.List.Basic
import Mathlib.Data.List.TakeWhile
import ForwardChaining.Token.Lexer

namespace ForwardChaining

namespace Text

/-- Sets whose intervals lie pairwise beside each other have no character in common. -/
theorem CharSet.not_contains_of_intervals (first second : CharSet)
    (hbeside : ∀ interval ∈ first.intervals, ∀ other ∈ second.intervals,
      interval.2 < other.1 ∨ other.2 < interval.1)
    {c : Char} (hfirst : first.contains c = true) : second.contains c = false := by
  obtain ⟨interval, hinterval, hleast, hgreatest⟩ := CharSet.contains_iff.mp hfirst
  rw [← Bool.not_eq_true, CharSet.contains_iff]
  rintro ⟨other, hother, hleast', hgreatest'⟩
  have hapart := hbeside interval hinterval other hother
  omega

theorem isBlank_of_isAlphanumeric {c : Char} (hc : isAlphanumeric c = true) : isBlank c = false :=
  CharSet.not_contains_of_intervals alphanumerics blanks (by decide +kernel) hc

theorem isAlphanumeric_of_isBlank {c : Char} (hblank : isBlank c = true) :
    isAlphanumeric c = false := by
  cases hc : isAlphanumeric c with
  | false => rfl
  | true => simp [isBlank_of_isAlphanumeric hc] at hblank

/-- The texts that an atom can be named with. -/
def IsAtomName (name : String) : Prop :=
  name ≠ "" ∧ ∀ c ∈ name.toList, isAlphanumeric c = true

instance (name : String) : Decidable (IsAtomName name) :=
  @instDecidableAnd _ _ inferInstance (List.decidableBAll _ name.toList)

end Text

namespace Token

open Text (isAlphanumeric isBlank)

theorem ofGlyph?_of_isAlphanumeric {c : Char} (hc : isAlphanumeric c = true) :
    ofGlyph? c = none := by
  unfold ofGlyph?
  split
  all_goals first | rfl | exact absurd hc (by decide +kernel)

theorem isAlphanumeric_of_ofGlyph? {c : Char} {token : Token} (hglyph : ofGlyph? c = some token) :
    isAlphanumeric c = false := by
  cases hc : isAlphanumeric c with
  | false => rfl
  | true => simp [ofGlyph?_of_isAlphanumeric hc] at hglyph

theorem ofGlyph?_ne_atom (c : Char) (name : String) : ofGlyph? c ≠ some (.atom name) := by
  unfold ofGlyph?
  split <;> simp

/-- Texts of which the first does not end, or the second does not begin, with a character that
    could run on into an atom of the other. -/
def Apart (front back : List Char) : Prop :=
  (∀ c ∈ front.getLast?, isAlphanumeric c = false) ∨ ∀ c ∈ back.head?, isAlphanumeric c = false

theorem Apart.of_glyph {c : Char} {token : Token} (hglyph : ofGlyph? c = some token)
    (back : List Char) : Apart [c] back :=
  .inl (by simpa using isAlphanumeric_of_ofGlyph? hglyph)

theorem Apart.of_glyph_right {c : Char} {token : Token} (hglyph : ofGlyph? c = some token)
    (front : List Char) : Apart front [c] :=
  .inr (by simpa using isAlphanumeric_of_ofGlyph? hglyph)

theorem Apart.of_suffix {front rest back : List Char} (h : Apart front back)
    (hsuffix : rest <:+ front) : Apart rest back := by
  obtain ⟨before, rfl⟩ := hsuffix
  cases rest with
  | nil => exact .inl (by simp)
  | cons c rest =>
    refine h.imp_left fun hlast => ?_
    rwa [List.getLast?_append_of_ne_nil _ (List.cons_ne_nil c rest)] at hlast

/-- The run of characters behind an alphanumeric one is the same whether or not the other text
    follows. -/
theorem Apart.span_append {c : Char} {rest back : List Char} (h : Apart (c :: rest) back)
    (hc : isAlphanumeric c = true) :
    (rest ++ back).takeWhile isAlphanumeric = rest.takeWhile isAlphanumeric ∧
      (rest ++ back).dropWhile isAlphanumeric = rest.dropWhile isAlphanumeric ++ back := by
  rw [List.takeWhile_append, List.dropWhile_append]
  have hlength := congrArg List.length (List.takeWhile_append_dropWhile (p := isAlphanumeric)
    (l := rest))
  rw [List.length_append] at hlength
  cases hdrop : rest.dropWhile isAlphanumeric with
  | cons d after =>
    have hshorter : (rest.takeWhile isAlphanumeric).length ≠ rest.length := by
      rw [hdrop, List.length_cons] at hlength
      omega
    simp [hshorter]
  | nil =>
    -- The whole of the first text is one run, so it is the second one that begins otherwise.
    have hall : ∀ d ∈ c :: rest, isAlphanumeric d = true := by
      have hrest := List.dropWhile_eq_nil_iff.mp hdrop
      simpa [hc] using hrest
    have hhead : ∀ d ∈ back.head?, isAlphanumeric d = false := by
      refine h.resolve_left fun hlast => ?_
      have hmem := List.getLast?_eq_some_getLast (List.cons_ne_nil c rest)
      have hfalse := hlast _ hmem
      rw [hall _ (List.getLast_mem _)] at hfalse
      cases hfalse
    have hequal : (rest.takeWhile isAlphanumeric).length = rest.length := by
      rw [hdrop, List.length_nil] at hlength
      omega
    have hwhole : rest.takeWhile isAlphanumeric = rest :=
      (List.takeWhile_prefix isAlphanumeric).eq_of_length hequal
    cases back with
    | nil => simp [hwhole]
    | cons d back =>
      have hd : isAlphanumeric d = false := hhead d rfl
      simp [hwhole, hd]

/-- The tokens of a text and of what follows it apart are their tokens in turn. The first error
    ends the scan, and positions count on from one text to the other. -/
theorem scan_append {front back : List Char} (h : Apart front back) (position : Nat) :
    scan position (front ++ back) = scan position front >>= fun tokens =>
      (scan (position + front.length) back).map (tokens ++ ·) := by
  fun_induction scan position front with
  | case1 position =>
    change scan position back = (scan position back).map ([] ++ ·)
    cases scan position back <;> rfl
  | case2 position c rest hblank ih =>
    rw [List.cons_append, scan, if_pos hblank, ih (h.of_suffix (List.suffix_cons c rest)),
      List.length_cons, Nat.add_right_comm, Nat.add_assoc]
  | case3 position c rest hblank token hglyph ih =>
    rw [List.cons_append, scan, if_neg hblank, hglyph]
    dsimp only
    rw [ih (h.of_suffix (List.suffix_cons c rest)), List.length_cons, Nat.add_right_comm,
      Nat.add_assoc]
    cases scan (position + 1) rest with
    | error error => rfl
    | ok tokens => cases scan (position + (rest.length + 1)) back <;> rfl
  | case4 position c rest hblank hglyph halpha run ih =>
    obtain ⟨htake, hdrop⟩ := h.span_append halpha
    have hlength : position + 1 + run.length + (rest.dropWhile isAlphanumeric).length =
        position + (rest.length + 1) := by
      dsimp only [run]
      have hsplit := congrArg List.length (List.takeWhile_append_dropWhile (p := isAlphanumeric)
        (l := rest))
      rw [List.length_append] at hsplit
      omega
    have hapart : Apart (rest.dropWhile isAlphanumeric) back :=
      h.of_suffix ((List.dropWhile_suffix isAlphanumeric).trans (List.suffix_cons c rest))
    rw [List.cons_append, scan, if_neg hblank, hglyph]
    dsimp only
    rw [if_pos halpha, htake, hdrop, ih hapart, hlength, List.length_cons]
    cases scan (position + 1 + run.length) (rest.dropWhile isAlphanumeric) with
    | error error => rfl
    | ok tokens => cases scan (position + (rest.length + 1)) back <;> rfl
  | case5 position c rest hblank hglyph halpha =>
    rw [List.cons_append, scan, if_neg hblank, hglyph]
    dsimp only
    rw [if_neg halpha]
    rfl

/-- The characters have just the given tokens, wherever they stand. -/
def Scans (chars : List Char) (tokens : List Token) : Prop :=
  ∀ position, scan position chars = .ok tokens

theorem Scans.append {front back : List Char} {tokens tokens' : List Token}
    (hfront : Scans front tokens) (hback : Scans back tokens') (hapart : Apart front back) :
    Scans (front ++ back) (tokens ++ tokens') := by
  intro position
  rw [scan_append hapart, hfront position]
  change (scan (position + front.length) back).map (tokens ++ ·) = _
  rw [hback]
  rfl

theorem scans_glyph {c : Char} {token : Token} (hblank : isBlank c = false)
    (hglyph : ofGlyph? c = some token) : Scans [c] [token] := by
  intro position
  simp [scan, hblank, hglyph, Except.map]

/-- A name is the atom it names, and nothing else. -/
theorem scans_atomName {name : String} (hname : Text.IsAtomName name) :
    Scans name.toList [.atom name] := by
  intro position
  obtain ⟨hne, hall⟩ := hname
  cases hchars : name.toList with
  | nil => exact absurd (String.toList_eq_nil_iff.mp hchars) hne
  | cons c rest =>
    rw [hchars] at hall
    have hc : isAlphanumeric c = true := hall c List.mem_cons_self
    have hrest : ∀ d ∈ rest, isAlphanumeric d = true := fun d hd =>
      hall d (List.mem_cons_of_mem c hd)
    have hblank : ¬ isBlank c = true := by simp [Text.isBlank_of_isAlphanumeric hc]
    have hname : String.ofList (c :: rest) = name := by rw [← hchars, String.ofList_toList]
    rw [scan, if_neg hblank, ofGlyph?_of_isAlphanumeric hc]
    dsimp only
    rw [if_pos hc, List.takeWhile_eq_self_iff.mpr hrest, List.dropWhile_eq_nil_iff.mpr hrest,
      hname, scan]
    rfl

theorem isAtomName_of_scan {position : Nat} {chars : List Char} {tokens : List Token}
    (hscan : scan position chars = .ok tokens) {name : String} (hmem : .atom name ∈ tokens) :
    Text.IsAtomName name := by
  fun_induction scan position chars generalizing tokens with
  | case1 position =>
    cases hscan
    cases hmem
  | case2 position c rest hblank ih => exact ih hscan hmem
  | case3 position c rest hblank token hglyph ih =>
    obtain ⟨more, hmore, rfl⟩ := ReadError.map_eq_ok_iff.mp hscan
    rcases List.mem_cons.mp hmem with rfl | hlater
    · exact absurd hglyph (ofGlyph?_ne_atom c name)
    · exact ih hmore hlater
  | case4 position c rest hblank hglyph halpha run =>
    rename_i ih
    obtain ⟨more, hmore, rfl⟩ := ReadError.map_eq_ok_iff.mp hscan
    rcases List.mem_cons.mp hmem with hhead | hlater
    · cases hhead
      have hrun : ∀ d ∈ run, isAlphanumeric d = true :=
        fun d hd => List.mem_takeWhile_imp hd
      exact ⟨by simp, by simpa [halpha] using hrun⟩
    · exact ih hmore hlater
  | case5 position c rest hblank hglyph halpha => cases hscan

end Token

end ForwardChaining
