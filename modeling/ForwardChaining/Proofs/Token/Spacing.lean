import Mathlib.Data.List.Chain
import ForwardChaining.Proofs.Formula.Rejection
import ForwardChaining.Proofs.Text.Trimming
import ForwardChaining.Proofs.Token.MaximalMunch

namespace ForwardChaining

/-- The error that a text gives when so many more characters stand before it. -/
def ReadError.shiftedBy (offset : Nat) : ReadError → ReadError
  | .unexpectedCharacter c position => .unexpectedCharacter c (position + offset)
  | error => error

namespace Token

open Text (isAlphanumeric isBlank)

section Concatenation

theorem map_mapError {α β : Type} (result : Except ReadError α) (next : α → β)
    (move : ReadError → ReadError) :
    (result.mapError move).map next = (result.map next).mapError move := by
  cases result <;> rfl

/-- Where a text stands changes the positions of its errors and nothing else. -/
theorem scan_add (position offset : Nat) (chars : List Char) :
    scan (position + offset) chars = (scan position chars).mapError (.shiftedBy offset) := by
  fun_induction scan position chars with
  | case1 position => rw [scan]; rfl
  | case2 position c rest hblank ih => rw [scan, if_pos hblank, Nat.add_right_comm, ih]
  | case3 position c rest hblank token hglyph ih =>
    rw [scan, if_neg hblank, hglyph]
    dsimp only
    rw [Nat.add_right_comm, ih, map_mapError]
  | case4 position c rest hblank hglyph halpha run ih =>
    rw [scan, if_neg hblank, hglyph]
    dsimp only
    rw [if_pos halpha, Nat.add_right_comm position, Nat.add_right_comm (position + 1), ih,
      map_mapError]
  | case5 position c rest hblank hglyph halpha =>
    rw [scan, if_neg hblank, hglyph]
    dsimp only
    rw [if_neg halpha]
    rfl

theorem tokenize_append {front back : String} (h : Apart front.toList back.toList) :
    tokenize (front ++ back) = tokenize front >>= fun tokens =>
      ((tokenize back).mapError (.shiftedBy front.length)).map (tokens ++ ·) := by
  unfold tokenize
  rw [String.toList_append, scan_append h, String.length_toList]
  simp only [scan_add]

end Concatenation

section Blanks

theorem isBlank_of_mem_space : ∀ c ∈ [' '], isBlank c = true :=
  List.forall_mem_singleton.mpr (by decide +kernel)

variable {blanks : List Char} (hblanks : ∀ c ∈ blanks, isBlank c = true)

include hblanks

theorem scans_blanks : Scans blanks [] := by
  intro position
  induction blanks generalizing position with
  | nil => rw [scan]
  | cons c rest ih =>
    obtain ⟨hc, hrest⟩ := List.forall_mem_cons.mp hblanks
    rw [scan, if_pos hc]
    exact ih hrest (position + 1)

theorem apart_of_blanks_left (back : List Char) : Apart blanks back :=
  .inl fun c hc => Text.isAlphanumeric_of_isBlank (hblanks c (List.mem_of_getLast? hc))

theorem apart_of_blanks_right (front : List Char) : Apart front blanks :=
  .inr fun c hc => Text.isAlphanumeric_of_isBlank (hblanks c (List.mem_of_head? hc))

theorem scan_blanks_append (position : Nat) (chars : List Char) :
    scan position (blanks ++ chars) = scan (position + blanks.length) chars := by
  rw [scan_append (apart_of_blanks_left hblanks chars), scans_blanks hblanks position]
  change (scan (position + blanks.length) chars).map ([] ++ ·) = _
  cases scan (position + blanks.length) chars <;> rfl

theorem scan_append_blanks (position : Nat) (chars : List Char) :
    scan position (chars ++ blanks) = scan position chars := by
  rw [scan_append (apart_of_blanks_right hblanks chars), scans_blanks hblanks]
  cases scan position chars with
  | error error => rfl
  | ok tokens => exact congrArg Except.ok (List.append_nil tokens)

end Blanks

/-- Trimming a text takes away none of its tokens, and moves its error by the blanks that were in
    front. -/
theorem tokenize_eq_trim (text : String) :
    tokenize text = (tokenize (Text.trim text)).mapError
      (.shiftedBy (text.toList.takeWhile isBlank).length) := by
  obtain ⟨trail, htext, htrail⟩ := Text.exists_trimChars text.toList
  have hlead : ∀ c ∈ text.toList.takeWhile isBlank, isBlank c = true := fun c =>
    List.mem_takeWhile_imp
  calc tokenize text
      = scan 0 (text.toList.takeWhile isBlank ++ Text.trimChars text.toList ++ trail) := by
        rw [← htext, tokenize]
    _ = scan (0 + (text.toList.takeWhile isBlank).length) (Text.trimChars text.toList) := by
        rw [scan_append_blanks htrail, scan_blanks_append hlead]
    _ = (tokenize (Text.trim text)).mapError _ := by
        rw [scan_add, tokenize, Text.trim, String.toList_ofList]

theorem tokenize_trim_of_ok {text : String} {tokens : List Token}
    (h : tokenize text = .ok tokens) : tokenize (Text.trim text) = .ok tokens := by
  rw [tokenize_eq_trim] at h
  cases htrim : tokenize (Text.trim text) with
  | error error => rw [htrim] at h; cases h
  | ok tokens' => rwa [htrim] at h

theorem tokenize_of_trim_ok {text : String} {tokens : List Token}
    (h : tokenize (Text.trim text) = .ok tokens) : tokenize text = .ok tokens := by
  rw [tokenize_eq_trim, h]
  rfl

/-- Blanks around a text and trimming leave its tokens alone. -/
theorem tokenize_trim_padded {text padded : String} {lead trail : List Char} {tokens : List Token}
    (hpadded : padded.toList = lead ++ text.toList ++ trail)
    (hlead : ∀ c ∈ lead, isBlank c = true) (htrail : ∀ c ∈ trail, isBlank c = true)
    (h : tokenize text = .ok tokens) : tokenize (Text.trim padded) = .ok tokens := by
  apply tokenize_trim_of_ok
  rw [tokenize, hpadded, scan_append_blanks htrail, scan_blanks_append hlead, scan_add]
  exact congrArg (Except.mapError _) h

section Layout

def isAtom : Token → Bool
  | .atom _ => true
  | _ => false

theorem exists_glyph {token : Token} (h : token.isAtom = false) :
    ∃ c, ofGlyph? c = some token := by
  cases token with
  | leftParen => exact ⟨'(', rfl⟩
  | rightParen => exact ⟨')', rfl⟩
  | and => exact ⟨'∧', rfl⟩
  | or => exact ⟨'∨', rfl⟩
  | not => exact ⟨'¬', rfl⟩
  | atom name => cases h

/-- A token that can be read is what its own text is read as. -/
theorem scans_text {token : Token} (hname : ∀ name, token = .atom name → Text.IsAtomName name) :
    Scans token.text.toList [token] := by
  cases htoken : token.isAtom with
  | false =>
    obtain ⟨c, hglyph⟩ := exists_glyph htoken
    rw [text_of_ofGlyph? hglyph]
    exact scans_glyph (isBlank_of_ofGlyph? hglyph) hglyph
  | true =>
    cases token with
    | atom name => exact scans_atomName (hname name rfl)
    | leftParen | rightParen | and | or | not => cases htoken

/-- The text of tokens written one after the other, with something before the first of them and
    something behind each. -/
def laidOut (lead : String) (pieces : List (Token × String)) : String :=
  lead ++ String.join (pieces.map fun piece => piece.1.text ++ piece.2)

/-- Only blanks are put around the tokens, and at least one between an atom and the next; and the
    atoms have names that can be read. -/
structure IsLayout (lead : String) (pieces : List (Token × String)) : Prop where
  names : ∀ name gap, (.atom name, gap) ∈ pieces → Text.IsAtomName name
  lead_blank : ∀ c ∈ lead.toList, isBlank c = true
  gaps_blank : ∀ piece ∈ pieces, ∀ c ∈ piece.2.toList, isBlank c = true
  parted : pieces.IsChain fun piece next =>
    piece.1.isAtom = true → next.1.isAtom = true → piece.2 ≠ ""

/-- The characters of the pieces. -/
def pieceChars (pieces : List (Token × String)) : List Char :=
  pieces.flatMap fun piece => piece.1.text.toList ++ piece.2.toList

theorem toList_laidOut (lead : String) (pieces : List (Token × String)) :
    (laidOut lead pieces).toList = lead.toList ++ pieceChars pieces := by
  simp [laidOut, pieceChars, String.toList_join, List.flatMap_map]

/-- A piece is apart from those behind it: it ends, or they begin, with a blank or a glyph. -/
theorem apart_pieceChars {piece : Token × String} {rest : List (Token × String)}
    (hgap : ∀ c ∈ piece.2.toList, isBlank c = true)
    (hparted : ∀ next ∈ rest.head?,
      piece.1.isAtom = true → next.1.isAtom = true → piece.2 ≠ "") :
    Apart (piece.1.text.toList ++ piece.2.toList) (pieceChars rest) := by
  by_cases hempty : piece.2.toList = []
  · rw [hempty, List.append_nil]
    cases hatom : piece.1.isAtom with
    | false =>
      obtain ⟨c, hglyph⟩ := exists_glyph hatom
      rw [text_of_ofGlyph? hglyph]
      exact .of_glyph hglyph _
    | true =>
      cases rest with
      | nil => exact .inr (by simp [pieceChars])
      | cons next rest =>
        have hnext : next.1.isAtom = false := by
          by_contra hnext
          exact hparted next rfl hatom (by simpa using hnext) (String.toList_eq_nil_iff.mp hempty)
        obtain ⟨c, hglyph⟩ := exists_glyph hnext
        have hhead : isAlphanumeric c = false := isAlphanumeric_of_ofGlyph? hglyph
        exact .inr (by simpa [pieceChars, text_of_ofGlyph? hglyph] using hhead)
  · exact (apart_of_blanks_left hgap _).append_left hempty _

theorem scans_pieceChars {pieces : List (Token × String)}
    (hnames : ∀ name gap, (.atom name, gap) ∈ pieces → Text.IsAtomName name)
    (hgaps : ∀ piece ∈ pieces, ∀ c ∈ piece.2.toList, isBlank c = true)
    (hparted : pieces.IsChain fun piece next =>
      piece.1.isAtom = true → next.1.isAtom = true → piece.2 ≠ "") :
    Scans (pieceChars pieces) (pieces.map Prod.fst) := by
  induction pieces with
  | nil => exact scans_blanks (by simp [pieceChars])
  | cons piece rest ih =>
    obtain ⟨hgap, hgaps⟩ := List.forall_mem_cons.mp hgaps
    obtain ⟨hnext, hparted⟩ := List.isChain_cons.mp hparted
    have htoken : Scans piece.1.text.toList [piece.1] := scans_text fun name hname =>
      hnames name piece.2 (by simp [← hname])
    have hpiece := htoken.append (scans_blanks hgap) (apart_of_blanks_right hgap _)
    have hrest := ih (fun name gap hmem => hnames name gap (List.mem_cons_of_mem _ hmem)) hgaps
      hparted
    exact hpiece.append hrest (apart_pieceChars hgap hnext)

theorem tokenize_laidOut {lead : String} {pieces : List (Token × String)}
    (h : IsLayout lead pieces) : tokenize (laidOut lead pieces) = .ok (pieces.map Prod.fst) := by
  rw [tokenize, toList_laidOut, scan_blanks_append h.lead_blank]
  exact scans_pieceChars h.names h.gaps_blank h.parted _

/-- Texts with a space between neighbours have the tokens of each in turn. -/
theorem scans_intercalate {α : Type} {items : List α} {text : α → String} {tokens : α → List Token}
    (hitems : ∀ item ∈ items, Scans (text item).toList (tokens item)) :
    Scans (String.intercalate " " (items.map text)).toList (items.flatMap tokens) := by
  induction items with
  | nil => exact scans_blanks (by simp)
  | cons item rest ih =>
    obtain ⟨hitem, hitems⟩ := List.forall_mem_cons.mp hitems
    cases rest with
    | nil => simpa using hitem
    | cons next rest =>
      have hpiece := hitem.append (scans_blanks isBlank_of_mem_space)
        (apart_of_blanks_right isBlank_of_mem_space _)
      have hapart := (apart_of_blanks_left isBlank_of_mem_space
        (String.intercalate " " ((next :: rest).map text)).toList).append_left
        (List.cons_ne_nil _ _) (text item).toList
      simpa [String.intercalate_cons_cons] using hpiece.append (ih hitems) hapart

/-- A space between any two tokens is enough to read them back. -/
theorem scans_spaced {tokens : List Token}
    (hnames : ∀ name, .atom name ∈ tokens → Text.IsAtomName name) :
    Scans (spaced tokens).toList tokens := by
  have htokens : ∀ token ∈ tokens, Scans token.text.toList [token] := fun token htoken =>
    scans_text fun name hname => hnames name (hname ▸ htoken)
  simpa [spaced] using scans_intercalate htokens

/-- The tokens that the parser leaves over can be read back from the error that tells of them. -/
theorem tokenize_of_trailingTokens {tokens : List Token} {text : String}
    (hnames : ∀ name, .atom name ∈ tokens → Text.IsAtomName name)
    (h : Formula.ofTokens tokens = .error (.trailingTokens text)) :
    ∃ parsed, Formula.Parser.disjunction Formula.depthLimit tokens = .ok parsed ∧
      tokenize text = .ok parsed.rest := by
  obtain ⟨rest, hleaves, rfl⟩ := Formula.ofTokens_eq_trailingTokens_iff.mp h
  obtain ⟨formula, height, hparsed⟩ := hleaves.disjunction_eq
  obtain ⟨front, rfl, _⟩ := hleaves
  exact ⟨_, hparsed, scans_spaced (fun name hmem => hnames name (List.mem_append_right _ hmem)) 0⟩

end Layout

/-- Texts of which the first does not end or the second does not begin with an alphanumeric
    character are read one after the other, and an error of the second is found as many characters
    further on as the first has. So tokens are read back from any text in which they are written
    with blanks around them, and from the error about those that a parser left over. -/
theorem tokenize_append_and_layout :
    (∀ front back : String, Apart front.toList back.toList →
      tokenize (front ++ back) =
        match tokenize front, tokenize back with
        | .error error, _ => .error error
        | .ok _, .error error => .error (error.shiftedBy front.length)
        | .ok tokens, .ok more => .ok (tokens ++ more)) ∧
    (∀ lead pieces, IsLayout lead pieces →
      tokenize (laidOut lead pieces) = .ok (pieces.map Prod.fst)) ∧
    ∀ tokens text, (∀ name, .atom name ∈ tokens → Text.IsAtomName name) →
      Formula.ofTokens tokens = .error (.trailingTokens text) →
      ∃ parsed, Formula.Parser.disjunction Formula.depthLimit tokens = .ok parsed ∧
        tokenize text = .ok parsed.rest := by
  refine ⟨fun front back hapart => ?_, fun lead pieces => tokenize_laidOut,
    fun tokens text => tokenize_of_trailingTokens⟩
  rw [tokenize_append hapart]
  cases tokenize front with
  | error error => rfl
  | ok tokens => cases tokenize back <;> rfl

/-- The low line of `A ∧B_` stands at position 1 of `B_` and so at position 4 of the whole. -/
theorem tokenize_append_and_layout_mixed :
    tokenize ("A ∧" ++ "B_") = .error (.unexpectedCharacter '_' 4) ∧
      tokenize (laidOut "\t" [(.atom "A", "\n "), (.atom "B2", ""), (.or, ""), (.atom "é", "")]) =
        .ok [.atom "A", .atom "B2", .or, .atom "é"] ∧
      ∃ parsed, Formula.Parser.disjunction Formula.depthLimit
          [.atom "A", .atom "B", .and, .atom "C"] = .ok parsed ∧
        tokenize "B ∧ C" = .ok parsed.rest := by
  obtain ⟨hconcatenation, hlayout, htrailing⟩ := tokenize_append_and_layout
  have hglyph : isAlphanumeric '∧' = false := by decide +kernel
  have hapart : Apart "A ∧".toList "B_".toList := .inl (by simpa using hglyph)
  have herror : tokenize "B_" = .error (.unexpectedCharacter '_' 1) := by decide +kernel
  have htokens : tokenize "A B ∧ C" = .ok [.atom "A", .atom "B", .and, .atom "C"] := by
    decide +kernel
  have hblanks : isBlank '\t' = true ∧ isBlank '\n' = true ∧ isBlank ' ' = true := by
    decide +kernel
  refine ⟨?_, hlayout _ _ ⟨?_, ?_, ?_, by decide⟩,
    htrailing _ _ (fun name => isAtomName_of_scan htokens) (by decide +kernel)⟩
  · rw [hconcatenation _ _ hapart, herror]
    decide +kernel
  · intro name gap hmem
    have hname : name = "A" ∨ name = "B2" ∨ name = "é" := by
      simpa using List.mem_map_of_mem (f := Prod.fst) hmem
    rcases hname with rfl | rfl | rfl
    all_goals decide +kernel
  · simpa using hblanks.1
  · simp [hblanks.2.1, hblanks.2.2]

end Token

end ForwardChaining
