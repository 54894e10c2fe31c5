import Mathlib.Data.List.TakeWhile
import Mathlib.Order.Bounds.Basic
import ForwardChaining.Proofs.Token.Concatenation

namespace ForwardChaining.Token

open Text (isAlphanumeric isBlank)

/-- The characters that are tokens by themselves. -/
def glyphs : List Char :=
  ['(', ')', '∧', '∨', '¬']

/-- Whether a character neither separates tokens nor belongs to one. -/
def isForeign (c : Char) : Bool :=
  !isBlank c && !glyphs.contains c && !isAlphanumeric c

theorem isForeign_iff {c : Char} :
    isForeign c = true ↔ isBlank c = false ∧ c ∉ glyphs ∧ isAlphanumeric c = false := by
  simp [isForeign, and_assoc]

theorem ofGlyph?_eq_none_iff {c : Char} : ofGlyph? c = none ↔ c ∉ glyphs := by
  unfold ofGlyph? glyphs
  split <;> simp_all

theorem text_of_ofGlyph? {c : Char} {token : Token} (hglyph : ofGlyph? c = some token) :
    token.text.toList = [c] := by
  unfold ofGlyph? at hglyph
  split at hglyph
  all_goals cases hglyph
  all_goals rfl

theorem isBlank_of_ofGlyph? {c : Char} {token : Token} (hglyph : ofGlyph? c = some token) :
    isBlank c = false := by
  have hmem : c ∈ glyphs := by
    by_contra hnot
    simp [ofGlyph?_eq_none_iff.mpr hnot] at hglyph
  have hall : glyphs.all (!isBlank ·) = true := by decide +kernel
  simpa using List.all_eq_true.mp hall c hmem

section Refusal

/-- A text without a foreign character has tokens. -/
theorem exists_scan {chars : List Char} (hchars : ∀ c ∈ chars, isForeign c = false)
    (position : Nat) : ∃ tokens, scan position chars = .ok tokens := by
  fun_induction scan position chars with
  | case1 position => exact ⟨[], rfl⟩
  | case2 position c rest hblank ih => exact ih (List.forall_mem_cons.mp hchars).2
  | case3 position c rest hblank token hglyph ih =>
    obtain ⟨tokens, htokens⟩ := ih (List.forall_mem_cons.mp hchars).2
    exact ⟨token :: tokens, by rw [htokens]; rfl⟩
  | case4 position c rest hblank hglyph halpha run ih =>
    have hrest : ∀ d ∈ rest.dropWhile isAlphanumeric, isForeign d = false := fun d hd =>
      (List.forall_mem_cons.mp hchars).2 d ((List.dropWhile_suffix _).mem hd)
    obtain ⟨tokens, htokens⟩ := ih hrest
    exact ⟨.atom (String.ofList (c :: run)) :: tokens, by rw [htokens]; rfl⟩
  | case5 position c rest hblank hglyph halpha =>
    have hforeign : isForeign c = true := isForeign_iff.mpr
      ⟨by simpa using hblank, ofGlyph?_eq_none_iff.mp hglyph, by simpa using halpha⟩
    rw [hchars c List.mem_cons_self] at hforeign
    cases hforeign

/-- The first foreign character of a text is refused. -/
theorem scan_foreign {front back : List Char} {c : Char}
    (hfront : ∀ d ∈ front, isForeign d = false) (hc : isForeign c = true) (position : Nat) :
    scan position (front ++ c :: back) =
      .error (.unexpectedCharacter c (position + front.length)) := by
  obtain ⟨hblank, hglyph, halpha⟩ := isForeign_iff.mp hc
  obtain ⟨tokens, htokens⟩ := exists_scan hfront position
  have hapart : Apart front (c :: back) := .inr (by simpa using halpha)
  have hback : scan (position + front.length) (c :: back) =
      .error (.unexpectedCharacter c (position + front.length)) := by
    rw [scan, if_neg (by simp [hblank]), ofGlyph?_eq_none_iff.mpr hglyph]
    simp [halpha]
  rw [scan_append hapart, htokens, hback]
  rfl

/-- The text is read up to its first foreign character, if it has one. -/
theorem scan_cases (position : Nat) (chars : List Char) :
    ((∀ c ∈ chars, isForeign c = false) ∧ ∃ tokens, scan position chars = .ok tokens) ∨
      ∃ front c back, chars = front ++ c :: back ∧ (∀ d ∈ front, isForeign d = false) ∧
        isForeign c = true ∧
        scan position chars = .error (.unexpectedCharacter c (position + front.length)) := by
  cases hfind : chars.find? isForeign with
  | none =>
    have hchars : ∀ c ∈ chars, isForeign c = false := by simpa using hfind
    exact .inl ⟨hchars, exists_scan hchars position⟩
  | some c =>
    obtain ⟨hc, front, back, rfl, hfront⟩ := List.find?_eq_some_iff_append.mp hfind
    have hfront : ∀ d ∈ front, isForeign d = false := by simpa using hfront
    exact .inr ⟨front, c, back, rfl, hfront, hc, scan_foreign hfront hc position⟩

theorem isForeign_of_scan {position : Nat} {chars : List Char} {tokens : List Token}
    (hscan : scan position chars = .ok tokens) : ∀ c ∈ chars, isForeign c = false := by
  rcases scan_cases position chars with ⟨hchars, _⟩ | ⟨front, c, back, _, _, _, herror⟩
  · exact hchars
  · rw [hscan] at herror
    cases herror

/-- What nothing before it is found to be is first found at its own place. -/
theorem isLeast_places {found : Char → Prop} {front : List Char} {c : Char}
    (hfront : ∀ d ∈ front, ¬ found d) (hc : found c) (back : List Char) :
    IsLeast {index | ∃ d, (front ++ c :: back)[index]? = some d ∧ found d} front.length := by
  constructor
  · exact ⟨c, by simp, hc⟩
  · rintro index ⟨d, hd, hfound⟩
    by_contra hbefore
    have hlt : index < front.length := Nat.lt_of_not_le hbefore
    rw [List.getElem?_append_left hlt] at hd
    exact hfront d (List.mem_of_getElem? hd) hfound

/-- The places of foreign characters in a text. -/
def foreignPlaces (chars : List Char) : Set Nat :=
  {index | ∃ c, chars[index]? = some c ∧ isForeign c = true}

theorem isLeast_foreignPlaces {front : List Char} {c : Char}
    (hfront : ∀ d ∈ front, isForeign d = false) (hc : isForeign c = true) (back : List Char) :
    IsLeast (foreignPlaces (front ++ c :: back)) front.length :=
  isLeast_places (fun d hd => by simp [hfront d hd]) hc back

theorem tokenize_eq_error_iff {text : String} {c : Char} {position : Nat} :
    tokenize text = .error (.unexpectedCharacter c position) ↔
      IsLeast (foreignPlaces text.toList) position ∧ text.toList[position]? = some c := by
  rcases scan_cases 0 text.toList with ⟨hchars, tokens, hscan⟩ |
    ⟨front, first, back, htext, hfront, hfirst, hscan⟩
  · rw [tokenize, hscan]
    refine iff_of_false nofun ?_
    rintro ⟨⟨⟨d, hd, hforeign⟩, _⟩, _⟩
    rw [hchars d (List.mem_of_getElem? hd)] at hforeign
    cases hforeign
  · have hleast := isLeast_foreignPlaces hfront hfirst back
    rw [tokenize, hscan, htext, Nat.zero_add]
    constructor
    · intro herror
      cases herror
      exact ⟨hleast, by simp⟩
    · rintro ⟨hleast', hc⟩
      obtain rfl : position = front.length := hleast'.unique hleast
      obtain rfl : first = c := by simpa using hc
      rfl

end Refusal

section Lexemes

variable {chars front back before after lexeme : List Char} {start : Nat} {token : Token}

theorem Apart.of_leading (h : Apart front back) (hleading : lexeme <+: back) :
    Apart front lexeme := by
  obtain ⟨rest, rfl⟩ := hleading
  cases lexeme with
  | nil => exact .inr (by simp)
  | cons c lexeme => exact h.imp_right fun hhead => by simpa using hhead

theorem Apart.append_left (h : Apart before lexeme) (hne : before ≠ []) (front : List Char) :
    Apart (front ++ before) lexeme := by
  refine h.imp_left fun hlast => ?_
  rwa [List.getLast?_append_of_ne_nil _ hne]

theorem Apart.append_right (h : Apart lexeme after) (hne : after ≠ []) (back : List Char) :
    Apart lexeme (after ++ back) := by
  refine h.imp_right fun hhead => ?_
  rwa [List.head?_append_of_ne_nil _ hne]

/-- Between alphanumeric characters no two parts of a text are apart. -/
theorem not_apart_of_isAlphanumeric (hfront : front ≠ []) (hback : back ≠ [])
    (hall : ∀ c ∈ front ++ back, isAlphanumeric c = true) : ¬ Apart front back := by
  rintro (hlast | hhead)
  · have hfalse := hlast _ (List.getLast?_eq_some_getLast hfront)
    rw [hall _ (List.mem_append_left _ (List.getLast_mem hfront))] at hfalse
    cases hfalse
  · have hfalse := hhead _ (List.head?_eq_some_head hback)
    rw [hall _ (List.mem_append_right _ (List.head_mem hback))] at hfalse
    cases hfalse

/-- The characters between the others are a lexeme of the token: its glyph, or its name if that is
    all of a run of alphanumeric characters. -/
inductive IsLexeme (before after : List Char) : List Char → Token → Prop where
  | glyph {c : Char} {token : Token} (hglyph : ofGlyph? c = some token) :
      IsLexeme before after [c] token
  | run {run : List Char} (hne : run ≠ []) (hrun : ∀ c ∈ run, isAlphanumeric c = true)
      (hbefore : ∀ c ∈ before.getLast?, isAlphanumeric c = false)
      (hafter : ∀ c ∈ after.head?, isAlphanumeric c = false) :
      IsLexeme before after run (.atom (String.ofList run))

/-- A lexeme of the token begins in the text at the position. -/
def StandsAt (chars : List Char) (start : Nat) (token : Token) : Prop :=
  ∃ before lexeme after, chars = before ++ lexeme ++ after ∧ before.length = start ∧
    IsLexeme before after lexeme token

theorem IsLexeme.ne_nil (h : IsLexeme before after lexeme token) : lexeme ≠ [] := by
  cases h with
  | glyph hglyph => exact List.cons_ne_nil _ _
  | run hne => exact hne

/-- A lexeme is one wherever it stands apart from what is around it. -/
theorem isLexeme_iff : IsLexeme before after lexeme token ↔
    IsLexeme [] [] lexeme token ∧ Apart before lexeme ∧ Apart lexeme after := by
  constructor
  · intro h
    cases h with
    | glyph hglyph => exact ⟨.glyph hglyph, .of_glyph_right hglyph _, .of_glyph hglyph _⟩
    | run hne hrun hbefore hafter =>
      exact ⟨.run hne hrun (by simp) (by simp), .inl hbefore, .inr hafter⟩
  · rintro ⟨h, hbefore, hafter⟩
    cases h with
    | glyph hglyph => exact .glyph hglyph
    | run hne hrun =>
      refine .run hne hrun (hbefore.resolve_right fun hhead => ?_)
        (hafter.resolve_left fun hlast => ?_)
      · simpa [hrun _ (List.head_mem hne)] using hhead _ (List.head?_eq_some_head hne)
      · simpa [hrun _ (List.getLast_mem hne)] using hlast _ (List.getLast?_eq_some_getLast hne)

/-- No lexeme runs across the place where two texts are apart. -/
theorem IsLexeme.not_across (h : IsLexeme before after (front ++ back) token)
    (hfront : front ≠ []) (hback : back ≠ []) : ¬ Apart front back := by
  generalize hlexeme : front ++ back = lexeme at h
  cases h with
  | glyph hglyph =>
    have hlength := congrArg List.length hlexeme
    have hpos := List.length_pos_iff.mpr hfront
    have hpos' := List.length_pos_iff.mpr hback
    simp only [List.length_append, List.length_singleton] at hlength
    omega
  | run hne hrun => exact not_apart_of_isAlphanumeric hfront hback (hlexeme ▸ hrun)

/-- What stands in two texts that are apart stands in one of them. -/
theorem standsAt_append (hapart : Apart front back) :
    StandsAt (front ++ back) start token ↔
      StandsAt front start token ∨ ∃ later, start = front.length + later ∧
        StandsAt back later token := by
  constructor
  · rintro ⟨before, lexeme, after, htext, rfl, hlexeme⟩
    obtain ⟨halone, hbefore, hafter⟩ := isLexeme_iff.mp hlexeme
    rw [List.append_assoc] at htext
    rcases List.append_eq_append_iff.mp htext with ⟨mid, rfl, rfl⟩ | ⟨mid, rfl, hrest⟩
    · refine .inr ⟨mid.length, List.length_append, mid, lexeme, after, ?_, rfl, ?_⟩
      · rw [List.append_assoc]
      · exact isLexeme_iff.mpr ⟨halone, hbefore.of_suffix (List.suffix_append _ _), hafter⟩
    · rcases List.append_eq_append_iff.mp hrest with ⟨rest, rfl, rfl⟩ | ⟨more, rfl, rfl⟩
      · refine .inl ⟨before, lexeme, rest, ?_, rfl, ?_⟩
        · rw [List.append_assoc]
        · exact isLexeme_iff.mpr ⟨halone, hbefore, hafter.of_leading (List.prefix_append _ _)⟩
      · -- The lexeme reaches from one text into the other, unless one part of it is empty.
        have hparts : Apart mid more :=
          (hapart.of_suffix (List.suffix_append _ _)).of_leading (List.prefix_append _ _)
        by_cases hmid : mid = []
        · subst hmid
          refine .inr ⟨0, by simp, [], more, after, by simp, rfl, ?_⟩
          exact isLexeme_iff.mpr ⟨halone, .inl (by simp), hafter⟩
        · by_cases hmore : more = []
          · subst hmore
            rw [List.append_nil] at halone hbefore
            refine .inl ⟨before, mid, [], (List.append_nil _).symm, rfl, ?_⟩
            exact isLexeme_iff.mpr ⟨halone, hbefore, .inr (by simp)⟩
          · exact absurd hparts (halone.not_across hmid hmore)
  · rintro (⟨before, lexeme, after, rfl, rfl, hlexeme⟩ |
      ⟨_, rfl, before, lexeme, after, rfl, rfl, hlexeme⟩)
    · obtain ⟨halone, hbefore, hafter⟩ := isLexeme_iff.mp hlexeme
      refine ⟨before, lexeme, after ++ back, by simp, rfl, isLexeme_iff.mpr ⟨halone, hbefore, ?_⟩⟩
      by_cases hne : after = []
      · subst hne
        rw [List.append_nil] at hapart
        exact hapart.of_suffix (List.suffix_append _ _)
      · exact hafter.append_right hne back
    · obtain ⟨halone, hbefore, hafter⟩ := isLexeme_iff.mp hlexeme
      refine ⟨front ++ before, lexeme, after, by simp, List.length_append,
        isLexeme_iff.mpr ⟨halone, ?_, hafter⟩⟩
      by_cases hne : before = []
      · subst hne
        rw [List.append_nil]
        exact hapart.of_leading (List.prefix_append _ _)
      · exact hbefore.append_left hne front

theorem StandsAt.lt_length (h : StandsAt chars start token) : start < chars.length := by
  obtain ⟨before, lexeme, after, rfl, rfl, hlexeme⟩ := h
  have hpos := List.length_pos_iff.mpr hlexeme.ne_nil
  simp only [List.length_append]
  omega

/-- A character that is not alphanumeric is the lexeme of its glyph or of nothing. -/
theorem standsAt_singleton {c : Char} (hc : isAlphanumeric c = false) :
    StandsAt [c] start token ↔ start = 0 ∧ ofGlyph? c = some token := by
  constructor
  · rintro ⟨before, lexeme, after, htext, rfl, hlexeme⟩
    have hlength := congrArg List.length htext
    have hpos := List.length_pos_iff.mpr hlexeme.ne_nil
    simp only [List.length_append, List.length_singleton] at hlength
    obtain rfl : before = [] := List.length_eq_zero_iff.mp (by omega)
    obtain rfl : after = [] := List.length_eq_zero_iff.mp (by omega)
    obtain rfl : [c] = lexeme := by simpa using htext
    cases hlexeme with
    | glyph hglyph => exact ⟨rfl, hglyph⟩
    | run hne hrun => simp [hc] at hrun
  · rintro ⟨rfl, hglyph⟩
    exact ⟨[], [c], [], rfl, rfl, .glyph hglyph⟩

/-- A run of alphanumeric characters is one lexeme, that of the atom it names. -/
theorem standsAt_run {run : List Char} (hne : run ≠ [])
    (hrun : ∀ c ∈ run, isAlphanumeric c = true) :
    StandsAt run start token ↔ start = 0 ∧ token = .atom (String.ofList run) := by
  constructor
  · rintro ⟨before, lexeme, after, rfl, rfl, hlexeme⟩
    obtain ⟨halone, hbefore, hafter⟩ := isLexeme_iff.mp hlexeme
    have hnil : before = [] := by
      by_contra hbefore'
      exact not_apart_of_isAlphanumeric hbefore' hlexeme.ne_nil
        (fun c hc => hrun c (List.mem_append_left _ hc)) hbefore
    have hnil' : after = [] := by
      by_contra hafter'
      refine not_apart_of_isAlphanumeric hlexeme.ne_nil hafter' (fun c hc => hrun c ?_) hafter
      rw [List.append_assoc]
      exact List.mem_append_right _ hc
    subst hnil hnil'
    cases halone with
    | glyph hglyph => simp [isAlphanumeric_of_ofGlyph? hglyph] at hrun
    | run hne' => simp
  · rintro ⟨rfl, rfl⟩
    exact ⟨[], run, [], by simp, rfl, .run hne hrun (by simp) (by simp)⟩

/-- The tokens are those that stand in the text, in the order of their positions. -/
def Lists (chars : List Char) (tokens : List Token) : Prop :=
  ∃ places : List (Nat × Token), places.Pairwise (·.1 < ·.1) ∧
    (∀ start token, (start, token) ∈ places ↔ StandsAt chars start token) ∧
    places.map Prod.snd = tokens

theorem Lists.append {tokens tokens' : List Token} (h : Lists front tokens)
    (h' : Lists back tokens') (hapart : Apart front back) :
    Lists (front ++ back) (tokens ++ tokens') := by
  obtain ⟨places, hsorted, hmem, rfl⟩ := h
  obtain ⟨places', hsorted', hmem', rfl⟩ := h'
  refine ⟨places ++ places'.map (Prod.map (front.length + ·) id), ?_, ?_, ?_⟩
  · rw [List.pairwise_append, List.pairwise_map]
    refine ⟨hsorted, hsorted'.imp fun hlt => Nat.add_lt_add_left hlt _, ?_⟩
    rintro ⟨start, token⟩ hplace later hlater
    obtain ⟨⟨start', token'⟩, _, rfl⟩ := List.mem_map.mp hlater
    exact Nat.lt_of_lt_of_le ((hmem _ _).mp hplace).lt_length (Nat.le_add_right _ _)
  · intro start token
    rw [standsAt_append hapart, List.mem_append, hmem, List.mem_map]
    refine or_congr Iff.rfl ⟨?_, ?_⟩
    · rintro ⟨⟨start', token'⟩, hplace, heq⟩
      cases heq
      exact ⟨start', rfl, (hmem' _ _).mp hplace⟩
    · rintro ⟨later, rfl, hstands⟩
      exact ⟨(later, token), (hmem' _ _).mpr hstands, rfl⟩
  · simp

theorem lists_nil (h : ∀ start token, ¬ StandsAt chars start token) : Lists chars [] :=
  ⟨[], .nil, fun start token => iff_of_false List.not_mem_nil (h start token), rfl⟩

theorem lists_singleton
    (h : ∀ start token', StandsAt chars start token' ↔ start = 0 ∧ token' = token) :
    Lists chars [token] := by
  refine ⟨[(0, token)], List.pairwise_singleton _ _, fun start token' => ?_, rfl⟩
  rw [h, List.mem_singleton, Prod.mk.injEq]

/-- The scan finds every lexeme of the text, in order, and nothing else. -/
theorem lists_of_scan {position : Nat} {tokens : List Token}
    (hscan : scan position chars = .ok tokens) : Lists chars tokens := by
  fun_induction scan position chars generalizing tokens with
  | case1 position =>
    cases hscan
    exact lists_nil fun start token h => absurd h.lt_length (Nat.not_lt_zero _)
  | case2 position c rest hblank ih =>
    have halpha := Text.isAlphanumeric_of_isBlank hblank
    have hnothing : Lists [c] [] := lists_nil fun start token h => by
      obtain ⟨_, hglyph⟩ := (standsAt_singleton halpha).mp h
      simp [isBlank_of_ofGlyph? hglyph] at hblank
    exact hnothing.append (ih hscan) (.inl (by simpa using halpha))
  | case3 position c rest hblank token hglyph ih =>
    obtain ⟨more, hmore, rfl⟩ := ReadError.map_eq_ok_iff.mp hscan
    have hsingle : Lists [c] [token] := lists_singleton fun start token' => by
      rw [standsAt_singleton (isAlphanumeric_of_ofGlyph? hglyph), hglyph, Option.some_inj,
        eq_comm (a := token)]
    exact hsingle.append (ih hmore) (.of_glyph hglyph rest)
  | case4 position c rest hblank hglyph halpha run =>
    rename_i ih
    obtain ⟨more, hmore, rfl⟩ := ReadError.map_eq_ok_iff.mp hscan
    have hrun : ∀ d ∈ c :: run, isAlphanumeric d = true := by
      simpa [halpha] using fun d (hd : d ∈ run) => List.mem_takeWhile_imp hd
    have hsingle : Lists (c :: run) [.atom (String.ofList (c :: run))] :=
      lists_singleton fun start token' => standsAt_run (List.cons_ne_nil c run) hrun
    have hapart : Apart (c :: run) (rest.dropWhile isAlphanumeric) := by
      refine .inr fun d hd => ?_
      have hstop := List.head?_dropWhile_not isAlphanumeric rest
      rwa [Option.mem_def.mp hd] at hstop
    have hlists := hsingle.append (ih hmore) hapart
    rwa [List.cons_append, List.takeWhile_append_dropWhile] at hlists
  | case5 position c rest hblank hglyph halpha => cases hscan

end Lexemes

/-- Written one after the other, the tokens of a text are the text without its blanks. -/
theorem flatMap_text_of_scan {position : Nat} {chars : List Char} {tokens : List Token}
    (hscan : scan position chars = .ok tokens) :
    tokens.flatMap (·.text.toList) = chars.filter (!isBlank ·) := by
  fun_induction scan position chars generalizing tokens with
  | case1 position =>
    cases hscan
    rfl
  | case2 position c rest hblank ih =>
    rw [ih hscan, List.filter_cons_of_neg (by simp [hblank])]
  | case3 position c rest hblank token hglyph ih =>
    obtain ⟨more, hmore, rfl⟩ := ReadError.map_eq_ok_iff.mp hscan
    rw [List.flatMap_cons, ih hmore, text_of_ofGlyph? hglyph,
      List.filter_cons_of_pos (by simpa using hblank), List.singleton_append]
  | case4 position c rest hblank hglyph halpha run =>
    rename_i ih
    obtain ⟨more, hmore, rfl⟩ := ReadError.map_eq_ok_iff.mp hscan
    have hrun : run.filter (!isBlank ·) = run := by
      refine List.filter_eq_self.mpr fun d hd => ?_
      simp [Text.isBlank_of_isAlphanumeric (List.mem_takeWhile_imp hd)]
    have hrest : rest.filter (!isBlank ·) =
        run ++ (rest.dropWhile isAlphanumeric).filter (!isBlank ·) := by
      conv_lhs => rw [← List.takeWhile_append_dropWhile (p := isAlphanumeric) (l := rest)]
      rw [List.filter_append, hrun]
    rw [List.flatMap_cons, ih hmore, List.filter_cons_of_pos (by simpa using hblank), hrest]
    simp [text]
  | case5 position c rest hblank hglyph halpha => cases hscan

/-- The first character that is neither blank nor a glyph nor alphanumeric is refused, with its
    position. A text without such a character has as its tokens, in order, its glyphs and an atom
    for each of its longest runs of alphanumeric characters, so that nothing but blanks is lost. -/
theorem tokenize_maximalMunch (text : String) :
    (∀ c position, tokenize text = .error (.unexpectedCharacter c position) ↔
      IsLeast (foreignPlaces text.toList) position ∧ text.toList[position]? = some c) ∧
    ((∀ c ∈ text.toList, isForeign c = false) →
      ∃ tokens, tokenize text = .ok tokens ∧ Lists text.toList tokens ∧
        String.join (tokens.map Token.text) = String.ofList (text.toList.filter (!isBlank ·))) := by
  refine ⟨fun c position => tokenize_eq_error_iff, fun hchars => ?_⟩
  obtain ⟨tokens, hscan⟩ := exists_scan hchars 0
  have hjoined : (String.join (tokens.map Token.text)).toList =
      text.toList.filter (!isBlank ·) := by
    rw [String.toList_join, List.flatMap_map, flatMap_text_of_scan hscan]
  exact ⟨tokens, hscan, lists_of_scan hscan, by rw [← hjoined, String.ofList_toList]⟩

/-- Of the full stop and the low line in `rain1∧ ¬é. A_B` the full stop is refused; what is before
    it has four tokens. -/
theorem tokenize_maximalMunch_rain :
    let text := "rain1∧ ¬é"
    IsLeast (foreignPlaces "rain1∧ ¬é. A_B".toList) 9 ∧
      ∃ tokens, tokenize text = .ok tokens ∧ Lists text.toList tokens ∧
        tokens = [.atom "rain1", .and, .not, .atom "é"] ∧
        String.join (tokens.map Token.text) = "rain1∧¬é" := by
  intro text
  have herror : tokenize "rain1∧ ¬é. A_B" = .error (.unexpectedCharacter '.' 9) := by
    decide +kernel
  have hall : text.toList.all (!isForeign ·) = true := by decide +kernel
  have hchars : ∀ c ∈ text.toList, isForeign c = false := by simpa using hall
  obtain ⟨tokens, hok, hlists, hjoined⟩ := (tokenize_maximalMunch text).2 hchars
  obtain rfl : tokens = [.atom "rain1", .and, .not, .atom "é"] := by
    have htokens : tokenize text = .ok [.atom "rain1", .and, .not, .atom "é"] := by decide +kernel
    rw [hok] at htokens
    exact Except.ok.inj htokens
  exact ⟨(((tokenize_maximalMunch _).1 '.' 9).mp herror).1, _, hok, hlists, rfl,
    hjoined.trans (by decide +kernel)⟩

end ForwardChaining.Token
