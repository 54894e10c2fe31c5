import ForwardChaining.Proofs.Json.Grammar

namespace ForwardChaining.Json

/-- The bytes of a text. -/
def utf8 (text : String) : List UInt8 :=
  text.toUTF8.data.toList

theorem utf8_ofList (chars : List Char) :
    utf8 (String.ofList chars) = chars.flatMap String.utf8EncodeChar := by
  rw [utf8, String.toUTF8, String.toByteArray_ofList, List.utf8Encode, List.data_toByteArray]

theorem utf8_eq_flatMap (text : String) :
    utf8 text = text.toList.flatMap String.utf8EncodeChar := by
  rw [← utf8_ofList, String.ofList_toList]

@[simp] theorem utf8_append (text more : String) :
    utf8 (text ++ more) = utf8 text ++ utf8 more := by
  simp [utf8_eq_flatMap]

theorem fromUTF8?_utf8 (chars : List Char) :
    String.fromUTF8? ⟨(chars.flatMap String.utf8EncodeChar).toArray⟩ =
      some (String.ofList chars) := by
  have hbytes : (⟨(chars.flatMap String.utf8EncodeChar).toArray⟩ : ByteArray) =
      (String.ofList chars).toByteArray := by
    rw [String.toByteArray_ofList, List.utf8Encode]
    exact ByteArray.ext List.data_toByteArray.symm
  rw [hbytes, String.fromUTF8?, dif_pos (String.ofList chars).isValidUTF8]
  rfl

theorem utf8EncodeChar_of_ascii {c : Char} (h : c.toNat < 0x80) :
    String.utf8EncodeChar c = [UInt8.ofNat c.toNat] :=
  if_pos (Nat.le_of_lt_succ h)

/-- Beyond ASCII no byte of a character is one of ASCII. -/
theorem le_of_mem_utf8EncodeChar {c : Char} (h : 0x80 ≤ c.toNat) {byte : UInt8}
    (hmem : byte ∈ String.utf8EncodeChar c) : 0x80 ≤ byte.toNat := by
  have hascii : ¬ c.val.toNat ≤ 127 := Nat.not_le.mpr h
  simp only [String.utf8EncodeChar, if_neg hascii] at hmem
  split at hmem
  · rcases (by simpa using hmem) with rfl | rfl <;> simp <;> omega
  · split at hmem
    · rcases (by simpa using hmem) with rfl | rfl | rfl <;> simp <;> omega
    · rcases (by simpa using hmem) with rfl | rfl | rfl | rfl <;> simp <;> omega

theorem IsUnit.exists_eq {digits : List UInt8} {code : Nat} (h : IsUnit digits code) :
    ∃ d₁ d₂ d₃ d₄, digits = [d₁, d₂, d₃, d₄] := by
  obtain ⟨hlength, _⟩ := h
  match digits, hlength with
  | [d₁, d₂, d₃, d₄], _ => exact ⟨d₁, d₂, d₃, d₄, rfl⟩

/-- A string whose text is not kept is taken up to its closing quote. -/
theorem IsBody.takes_skip {body : List UInt8} (h : IsBody body) :
    Takes SkipText.step .plain body .plain := by
  induction h with
  | nil => exact .nil _
  | plain hquote hbackslash hcontrol _ ih =>
    exact .cons (by simp [SkipText.step, hquote, hbackslash, hcontrol]) ih
  | @short letter byte rest hletter _ ih =>
    have hmark : letter ≠ Byte.unitMark := by
      rintro rfl
      cases hletter
    have hescape : SkipText.escape.step letter = some (.more .plain) := by
      simp [SkipText.step, hmark, hletter]
    exact .cons rfl (.cons hescape ih)
  | @unit digits rest code hunit _ ih =>
    obtain ⟨d₁, d₂, d₃, d₄, rfl⟩ := hunit.exists_eq
    have hcode : SkipText.step (.digits [d₁, d₂, d₃]) d₄ = some (.more .plain) := by
      simp [SkipText.step, hunit.2]
    exact .cons rfl (.cons rfl (.cons rfl (.cons rfl (.cons rfl (.cons hcode ih)))))

namespace TextScan

/-- The next byte begins a character, or has to begin the second half of one. -/
def AtChar (scan : TextScan) : Prop :=
  scan.phase = .plain ∨ ∃ lead, scan.phase = .pair lead

variable (kept : List UInt8)

theorem step_of_plain {byte : UInt8} (hquote : byte ≠ Byte.quote)
    (hbackslash : byte ≠ Byte.backslash) (hcontrol : Byte.isControl byte = false) :
    step ⟨.plain, kept⟩ byte = some (.more ⟨.plain, byte :: kept⟩) := by
  simp [step, hquote, hbackslash, hcontrol]

theorem step_of_escape {letter byte : UInt8} (hletter : Byte.unescape? letter = some byte) :
    step ⟨.escape, kept⟩ letter = some (.more ⟨.plain, byte :: kept⟩) := by
  have hmark : letter ≠ Byte.unitMark := by
    rintro rfl
    cases hletter
  simp [step, hmark, hletter]

/-- What four digits spell is looked at with the last of them. -/
theorem takes_unit {digits : List UInt8} {code : Nat} (h : IsUnit digits code) :
    ∃ front last state, digits = front ++ [last] ∧
      Takes step ⟨.plain, kept⟩ (Byte.backslash :: Byte.unitMark :: front) state ∧
      state.step last = ((⟨.plain, kept⟩ : TextScan).unit code).map .more := by
  obtain ⟨d₁, d₂, d₃, d₄, rfl⟩ := h.exists_eq
  refine ⟨[d₁, d₂, d₃], d₄, ⟨.digits [d₁, d₂, d₃], kept⟩, rfl, ?_, ?_⟩
  · exact .cons rfl (.cons rfl (.cons rfl (.cons rfl (.cons rfl (.nil _)))))
  · change (Byte.hexNumber? [d₁, d₂, d₃, d₄] >>= fun code =>
      (⟨.plain, kept⟩ : TextScan).unit code >>= fun next => some (Scan.more next)) = _
    rw [h.2]
    exact Option.map_eq_bind.symm

theorem takes_pairUnit (lead : Nat) {digits : List UInt8} {code : Nat} (h : IsUnit digits code) :
    ∃ front last state, digits = front ++ [last] ∧
      Takes step ⟨.pair lead, kept⟩ (Byte.backslash :: Byte.unitMark :: front) state ∧
      state.step last = ((⟨.plain, kept⟩ : TextScan).pairUnit lead code).map .more := by
  obtain ⟨d₁, d₂, d₃, d₄, rfl⟩ := h.exists_eq
  refine ⟨[d₁, d₂, d₃], d₄, ⟨.pairDigits lead [d₁, d₂, d₃], kept⟩, rfl, ?_, ?_⟩
  · exact .cons rfl (.cons rfl (.cons rfl (.cons rfl (.cons rfl (.nil _)))))
  · change (Byte.hexNumber? [d₁, d₂, d₃, d₄] >>= fun code =>
      (⟨.plain, kept⟩ : TextScan).pairUnit lead code >>= fun next => some (Scan.more next)) = _
    rw [h.2]
    exact Option.map_eq_bind.symm

theorem AtChar.step_quote {scan : TextScan} (h : scan.AtChar) :
    scan.step Byte.quote = none ∨ ∃ text, scan.step Byte.quote = some (.last text) := by
  obtain ⟨phase, kept⟩ := scan
  rcases h with rfl | ⟨lead, rfl⟩
  · change Option.map Scan.last _ = none ∨ ∃ text, Option.map Scan.last _ = _
    cases TextScan.text? ⟨.plain, kept⟩ with
    | none => exact .inl rfl
    | some text => exact .inr ⟨text, rfl⟩
  · exact .inl rfl

theorem atChar_of_unit {scan next : TextScan} {code : Nat} (h : scan.unit code = some next) :
    next.AtChar := by
  unfold unit at h
  split at h
  · cases h
  · split at h
    · cases h
      exact .inr ⟨code, rfl⟩
    · cases h
      exact .inl rfl

theorem atChar_of_pairUnit {scan next : TextScan} {lead code : Nat}
    (h : scan.pairUnit lead code = some next) : next.AtChar := by
  unfold pairUnit at h
  split at h
  · cases h
    exact .inl rfl
  · cases h

theorem takes_plain {bytes : List UInt8}
    (hbytes : ∀ byte ∈ bytes,
      byte ≠ Byte.quote ∧ byte ≠ Byte.backslash ∧ Byte.isControl byte = false) :
    Takes step ⟨.plain, kept⟩ bytes ⟨.plain, bytes.reverse ++ kept⟩ := by
  induction bytes generalizing kept with
  | nil => exact .nil _
  | cons byte rest ih =>
    obtain ⟨⟨hquote, hbackslash, hcontrol⟩, hrest⟩ := List.forall_mem_cons.mp hbytes
    rw [List.reverse_cons, List.append_assoc]
    exact .cons (step_of_plain kept hquote hbackslash hcontrol) (ih _ hrest)

end TextScan

theorem isPlain_of_mem_utf8EncodeChar {c : Char} (hquote : c ≠ '"') (hbackslash : c ≠ '\\')
    (hcontrol : 0x20 ≤ c.toNat) {byte : UInt8} (hmem : byte ∈ String.utf8EncodeChar c) :
    byte ≠ Byte.quote ∧ byte ≠ Byte.backslash ∧ Byte.isControl byte = false := by
  have hcode : (c.toNat < 0x80 ∧ byte.toNat = c.toNat) ∨ 0x80 ≤ byte.toNat := by
    rcases Nat.lt_or_ge c.toNat 0x80 with hascii | hbeyond
    · rw [utf8EncodeChar_of_ascii hascii, List.mem_singleton] at hmem
      refine .inl ⟨hascii, ?_⟩
      rw [hmem, UInt8.toNat_ofNat']
      omega
    · exact .inr (le_of_mem_utf8EncodeChar hbeyond hmem)
  have hne : ∀ special : Char, special.toNat < 0x80 → c ≠ special →
      byte ≠ UInt8.ofNat special.toNat := by
    rintro special hspecial hc rfl
    rw [UInt8.toNat_ofNat'] at hcode
    rcases hcode with ⟨_, heq⟩ | hbeyond
    · exact hc (Char.toNat_inj.mp (by omega))
    · omega
  refine ⟨hne '"' (by decide) hquote, hne '\\' (by decide) hbackslash, ?_⟩
  simp only [Byte.isControl, decide_eq_false_iff_not, UInt8.lt_iff_toNat_lt, UInt8.reduceToNat]
  omega

/-- The character that a short escape stands for is the byte it stands for. -/
theorem utf8EncodeChar_of_unescape? {letter byte : UInt8}
    (hletter : Byte.unescape? letter = some byte) :
    String.utf8EncodeChar (Char.ofNat byte.toNat) = [byte] := by
  unfold Byte.unescape? at hletter
  split at hletter
  · rename_i hself
    cases hletter
    have hcases : letter = Byte.quote ∨ letter = Byte.backslash ∨ letter = Byte.slash := by
      simpa [or_assoc] using hself
    rcases hcases with rfl | rfl | rfl <;> rfl
  · repeat' split at hletter
    all_goals
      cases hletter
      try rfl

/-- A string is taken up to its closing quote, and the bytes of its text are kept. -/
theorem Spells.takes {body : List UInt8} {chars : List Char} (h : Spells body chars)
    (kept : List UInt8) :
    Takes TextScan.step ⟨.plain, kept⟩ body
      ⟨.plain, (chars.flatMap String.utf8EncodeChar).reverse ++ kept⟩ := by
  induction h generalizing kept with
  | nil => exact .nil _
  | plain hquote hbackslash hcontrol _ ih =>
    rw [List.flatMap_cons, List.reverse_append, List.append_assoc]
    exact (TextScan.takes_plain kept fun byte =>
      isPlain_of_mem_utf8EncodeChar hquote hbackslash hcontrol).append (ih _)
  | short hletter _ ih =>
    rw [List.flatMap_cons, utf8EncodeChar_of_unescape? hletter, List.reverse_append,
      List.append_assoc]
    exact .cons rfl (.cons (TextScan.step_of_escape kept hletter) (ih _))
  | @unit digits rest code chars hunit hvalid _ ih =>
    rw [List.flatMap_cons, List.reverse_append, List.append_assoc]
    obtain ⟨front, last, state, rfl, htakes, hlast⟩ := TextScan.takes_unit kept hunit
    have hpush : (⟨.plain, kept⟩ : TextScan).unit code =
        some (TextScan.push ⟨.plain, kept⟩ code) := by
      unfold TextScan.unit
      rw [if_neg (by simp; omega), if_neg (by simp; omega)]
    rw [hpush] at hlast
    have hrest := htakes.append (.cons hlast (ih _))
    simpa using hrest
  | @pair digits digits' rest lead trail chars hlead htrail hleads htrails _ ih =>
    rw [List.flatMap_cons, List.reverse_append, List.append_assoc]
    obtain ⟨front, last, state, rfl, htakes, hlast⟩ := TextScan.takes_unit kept hlead
    obtain ⟨front', last', state', rfl, htakes', hlast'⟩ :=
      TextScan.takes_pairUnit kept lead htrail
    have hpair : (⟨.plain, kept⟩ : TextScan).unit lead = some ⟨.pair lead, kept⟩ := by
      unfold TextScan.unit
      rw [if_neg (by simp; omega), if_pos (by simp; omega)]
    have hpush : (⟨.plain, kept⟩ : TextScan).pairUnit lead trail =
        some (TextScan.push ⟨.plain, kept⟩
          (0x10000 + (lead - 0xD800) * 0x400 + (trail - 0xDC00))) := by
      unfold TextScan.pairUnit
      rw [if_pos (by simp; omega)]
    rw [hpair] at hlast
    rw [hpush] at hlast'
    have hrest := htakes.append (.cons hlast (htakes'.append (.cons hlast' (ih _))))
    simpa using hrest

theorem TextScan.step_quote (chars : List Char) :
    TextScan.step ⟨.plain, (chars.flatMap String.utf8EncodeChar).reverse⟩ Byte.quote =
      some (.last (String.ofList chars)) := by
  change Option.map Scan.last (TextScan.text? _) = _
  rw [TextScan.text?, List.reverse_reverse, fromUTF8?_utf8]
  rfl

theorem IsBody.append_plain {bytes rest : List UInt8}
    (hbytes : ∀ byte ∈ bytes,
      byte ≠ Byte.quote ∧ byte ≠ Byte.backslash ∧ Byte.isControl byte = false)
    (hrest : IsBody rest) : IsBody (bytes ++ rest) := by
  induction bytes with
  | nil => exact hrest
  | cons byte bytes ih =>
    obtain ⟨⟨hquote, hbackslash, hcontrol⟩, hbytes⟩ := List.forall_mem_cons.mp hbytes
    exact .plain hquote hbackslash hcontrol (ih hbytes)

theorem Spells.isBody {body : List UInt8} {chars : List Char} (h : Spells body chars) :
    IsBody body := by
  induction h with
  | nil => exact .nil
  | plain hquote hbackslash hcontrol _ ih =>
    exact .append_plain (fun _ => isPlain_of_mem_utf8EncodeChar hquote hbackslash hcontrol) ih
  | short hletter _ ih => exact .short hletter ih
  | unit hunit _ _ ih => exact .unit hunit ih
  | pair hlead htrail _ _ _ ih => exact .unit hlead (.unit htrail ih)

/-- A string that is well formed but need not spell a text is either refused or taken up to its
    closing quote: none of its bytes is mistaken for that quote. -/
theorem IsBody.takes_or_refuses {body : List UInt8} (h : IsBody body) {scan : TextScan}
    (hscan : scan.AtChar) :
    Refuses TextScan.step scan body ∨
      ∃ final, final.AtChar ∧ Takes TextScan.step scan body final := by
  induction h generalizing scan with
  | nil => exact .inr ⟨scan, hscan, .nil scan⟩
  | @plain byte rest hquote hbackslash hcontrol _ ih =>
    obtain ⟨phase, kept⟩ := scan
    rcases hscan with rfl | ⟨lead, rfl⟩
    · have hstep := TextScan.step_of_plain kept hquote hbackslash hcontrol
      rcases @ih ⟨.plain, byte :: kept⟩ (.inl rfl) with hrefuses | ⟨final, hfinal, htakes⟩
      · exact .inl (hrefuses.after (.cons hstep (.nil _)))
      · exact .inr ⟨final, hfinal, .cons hstep htakes⟩
    · refine .inl ⟨[], byte, rest, _, rfl, .nil _, ?_⟩
      simp [TextScan.step, hbackslash]
  | @short letter byte rest hletter _ ih =>
    obtain ⟨phase, kept⟩ := scan
    rcases hscan with rfl | ⟨lead, rfl⟩
    · have hstep : Takes TextScan.step ⟨.plain, kept⟩ [Byte.backslash, letter]
          ⟨.plain, byte :: kept⟩ :=
        .cons rfl (.cons (TextScan.step_of_escape kept hletter) (.nil _))
      rcases @ih ⟨.plain, byte :: kept⟩ (.inl rfl) with hrefuses | ⟨final, hfinal, htakes⟩
      · exact .inl (hrefuses.after hstep)
      · exact .inr ⟨final, hfinal, hstep.append htakes⟩
    · have hmark : letter ≠ Byte.unitMark := by
        rintro rfl
        cases hletter
      refine .inl ⟨[Byte.backslash], letter, rest, ⟨.pairMark lead, kept⟩, rfl,
        .cons rfl (.nil _), ?_⟩
      simp [TextScan.step, hmark]
  | @unit digits rest code hunit _ ih =>
    obtain ⟨phase, kept⟩ := scan
    -- Either way the four digits give a state among the characters or are refused.
    have hunits : ∃ front last state next?, digits = front ++ [last] ∧
        Takes TextScan.step ⟨phase, kept⟩ (Byte.backslash :: Byte.unitMark :: front) state ∧
        state.step last = Option.map Scan.more next? ∧ ∀ next ∈ next?, next.AtChar := by
      rcases hscan with rfl | ⟨lead, rfl⟩
      · obtain ⟨front, last, state, hdigits, htakes, hlast⟩ := TextScan.takes_unit kept hunit
        exact ⟨front, last, state, _, hdigits, htakes, hlast, fun next => TextScan.atChar_of_unit⟩
      · obtain ⟨front, last, state, hdigits, htakes, hlast⟩ :=
          TextScan.takes_pairUnit kept lead hunit
        exact ⟨front, last, state, _, hdigits, htakes, hlast,
          fun next => TextScan.atChar_of_pairUnit⟩
    obtain ⟨front, last, state, next?, rfl, htakes, hlast, hnext⟩ := hunits
    cases next? with
    | none => exact .inl ⟨_, last, rest, state, by simp, htakes, hlast⟩
    | some next =>
      have hall : Takes TextScan.step ⟨phase, kept⟩
          (Byte.backslash :: Byte.unitMark :: (front ++ [last])) next :=
        htakes.append (.cons hlast (.nil _))
      rcases ih (hnext next rfl) with hrefuses | ⟨final, hfinal, hrest⟩
      · exact .inl (hrefuses.after hall)
      · exact .inr ⟨final, hfinal, hall.append hrest⟩

end ForwardChaining.Json
