import ForwardChaining.Proofs.Json.Spelling
import ForwardChaining.RuleBase.Reader

namespace ForwardChaining.RuleBase

open Json

namespace Progress

/-- Goes on with the bytes in order. -/
def run (progress : Progress) (bytes : List UInt8) : Option Progress :=
  bytes.foldlM step progress

variable {progress next : Progress} {draft : Draft} {skip : Skip} {byte : UInt8}
  {bytes : List UInt8}

theorem run_cons (progress : Progress) (byte : UInt8) (rest : List UInt8) :
    progress.run (byte :: rest) = (progress.step byte).bind (·.run rest) :=
  List.foldlM_cons

theorem run_append (progress : Progress) (bytes more : List UInt8) :
    progress.run (bytes ++ more) = (progress.run bytes).bind (·.run more) :=
  List.foldlM_append

theorem run_cons_of (hstep : progress.step byte = some next) (rest : List UInt8) :
    progress.run (byte :: rest) = next.run rest := by
  rw [run_cons, hstep]
  rfl

theorem run_append_of (hrun : progress.run bytes = some next) (more : List UInt8) :
    progress.run (bytes ++ more) = next.run more := by
  rw [run_append, hrun]
  rfl

theorem run_singleton (progress : Progress) (byte : UInt8) :
    progress.run [byte] = progress.step byte := by
  rw [run_cons]
  cases progress.step byte <;> rfl

theorem step_skipped_more {skip' : Skip} (h : skip.step byte = some (.more skip')) :
    (skipped draft skip).step byte = some (.skipped draft skip') := by
  simp [step, h]

/-- Whether the next byte stands between two parts, where blanks may be. -/
def isBetween : Progress → Bool
  | .skipped _ ⟨phase, frames⟩ =>
    match phase with
    | .value | .key | .colon => true
    | .opened | .ended => !frames.isEmpty
    | .keyText _ | .text _ | .word _ | .number _ => false
  | .keyText _ _ | .itemText _ _ _ _ _ | .answerText _ _ _ | .misfit _ => false
  | .start | .opened _ | .key _ | .colon _ _ | .value _ _ _ | .listOpened _ _ _ | .item _ _ _ _
  | .itemEnded _ _ _ _ | .ended _ _ | .done _ => true

theorem step_of_isBetween (h : progress.isBetween = true) (hspace : Byte.isSpace byte = true) :
    progress.step byte = some progress := by
  cases progress with
  | skipped draft skip =>
    obtain ⟨phase, frames⟩ := skip
    apply step_skipped_more
    cases phase with
    | value | key | colon => simp [Skip.step, hspace]
    | opened | ended =>
      cases frames with
      | nil => cases h
      | cons frame outer => simp [Skip.step, Skip.afterItem, hspace]
    | keyText | text | word | number => cases h
  | keyText | itemText | answerText | misfit => cases h
  | start | opened | key | colon | value | listOpened | item | itemEnded | done =>
    simp [step, hspace]
  | ended => simp [step, afterValue, hspace]

/-- Blanks make no difference between two parts. -/
theorem run_blanks (h : progress.isBetween = true) (blanks : Blanks) (more : List UInt8) :
    progress.run (blanks.bytes ++ more) = progress.run more := by
  obtain ⟨bytes, hblank⟩ := blanks
  induction bytes with
  | nil => rfl
  | cons byte rest ih =>
    obtain ⟨hbyte, hrest⟩ := List.forall_mem_cons.mp hblank
    exact (run_cons_of (step_of_isBetween h hbyte) _).trans (ih hrest)

/-- What was said of one byte after a value holds of all that may follow, with blanks in front. -/
theorem run_before_delimiter
    (h : ∀ byte, IsDelimiter byte → progress.run (bytes ++ [byte]) = next.step byte)
    (hbetween : next.isBetween = true) (after : Blanks) (hbyte : IsDelimiter byte)
    (more : List UInt8) :
    progress.run (bytes ++ (after.bytes ++ byte :: more)) = next.run (byte :: more) := by
  have hfollows : ∀ first rest, IsDelimiter first →
      progress.run (bytes ++ first :: rest) = next.run (first :: rest) := by
    intro first rest hfirst
    rw [List.append_cons, run_append, h first hfirst, run_cons]
  rw [← run_blanks hbetween after]
  obtain ⟨blanks, hblank⟩ := after
  cases blanks with
  | nil => exact hfollows byte more hbyte
  | cons first rest => exact hfollows first _ (.inl (hblank first List.mem_cons_self))

/-- A scanner at work inside the progress: its states are wrapped up, and what it comes to decides
    how to go on. -/
def Hosts {σ α : Type} (scanStep : σ → UInt8 → Option (Scan σ α)) (wrap : σ → Progress)
    (finish : α → Option Progress) : Prop :=
  ∀ state byte, (wrap state).step byte =
    match scanStep state byte with
    | some (.more next) => some (wrap next)
    | some (.last result) | some (.before result) => finish result
    | none => none

namespace Hosts

variable {σ α : Type} {scanStep : σ → UInt8 → Option (Scan σ α)} {wrap : σ → Progress}
  {finish : α → Option Progress} (h : Hosts scanStep wrap finish) {state final : σ}
include h

theorem run_of_takes (htakes : Takes scanStep state bytes final) (more : List UInt8) :
    (wrap state).run (bytes ++ more) = (wrap final).run more := by
  induction htakes with
  | nil => rfl
  | @cons state next final byte rest hstep _ ih =>
    have hhost : (wrap state).step byte = some (wrap next) := by rw [h, hstep]
    exact (run_cons_of hhost _).trans ih

theorem run_of_refuses (hrefuses : Refuses scanStep state bytes) (more : List UInt8) :
    (wrap state).run (bytes ++ more) = none := by
  obtain ⟨taken, byte, rest, final, rfl, htakes, hnone⟩ := hrefuses
  have hhost : (wrap final).step byte = none := by rw [h, hnone]
  rw [List.append_assoc, h.run_of_takes htakes, List.cons_append, run_cons, hhost]
  rfl

theorem step_of_last {result : α} (hlast : scanStep state byte = some (.last result)) :
    (wrap state).step byte = finish result := by
  rw [h, hlast]

end Hosts

theorem hosts_keyText (draft : Draft) :
    Hosts TextScan.step (.keyText draft) (afterKey draft) := by
  intro scan byte
  rw [step]
  rcases scan.step byte with _ | _ | _ | _ <;> rfl

theorem hosts_itemText (draft : Draft) (place : Place) (field : ListField) (items : List String) :
    Hosts TextScan.step (.itemText draft place field items)
      (fun text => some (.itemEnded draft place field (items ++ [text]))) := by
  intro scan byte
  rw [step]
  rcases scan.step byte with _ | _ | _ | _ <;> rfl

theorem hosts_answerText (draft : Draft) (place : Place) :
    Hosts TextScan.step (.answerText draft place)
      (fun text => some (.ended { draft with answer? := some text } place)) := by
  intro scan byte
  rw [step]
  rcases scan.step byte with _ | _ | _ | _ <;> rfl

/-- After a value that was passed over, with the brackets around it that are still open. -/
def resumed (draft : Draft) : List Frame → Progress
  | [] => .ended draft .keyed
  | frame :: outer => .skipped draft ⟨.ended, frame :: outer⟩

theorem step_skipped_afterValue {skip' : Skip} (h : skip.step byte = some skip'.afterValue) :
    (skipped draft skip).step byte = some (resumed draft skip'.frames) := by
  obtain ⟨phase, frames⟩ := skip'
  cases frames <;> simp [step, h, Skip.afterValue, resumed]

theorem hosts_skippedKey (draft : Draft) (frames : List Frame) :
    Hosts SkipText.step (fun state => .skipped draft ⟨.keyText state, frames⟩)
      (fun _ => some (.skipped draft ⟨.colon, frames⟩)) := by
  intro state byte
  simp only [step, Skip.step]
  rcases state.step byte with _ | _ | _ | _ <;> rfl

theorem hosts_skippedText (draft : Draft) (frames : List Frame) :
    Hosts SkipText.step (fun state => .skipped draft ⟨.text state, frames⟩)
      (fun _ => some (resumed draft frames)) := by
  intro state byte
  simp only [step, Skip.step]
  rcases state.step byte with _ | _ | _ | _ <;> cases frames <;> rfl

theorem isBetween_resumed (frames : List Frame) : (resumed draft frames).isBetween = true := by
  cases frames <;> rfl

/-- The phase in which an element is due between brackets of a kind. -/
def due (frame : Frame) : SkipPhase :=
  if frame = .object then .key else .value

theorem isBetween_due (frame : Frame) (frames : List Frame) :
    (skipped draft ⟨due frame, frames⟩).isBetween = true := by
  cases frame <;> rfl

theorem isDelimiter_closing (frame : Frame) : IsDelimiter frame.closing := by
  cases frame <;> decide

/-- Between brackets that were just opened, only a closing one makes a difference to what is
    due. -/
theorem run_opened_of_begins {frame : Frame} {outer : List Frame} (h : Begins bytes)
    (more : List UInt8) :
    (skipped draft ⟨.opened, frame :: outer⟩).run (bytes ++ more) =
      (skipped draft ⟨due frame, frame :: outer⟩).run (bytes ++ more) := by
  obtain ⟨before, first, rest, rfl, hfirst⟩ := h
  have hspace := isSpace_of_not_isDelimiter hfirst
  have hclosing : first ≠ frame.closing := by
    rintro rfl
    exact hfirst (isDelimiter_closing frame)
  have hskip : Skip.step ⟨.opened, frame :: outer⟩ first =
      Skip.step ⟨due frame, frame :: outer⟩ first := by
    cases frame with
    | array =>
      simp only [Skip.step, due, hspace, if_neg hclosing]
      rfl
    | object => simp [Skip.step, due, hspace, hclosing]
  rw [List.append_assoc, run_blanks rfl, run_blanks (isBetween_due frame _), List.cons_append,
    run_cons, run_cons]
  simp only [step, hskip]

theorem run_word {due : List UInt8} (hdue : due ≠ []) (frames : List Frame) (more : List UInt8) :
    (skipped draft ⟨.word due, frames⟩).run (due ++ more) = (resumed draft frames).run more := by
  induction due with
  | nil => exact absurd rfl hdue
  | cons next rest ih =>
    cases rest with
    | nil =>
      have hlast : Skip.step ⟨.word [next], frames⟩ next =
          some (Skip.afterValue ⟨.word [next], frames⟩) := by simp [Skip.step]
      exact run_cons_of (step_skipped_afterValue hlast) more
    | cons second rest =>
      have hstep : Skip.step ⟨.word (next :: second :: rest), frames⟩ next =
          some (.more ⟨.word (second :: rest), frames⟩) := by simp [Skip.step]
      exact (run_cons_of (step_skipped_more hstep) _).trans (ih (List.cons_ne_nil _ _))

theorem step_word {first : UInt8} {due : List UInt8} (hword : Byte.wordAfter? first = some due)
    (frames : List Frame) :
    (skipped draft ⟨.value, frames⟩).step first = some (.skipped draft ⟨.word due, frames⟩) ∧
      due ≠ [] := by
  unfold Byte.wordAfter? at hword
  split_ifs at hword with hfirst hfirst hfirst
  all_goals
    cases hword
    cases hfirst
    exact ⟨rfl, List.cons_ne_nil _ _⟩

/-- A byte that begins a number begins no other value. -/
theorem step_number {first : UInt8} {scan : NumberScan}
    (hfirst : NumberScan.first? first = some scan) (frames : List Frame) :
    (skipped draft ⟨.value, frames⟩).step first = some (.skipped draft ⟨.number scan, frames⟩) := by
  have hne : ∀ other, NumberScan.first? other = none → first ≠ other := by
    rintro other hother rfl
    rw [hother] at hfirst
    cases hfirst
  have hspace : Byte.isSpace first = false := by
    simp [Byte.isSpace, hne 0x20 rfl, hne 0x09 rfl, hne 0x0A rfl, hne 0x0D rfl]
  have hopening : Frame.ofOpening? first = none := by
    simp [Frame.ofOpening?, hne Byte.openBracket rfl, hne Byte.openBrace rfl]
  have hword : Byte.wordAfter? first = none := by
    simp [Byte.wordAfter?, hne 0x6E rfl, hne 0x74 rfl, hne 0x66 rfl]
  apply step_skipped_more
  simp [Skip.step, Skip.begin, hspace, hne Byte.quote rfl, hopening, hword, hfirst]

theorem step_opening (frame : Frame) (frames : List Frame) :
    (skipped draft ⟨.value, frames⟩).step frame.opening =
      some (.skipped draft ⟨.opened, frame :: frames⟩) := by
  cases frame <;> rfl

/-- A closing bracket ends the value that the brackets are, where it is allowed. -/
theorem step_closing {phase : SkipPhase} (hphase : phase = .opened ∨ phase = .ended)
    (frame : Frame) (outer : List Frame) :
    (skipped draft ⟨phase, frame :: outer⟩).step frame.closing = some (resumed draft outer) := by
  have hspace : Byte.isSpace frame.closing = false := by cases frame <;> decide
  have hskip : Skip.step ⟨phase, frame :: outer⟩ frame.closing =
      some (Skip.afterValue ⟨.ended, outer⟩) := by
    rcases hphase with rfl | rfl <;> simp [Skip.step, Skip.afterItem, hspace]
  exact step_skipped_afterValue hskip

theorem step_comma (frame : Frame) (outer : List Frame) :
    (skipped draft ⟨.ended, frame :: outer⟩).step Byte.comma =
      some (.skipped draft ⟨due frame, frame :: outer⟩) := by
  apply step_skipped_more
  cases frame <;> rfl

/-- A number is over with the byte after it, which is taken as it is after other values. -/
theorem run_number {scan final : NumberScan} (htakes : Takes NumberScan.step scan bytes final)
    (hends : final.MayEnd) (hbyte : IsDelimiter byte) (frames : List Frame) :
    (skipped draft ⟨.number scan, frames⟩).run (bytes ++ [byte]) =
      (resumed draft frames).step byte := by
  induction htakes with
  | nil scan =>
    rw [List.nil_append, run_singleton]
    have hbefore := hends.step_of_isDelimiter hbyte
    cases frames <;> simp [step, resumed, Skip.step, hbefore]
  | @cons scan next final first rest hstep _ ih =>
    have hskip : Skip.step ⟨.number scan, frames⟩ first = some (.more ⟨.number next, frames⟩) := by
      simp [Skip.step, hstep]
    exact (run_cons_of (step_skipped_more hskip) _).trans (ih hends)

/-- How a part of a JSON text is passed over, by what it is. After a value or an element comes a
    byte that may stand there, and after all elements the closing bracket. -/
def PassesOver (draft : Draft) : Shape → List UInt8 → Prop
  | .value, bytes => ∀ frames byte, IsDelimiter byte →
    (skipped draft ⟨.value, frames⟩).run (bytes ++ [byte]) = (resumed draft frames).step byte
  | .element frame, bytes => ∀ outer byte, IsDelimiter byte →
    (skipped draft ⟨due frame, frame :: outer⟩).run (bytes ++ [byte]) =
      (resumed draft (frame :: outer)).step byte
  | .elements frame, bytes => ∀ outer,
    (skipped draft ⟨due frame, frame :: outer⟩).run (bytes ++ [frame.closing]) =
      some (resumed draft outer)

/-- A value of an unknown field is passed over to its end, whatever is in it. -/
theorem passesOver_of_forms (draft : Draft) {shape : Shape} (h : Forms shape bytes) :
    PassesOver draft shape bytes := by
  induction h with
  | @word first due hword =>
    intro frames byte _
    obtain ⟨hstep, hdue⟩ := step_word hword frames
    exact (run_cons_of hstep _).trans ((run_word hdue frames _).trans (run_singleton _ _))
  | number hnumber =>
    intro frames byte hbyte
    obtain ⟨first, rest, scan, final, rfl, _, hfirst, htakes, hends⟩ := hnumber.scanned
    exact (run_cons_of (step_number hfirst frames) _).trans (run_number htakes hends hbyte frames)
  | @text body hbody =>
    intro frames byte _
    have hopen : (skipped draft ⟨.value, frames⟩).step Byte.quote =
        some (.skipped draft ⟨.text .plain, frames⟩) := step_skipped_more rfl
    have hhosts := hosts_skippedText draft frames
    have hlast : (skipped draft ⟨.text .plain, frames⟩).step Byte.quote =
        some (resumed draft frames) := hhosts.step_of_last rfl
    rw [quoted, List.cons_append, run_cons_of hopen, List.append_assoc,
      hhosts.run_of_takes hbody.takes_skip, List.singleton_append, run_cons_of hlast,
      run_singleton]
  | empty frame blanks =>
    intro frames byte _
    rw [List.cons_append, run_cons_of (step_opening frame frames), List.append_assoc,
      run_blanks rfl, List.singleton_append, run_cons_of (step_closing (.inl rfl) frame frames),
      run_singleton]
  | @brackets frame bytes helements ih =>
    intro frames byte _
    -- The elements are passed over from where one is due, and here the bracket was just opened.
    have helements' := ih frames
    rw [← run_opened_of_begins helements.begins] at helements'
    rw [List.cons_append, run_cons_of (step_opening frame frames), run_append_of helements',
      run_singleton]
  | item hvalue ih => exact fun outer => ih (.array :: outer)
  | @field key value hkey gap gap' hvalue ih =>
    intro outer byte hbyte
    have hopen : (skipped draft ⟨.key, .object :: outer⟩).step Byte.quote =
        some (.skipped draft ⟨.keyText .plain, .object :: outer⟩) := step_skipped_more rfl
    have hhosts := hosts_skippedKey draft (.object :: outer)
    have hlast : (skipped draft ⟨.keyText .plain, .object :: outer⟩).step Byte.quote =
        some (.skipped draft ⟨.colon, .object :: outer⟩) := hhosts.step_of_last rfl
    have hcolon : (skipped draft ⟨.colon, .object :: outer⟩).step Byte.colon =
        some (.skipped draft ⟨.value, .object :: outer⟩) := step_skipped_more rfl
    change (skipped draft ⟨.key, .object :: outer⟩).run _ = _
    simp only [quoted, List.cons_append, List.append_assoc, List.nil_append]
    rw [run_cons_of hopen, hhosts.run_of_takes hkey.takes_skip, run_cons_of hlast,
      run_blanks rfl, run_cons_of hcolon, run_blanks rfl]
    exact ih _ byte hbyte
  | @single frame element before helement after ih =>
    intro outer
    rw [List.append_assoc, run_blanks (isBetween_due frame _), List.append_assoc,
      run_before_delimiter (ih outer) (isBetween_resumed _) after (isDelimiter_closing frame),
      run_singleton]
    exact step_closing (.inr rfl) frame outer
  | @more frame element rest before helement after hrest ih ihrest =>
    intro outer
    simp only [List.append_assoc, List.cons_append]
    rw [run_blanks (isBetween_due frame _),
      run_before_delimiter (ih outer) (isBetween_resumed _) after (by decide)]
    exact (run_cons_of (step_comma frame outer) _).trans (ihrest outer)

end Progress

end ForwardChaining.RuleBase
