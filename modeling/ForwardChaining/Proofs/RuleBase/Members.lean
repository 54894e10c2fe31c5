import ForwardChaining.Proofs.RuleBase.Values

namespace ForwardChaining.RuleBase

open Json

/-- A field of an object as it is written: its key, a value of any kind, and blanks. -/
structure Member where
  before : Blanks
  key : String
  spelling : List UInt8
  spells : Spells spelling key.toList
  beforeColon : Blanks
  afterColon : Blanks
  value : List UInt8
  formed : Forms .value value
  after : Blanks

def Member.bytes (member : Member) : List UInt8 :=
  member.before.bytes ++ (quoted member.spelling ++ (member.beforeColon.bytes ++
    Byte.colon :: (member.afterColon.bytes ++ (member.value ++ member.after.bytes))))

/-- An object as it is written. -/
structure ObjectText where
  before : Blanks
  /-- Blanks after the opening bracket. -/
  inner : Blanks
  members : List Member
  after : Blanks

def ObjectText.bytes (object : ObjectText) : List UInt8 :=
  object.before.bytes ++ Byte.openBrace :: (object.inner.bytes ++
    ([Byte.comma].intercalate (object.members.map Member.bytes) ++
      Byte.closeBrace :: object.after.bytes))

/-- An object holds a rule base: no field of the rule base stands in it twice, those that do stand
    in it are as in the rule base, and the others are empty. Members with other keys may be any. -/
structure ObjectText.Holds (object : ObjectText) (ruleBase : RuleBase) : Prop where
  written : ∀ member ∈ object.members, ∀ field : Field, member.key = field.key →
    ruleBase.Writes member.value field
  once : ∀ field : Field, object.members.countP (·.key = field.key) ≤ 1
  default : ∀ field : Field, (∀ member ∈ object.members, member.key ≠ field.key) →
    ruleBase.fieldValue field = fieldValue {} field

theorem Field.ofKey?_key (field : Field) : ofKey? field.key = some field := by
  rcases field with (_ | _) | _ <;> decide

theorem Field.key_eq_iff {field other : Field} : field.key = other.key ↔ field = other := by
  constructor
  · intro hkey
    have hfield := ofKey?_key field
    rw [hkey, ofKey?_key] at hfield
    exact (Option.some.inj hfield).symm
  · rintro rfl
    rfl

theorem Field.key_of_ofKey? {key : String} {field : Field} (h : ofKey? key = some field) :
    key = field.key := by
  have hfound := List.find?_some h
  exact (of_decide_eq_true hfound).symm

namespace Progress

variable {draft : Draft} {member : Member} {members : List Member}

/-- The key of a member decides how its value is read, and whether it is. -/
theorem run_member (draft : Draft) (member : Member) (more : List UInt8) :
    (key draft).run (member.bytes ++ more) =
      match Field.ofKey? member.key with
      | some field =>
        if draft.has field then none
        else (value draft .keyed field).run (member.value ++ (member.after.bytes ++ more))
      | none => (skipped draft {}).run (member.value ++ (member.after.bytes ++ more)) := by
  have hopen : (key draft).step Byte.quote = some (.keyText draft {}) := rfl
  simp only [Member.bytes, quoted, List.append_assoc, List.cons_append, List.nil_append]
  rw [run_blanks rfl, run_cons_of hopen, (hosts_keyText draft).run_spelling member.spells,
    afterKey]
  cases Field.ofKey? member.key with
  | none =>
    have hcolon : (colon draft none).step Byte.colon = some (.skipped draft {}) := rfl
    exact (run_blanks rfl _ _).trans ((run_cons_of hcolon _).trans (run_blanks rfl _ _))
  | some field =>
    have hcolon : (colon draft (some field)).step Byte.colon =
        some (.value draft .keyed field) := rfl
    cases hhas : draft.has field with
    | true => simp [hhas]
    | false =>
      simp only [hhas]
      exact (run_blanks rfl _ _).trans ((run_cons_of hcolon _).trans (run_blanks rfl _ _))

/-- Reading a member turns the first draft into the second. -/
structure Fills (draft : Draft) (member : Member) (draft' : Draft) : Prop where
  has : ∀ field : Field, draft'.has field = (draft.has field || member.key = field.key)
  run : ∀ byte more, IsDelimiter byte →
    (key draft).run (member.bytes ++ byte :: more) = (ended draft' .keyed).run (byte :: more)

theorem fills_of_unknown (hkey : Field.ofKey? member.key = none) : Fills draft member draft where
  has := by
    intro field
    have hne : member.key ≠ field.key := by
      intro heq
      rw [heq, Field.ofKey?_key] at hkey
      cases hkey
    simp [hne]
  run := by
    intro byte more hbyte
    rw [run_member, hkey]
    exact run_before_delimiter (passesOver_of_forms draft member.formed [])
      (isBetween_resumed []) member.after hbyte more

theorem fills_of_known {field : Field} {draft' : Draft}
    (hkey : Field.ofKey? member.key = some field) (hfresh : draft.has field = false)
    (hhas : ∀ other, draft'.has other = (draft.has other || other = field))
    (hrun : (value draft .keyed field).run member.value = some (.ended draft' .keyed)) :
    Fills draft member draft' where
  has := by
    intro other
    rw [hhas, Field.key_of_ofKey? hkey]
    simp [Field.key_eq_iff, eq_comm]
  run := by
    intro byte more _
    rw [run_member, hkey]
    simp only [hfresh]
    exact (run_append_of hrun _).trans (run_blanks rfl _ _)

/-- A member as the rule base has it is read so. -/
theorem exists_fills_of_writes {ruleBase : RuleBase} (hagrees : draft.Agrees ruleBase)
    (hwritten : ∀ field : Field, member.key = field.key → ruleBase.Writes member.value field)
    (hfresh : ∀ field : Field, member.key = field.key → draft.has field = false) :
    ∃ draft', Fills draft member draft' ∧ draft'.Agrees ruleBase := by
  cases hkey : Field.ofKey? member.key with
  | none => exact ⟨draft, fills_of_unknown hkey, hagrees⟩
  | some field =>
    have hfield := Field.key_of_ofKey? hkey
    obtain ⟨draft', hagrees', hhas, hrun⟩ := run_value_of_writes (hwritten field hfield) hagrees
    exact ⟨draft', fills_of_known hkey (hfresh field hfield) hhas hrun, hagrees'⟩

/-- Any member is read or refused, and a field that was already read is refused. -/
theorem exists_fills_or_doomed (draft : Draft) (member : Member) :
    (∀ more, Doomed ((key draft).run (member.bytes ++ more))) ∨
      (∀ field : Field, member.key = field.key → draft.has field = false) ∧
        ∃ draft', Fills draft member draft' := by
  cases hkey : Field.ofKey? member.key with
  | none =>
    refine .inr ⟨?_, draft, fills_of_unknown hkey⟩
    intro field heq
    rw [heq, Field.ofKey?_key] at hkey
    cases hkey
  | some field =>
    cases hhas : draft.has field with
    | true =>
      left
      intro more
      rw [run_member, hkey]
      simp only [hhas]
      exact doomed_none
    | false =>
      rcases @run_value_or_doomed draft .keyed _ member.formed field with
        hdoomed | ⟨draft', hextends, hrun⟩
      · left
        intro more
        rw [run_member, hkey]
        simp only [hhas]
        exact hdoomed.append _
      · refine .inr ⟨?_, draft', fills_of_known hkey hhas hextends hrun⟩
        intro other heq
        rw [heq, Field.ofKey?_key] at hkey
        cases hkey
        exact hhas

/-- The members of an object, with commas between them. -/
abbrev joined (members : List Member) : List UInt8 :=
  [Byte.comma].intercalate (members.map Member.bytes)

theorem joined_cons_cons (first second : Member) (rest : List Member) (more : List UInt8) :
    joined (first :: second :: rest) ++ more =
      first.bytes ++ Byte.comma :: (joined (second :: rest) ++ more) := by
  simp [joined, List.intercalate_cons_cons]

theorem Fills.run_last {draft' : Draft} (h : Fills draft member draft') (more : List UInt8) :
    (key draft).run (joined [member] ++ Byte.closeBrace :: more) =
      (done draft'.ruleBase).run more := by
  have hclose : (ended draft' .keyed).step Byte.closeBrace = some (.done draft'.ruleBase) := rfl
  rw [joined, List.map_singleton, List.intercalate_singleton, h.run _ _ (by decide),
    run_cons_of hclose]

theorem Fills.run_cons {draft' : Draft} (h : Fills draft member draft') (second : Member)
    (rest : List Member) (more : List UInt8) :
    (key draft).run (joined (member :: second :: rest) ++ more) =
      (key draft').run (joined (second :: rest) ++ more) := by
  have hcomma : (ended draft' .keyed).step Byte.comma = some (.key draft') := rfl
  rw [joined_cons_cons, h.run _ _ (by decide), run_cons_of hcomma]

/-- How often a field has been read or is still to come, once for all that is behind. -/
def occurrences (draft : Draft) (members : List Member) (field : Field) : Nat :=
  (draft.has field).toNat + members.countP (·.key = field.key)

theorem Fills.occurrences_eq {draft' : Draft} (h : Fills draft member draft')
    (hfresh : ∀ field : Field, member.key = field.key → draft.has field = false)
    (rest : List Member) (field : Field) :
    occurrences draft' rest field = occurrences draft (member :: rest) field := by
  simp only [occurrences, h.has, List.countP_cons, decide_eq_true_eq]
  by_cases hkey : member.key = field.key
  · simp [hkey, hfresh field hkey, Nat.add_comm]
  · simp [hkey]

theorem fresh_of_occurrences_le {rest : List Member}
    (honce : ∀ field, occurrences draft (member :: rest) field ≤ 1) (field : Field)
    (hkey : member.key = field.key) : draft.has field = false := by
  have hle := honce field
  simp only [occurrences, List.countP_cons, decide_eq_true_eq, if_pos hkey] at hle
  cases hhas : draft.has field with
  | false => rfl
  | true =>
    rw [hhas, Bool.toNat_true] at hle
    omega

/-- Members that are as in the rule base, with no field among them twice, are read so. -/
theorem run_members {ruleBase : RuleBase} (hne : members ≠ []) (hagrees : draft.Agrees ruleBase)
    (hwritten : ∀ member ∈ members, ∀ field : Field, member.key = field.key →
      ruleBase.Writes member.value field)
    (honce : ∀ field, occurrences draft members field ≤ 1) (more : List UInt8) :
    ∃ final : Draft, final.Agrees ruleBase ∧
      (∀ field : Field, final.has field = (draft.has field || members.any (·.key = field.key))) ∧
      (key draft).run (joined members ++ Byte.closeBrace :: more) =
        (done final.ruleBase).run more := by
  induction members generalizing draft with
  | nil => exact absurd rfl hne
  | cons member rest ih =>
    obtain ⟨hmember, hrest⟩ := List.forall_mem_cons.mp hwritten
    have hfresh := fresh_of_occurrences_le honce
    obtain ⟨draft', hfills, hagrees'⟩ := exists_fills_of_writes hagrees hmember hfresh
    cases rest with
    | nil =>
      refine ⟨draft', hagrees', ?_, hfills.run_last more⟩
      intro field
      rw [hfills.has, List.any_cons, List.any_nil, Bool.or_false]
    | cons second rest =>
      have honce' : ∀ field, occurrences draft' (second :: rest) field ≤ 1 := by
        intro field
        rw [hfills.occurrences_eq hfresh]
        exact honce field
      obtain ⟨final, hfinal, hhas, hrun⟩ := ih (List.cons_ne_nil _ _) hagrees' hrest honce'
      refine ⟨final, hfinal, ?_, (hfills.run_cons second rest _).trans hrun⟩
      intro field
      rw [hhas, hfills.has, Bool.or_assoc]
      rfl

/-- Members among which a field comes again are refused. -/
theorem doomed_of_repeated {field : Field} (hne : members ≠ [])
    (hrepeated : 2 ≤ occurrences draft members field) (more : List UInt8) :
    Doomed ((key draft).run (joined members ++ Byte.closeBrace :: more)) := by
  induction members generalizing draft with
  | nil => exact absurd rfl hne
  | cons member rest ih =>
    rcases exists_fills_or_doomed draft member with hdoomed | ⟨hfresh, draft', hfills⟩
    · cases rest with
      | nil => simpa [joined] using hdoomed (Byte.closeBrace :: more)
      | cons second rest =>
        rw [joined_cons_cons]
        exact hdoomed _
    · -- What was to come in this member is now behind, so that the field still comes again.
      rw [← hfills.occurrences_eq hfresh] at hrepeated
      cases rest with
      | nil =>
        have hle : occurrences draft' [] field ≤ 1 := by
          simp only [occurrences, List.countP_nil, Nat.add_zero]
          exact Bool.toNat_le _
        omega
      | cons second rest =>
        rw [hfills.run_cons]
        exact ih (List.cons_ne_nil _ _) hrepeated

/-- After an opening bracket a member is read as after a comma. -/
theorem run_opened_member (inner : Blanks) (hne : members ≠ []) (more : List UInt8) :
    (opened .object).run (inner.bytes ++ (joined members ++ more)) =
      (key {}).run (joined members ++ more) := by
  obtain ⟨first, rest, rfl⟩ := List.exists_cons_of_ne_nil hne
  have hquote : (opened .object).step Byte.quote = (key {}).step Byte.quote := rfl
  have hfirst : ∀ bytes, (opened .object).run (first.bytes ++ bytes) =
      (key {}).run (first.bytes ++ bytes) := by
    intro bytes
    simp only [Member.bytes, quoted, List.append_assoc, List.cons_append]
    rw [run_blanks rfl, run_blanks rfl, run_cons, run_cons, hquote]
  rw [run_blanks rfl]
  cases rest with
  | nil => simpa [joined] using hfirst more
  | cons second rest =>
    rw [joined_cons_cons]
    exact hfirst _

theorem run_object (object : ObjectText) :
    start.run object.bytes = (opened .object).run (object.inner.bytes ++
      (joined object.members ++ Byte.closeBrace :: object.after.bytes)) := by
  have hopen : start.step Byte.openBrace = some (.opened .object) := rfl
  rw [ObjectText.bytes, run_blanks rfl, run_cons_of hopen]

theorem run_done (ruleBase : RuleBase) (after : Blanks) :
    (done ruleBase).run after.bytes = some (.done ruleBase) := by
  have hrun : (done ruleBase).run (after.bytes ++ []) = some (.done ruleBase) :=
    run_blanks rfl after []
  rwa [List.append_nil] at hrun

end Progress

theorem Draft.Agrees.ruleBase_eq {draft : Draft} {ruleBase : RuleBase}
    (h : draft.Agrees ruleBase)
    (hdefault : ∀ field, draft.has field = false →
      ruleBase.fieldValue field = fieldValue {} field) : draft.ruleBase = ruleBase := by
  obtain ⟨statements?, entries?, answer?⟩ := draft
  obtain ⟨hstatements, hentries, hanswer⟩ := h
  have hstatements' : statements?.getD [] = ruleBase.statements := by
    cases statements? with
    | none => simpa [fieldValue] using (hdefault (.list .statements) rfl).symm
    | some items => exact hstatements items rfl
  have hentries' : entries?.getD [] = ruleBase.entries := by
    cases entries? with
    | none => simpa [fieldValue] using (hdefault (.list .entries) rfl).symm
    | some items => exact hentries items rfl
  have hanswer' : answer?.getD "" = ruleBase.answer := by
    cases answer? with
    | none => simpa [fieldValue] using (hdefault .answer rfl).symm
    | some text => exact hanswer text rfl
  simp only [Draft.ruleBase, hstatements', hentries', hanswer']

theorem ObjectText.Holds.read_eq {object : ObjectText} {ruleBase : RuleBase}
    (h : object.Holds ruleBase) : read ⟨object.bytes, none⟩ = .ok ruleBase := by
  have hempty : ({} : Draft).Agrees ruleBase := ⟨nofun, nofun, nofun⟩
  have hrun : Progress.start.run object.bytes = some (.done ruleBase) := by
    rw [Progress.run_object]
    by_cases hmembers : object.members = []
    · have hruleBase : ({} : Draft).ruleBase = ruleBase := by
        apply hempty.ruleBase_eq
        intro field _
        exact h.default field (by simp [hmembers])
      have hclose : (Progress.opened .object).step Byte.closeBrace = some (.done {}) := rfl
      rw [hmembers, Progress.run_blanks rfl]
      refine (Progress.run_cons_of hclose _).trans ?_
      rw [Progress.run_done, ← hruleBase]
      rfl
    · have honce : ∀ field, Progress.occurrences {} object.members field ≤ 1 := by
        intro field
        have hle := h.once field
        have hnone : ({} : Draft).has field = false := by rcases field with (_ | _) | _ <;> rfl
        rw [Progress.occurrences, hnone]
        simpa using hle
      obtain ⟨final, hfinal, hhas, hmembersRun⟩ :=
        Progress.run_members hmembers hempty h.written honce object.after.bytes
      have hruleBase : final.ruleBase = ruleBase := by
        apply hfinal.ruleBase_eq
        intro field hunread
        apply h.default field
        intro member hmember hkey
        rw [hhas] at hunread
        simp only [Bool.or_eq_false_iff, List.any_eq_false, decide_eq_true_eq] at hunread
        exact hunread.2 member hmember hkey
      rw [Progress.run_opened_member _ hmembers, hmembersRun, Progress.run_done, hruleBase]
  unfold Progress.run at hrun
  rw [read, hrun]

/-- An object in which a field of a rule base comes again is refused. -/
theorem read_of_repeated {object : ObjectText} {field : Field}
    (hrepeated : 2 ≤ object.members.countP (·.key = field.key)) :
    read ⟨object.bytes, none⟩ = .error .malformed := by
  have hne : object.members ≠ [] := by
    intro hnil
    simp [hnil] at hrepeated
  have hdoomed : Progress.Doomed (Progress.start.run object.bytes) := by
    rw [Progress.run_object, Progress.run_opened_member _ hne]
    exact Progress.doomed_of_repeated hne (Nat.le_add_left_of_le hrepeated) _
  unfold Progress.run at hdoomed
  rw [read]
  cases hrun : object.bytes.foldlM Progress.step .start with
  | none => rfl
  | some progress =>
    obtain ⟨wrong, rfl⟩ := hdoomed progress hrun
    rfl

end ForwardChaining.RuleBase
