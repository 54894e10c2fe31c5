import ForwardChaining.Valuation

namespace ForwardChaining

/-- Literals held to be true, in the order they were learnt, with one value for an atom. -/
structure Facts where
  literals : List Literal
  nodup : (literals.map Literal.atom).Nodup

/-- How a literal stands to the facts. -/
inductive Standing where
  /-- Its atom has no value. -/
  | fresh
  /-- Its atom has its polarity as value. -/
  | known
  /-- Its atom has the opposite value. -/
  | opposed (existing : Bool)
deriving DecidableEq

namespace Facts

/-- No facts. -/
def empty : Facts := ⟨[], List.nodup_nil⟩

instance : EmptyCollection Facts := ⟨empty⟩

instance : Inhabited Facts := ⟨empty⟩

/-- How many atoms have a value. -/
def size (facts : Facts) : Nat :=
  facts.literals.length

/-- The value of an atom, if it has one. -/
def valueOf (facts : Facts) : Valuation := fun atom =>
  (facts.literals.find? (·.atom = atom)).map Literal.polarity

/-- How a literal stands to the facts. -/
def standing (facts : Facts) (literal : Literal) : Standing :=
  match facts.valueOf literal.atom with
  | none => .fresh
  | some value => if value = literal.polarity then .known else .opposed value

/-- Learns a literal, unless its atom already has a value: the first value stands. -/
def insert (facts : Facts) (literal : Literal) : Facts :=
  if h : literal.atom ∈ facts.literals.map Literal.atom then
    facts
  else
    ⟨facts.literals ++ [literal], by
      rw [List.map_append, List.nodup_append]
      refine ⟨facts.nodup, by simp, fun a ha b hb hab => h ?_⟩
      have hatom : b = literal.atom := by simpa using hb
      rwa [← hatom, ← hab]⟩

theorem valueOf_eq_none_iff {facts : Facts} {atom : String} :
    facts.valueOf atom = none ↔ atom ∉ facts.literals.map Literal.atom := by
  simp [valueOf]

/-- The values are those of the literals: no two literals differ on an atom. -/
theorem valueOf_eq_some_iff {facts : Facts} {literal : Literal} :
    facts.valueOf literal.atom = some literal.polarity ↔ literal ∈ facts.literals := by
  obtain ⟨literals, hnodup⟩ := facts
  simp only [valueOf]
  induction literals with
  | nil => simp
  | cons head rest ih =>
    rw [List.map_cons, List.nodup_cons] at hnodup
    by_cases hatom : head.atom = literal.atom
    · have hrest : literal ∉ rest := fun hmem =>
        hnodup.1 (hatom ▸ List.mem_map_of_mem hmem)
      rw [List.find?_cons_of_pos (by simpa using hatom), List.mem_cons, or_iff_left hrest]
      cases head
      cases literal
      simp_all [eq_comm]
    · rw [List.find?_cons_of_neg (by simpa using hatom), ih hnodup.2, List.mem_cons]
      exact ⟨Or.inr, fun h => h.resolve_left fun heq => hatom (heq ▸ rfl)⟩

theorem satisfies_valueOf_iff {facts : Facts} {literal : Literal} :
    facts.valueOf.satisfies literal = true ↔ literal ∈ facts.literals := by
  rw [Valuation.satisfies, beq_iff_eq, valueOf_eq_some_iff]

theorem standing_eq_fresh_iff {facts : Facts} {literal : Literal} :
    facts.standing literal = .fresh ↔ facts.valueOf literal.atom = none := by
  unfold standing
  split
  · simp_all
  · split <;> simp_all

theorem standing_eq_known_iff {facts : Facts} {literal : Literal} :
    facts.standing literal = .known ↔ facts.valueOf literal.atom = some literal.polarity := by
  unfold standing
  split
  · simp_all
  · split <;> simp_all

theorem standing_eq_opposed_iff {facts : Facts} {literal : Literal} {existing : Bool} :
    facts.standing literal = .opposed existing ↔
      facts.valueOf literal.atom = some existing ∧ existing ≠ literal.polarity := by
  unfold standing
  split
  · simp_all
  · split <;> grind

/-- A literal on an atom without a value is added behind the others. -/
theorem literals_insert_of_fresh {facts : Facts} {literal : Literal}
    (hfresh : facts.valueOf literal.atom = none) :
    (facts.insert literal).literals = facts.literals ++ [literal] := by
  rw [valueOf_eq_none_iff] at hfresh
  simp only [insert, dif_neg hfresh]

/-- A literal on an atom with a value changes nothing. -/
theorem insert_of_valued {facts : Facts} {literal : Literal}
    (hvalued : facts.valueOf literal.atom ≠ none) : facts.insert literal = facts := by
  rw [Ne, valueOf_eq_none_iff, Decidable.not_not] at hvalued
  simp only [insert, dif_pos hvalued]

/-- The facts as they are written, in order. -/
def render (facts : Facts) : String :=
  String.intercalate " " (facts.literals.map Literal.render)

end Facts

end ForwardChaining
