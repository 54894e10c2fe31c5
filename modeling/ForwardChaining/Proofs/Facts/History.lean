import Mathlib.Data.Finset.Card
import ForwardChaining.Session

namespace ForwardChaining

namespace Literal

/-- The first literal of a history on an atom. -/
def firstOn? (history : List Literal) (atom : String) : Option Literal :=
  history.find? (·.atom = atom)

/-- Whether no earlier literal is on the same atom. -/
def isNew (earlier : List Literal) (literal : Literal) : Bool :=
  earlier.all (·.atom ≠ literal.atom)

theorem isNew_iff {earlier : List Literal} {literal : Literal} :
    isNew earlier literal = true ↔ ∀ other ∈ earlier, other.atom ≠ literal.atom := by
  simp [isNew]

/-- The literals of a history whose atom does not occur earlier in it, in order. -/
def firsts (history : List Literal) : List Literal :=
  (history.zipIdx.filter fun place => isNew (history.take place.2) place.1).map Prod.fst

theorem firsts_append_singleton (history : List Literal) (literal : Literal) :
    firsts (history ++ [literal]) =
      firsts history ++ if isNew history literal then [literal] else [] := by
  have hbefore : (history.zipIdx.filter fun place =>
        isNew ((history ++ [literal]).take place.2) place.1) =
      history.zipIdx.filter fun place => isNew (history.take place.2) place.1 := by
    refine List.filter_congr fun place hplace => ?_
    have hlt : place.2 < history.length := (List.mem_zipIdx' hplace).1
    rw [List.take_append_of_le_length (Nat.le_of_lt hlt)]
  unfold firsts
  rw [List.zipIdx_append, List.filter_append, List.map_append, hbefore, Nat.zero_add]
  congr 1
  split
  · rename_i hnew
    simp [hnew]
  · rename_i hknown
    simp [hknown]

end Literal

namespace Facts

/-- The first value of an atom stands, whatever comes later. -/
theorem valueOf_insert (facts : Facts) (literal : Literal) (atom : String) :
    (facts.insert literal).valueOf atom =
      (facts.valueOf atom).or (if literal.atom = atom then some literal.polarity else none) := by
  cases hvalue : facts.valueOf literal.atom with
  | none =>
    rw [valueOf, literals_insert_of_fresh hvalue, List.find?_append, Option.map_or]
    congr 1
    by_cases hatom : literal.atom = atom <;> simp [hatom]
  | some value =>
    rw [insert_of_valued (by simp [hvalue])]
    by_cases hatom : literal.atom = atom
    · rw [← hatom, hvalue]
      rfl
    · rw [if_neg hatom, Option.or_none]

/-- The facts once the literals of a history were learnt in order. -/
def insertAll (facts : Facts) (history : List Literal) : Facts :=
  history.foldl insert facts

theorem insertAll_append (facts : Facts) (history more : List Literal) :
    facts.insertAll (history ++ more) = (facts.insertAll history).insertAll more :=
  List.foldl_append

/-- An atom without a value gets that of the first literal on it. -/
theorem valueOf_insertAll (facts : Facts) (history : List Literal) (atom : String) :
    (facts.insertAll history).valueOf atom =
      (facts.valueOf atom).or ((Literal.firstOn? history atom).map Literal.polarity) := by
  unfold Literal.firstOn?
  induction history generalizing facts with
  | nil => simp [insertAll]
  | cons literal rest ih =>
    rw [insertAll, List.foldl_cons, ← insertAll, ih, valueOf_insert, Option.or_assoc]
    congr 1
    by_cases hatom : literal.atom = atom <;> simp [hatom]

theorem valueOf_empty (atom : String) : (∅ : Facts).valueOf atom = none := rfl

theorem valueOf_insertAll_empty (history : List Literal) (atom : String) :
    ((∅ : Facts).insertAll history).valueOf atom =
      (Literal.firstOn? history atom).map Literal.polarity := by
  rw [valueOf_insertAll, valueOf_empty, Option.none_or]

/-- An atom has no value exactly if no literal of the history is on it. -/
theorem valueOf_insertAll_empty_eq_none_iff {history : List Literal} {atom : String} :
    ((∅ : Facts).insertAll history).valueOf atom = none ↔
      ∀ other ∈ history, other.atom ≠ atom := by
  simp [valueOf_insertAll_empty, Literal.firstOn?]

theorem literals_insertAll_empty (history : List Literal) :
    ((∅ : Facts).insertAll history).literals = Literal.firsts history := by
  induction history using List.reverseRecOn with
  | nil => rfl
  | append_singleton history literal ih =>
    rw [insertAll_append, Literal.firsts_append_singleton, ← ih]
    change (((∅ : Facts).insertAll history).insert literal).literals = _
    split
    · rename_i hnew
      rw [Literal.isNew_iff, ← valueOf_insertAll_empty_eq_none_iff] at hnew
      exact literals_insert_of_fresh hnew
    · rename_i hknown
      rw [Literal.isNew_iff, ← valueOf_insertAll_empty_eq_none_iff] at hknown
      rw [insert_of_valued hknown, List.append_nil]

theorem size_insertAll_empty (history : List Literal) :
    ((∅ : Facts).insertAll history).size = (history.map Literal.atom).toFinset.card := by
  have hatoms : (history.map Literal.atom).toFinset =
      (((∅ : Facts).insertAll history).literals.map Literal.atom).toFinset := by
    ext atom
    rw [List.mem_toFinset, List.mem_toFinset, ← not_iff_not, ← valueOf_eq_none_iff,
      valueOf_insertAll_empty_eq_none_iff]
    simp
  rw [hatoms, List.toFinset_card_of_nodup (nodup _), List.length_map]
  rfl

end Facts

/-- A literal stands to the facts as its atom's first literal among the earlier ones says: it is
    fresh if there is none, known if that has its polarity, and else opposed by the polarity of
    that. -/
structure Standing.FollowsFrom (earlier : List Literal) (literal : Literal) (standing : Standing) :
    Prop where
  fresh_iff : standing = .fresh ↔ ∀ other ∈ earlier, other.atom ≠ literal.atom
  known_iff : standing = .known ↔ ∃ first, Literal.firstOn? earlier literal.atom = some first ∧
    first.polarity = literal.polarity
  opposed_iff : ∀ value, standing = .opposed value ↔
    ∃ first, Literal.firstOn? earlier literal.atom = some first ∧ first.polarity = value ∧
      value ≠ literal.polarity

theorem Facts.standing_insertAll_empty (earlier : List Literal) (literal : Literal) :
    (((∅ : Facts).insertAll earlier).standing literal).FollowsFrom earlier literal where
  fresh_iff := standing_eq_fresh_iff.trans valueOf_insertAll_empty_eq_none_iff
  known_iff := by
    rw [standing_eq_known_iff, valueOf_insertAll_empty, Option.map_eq_some_iff]
  opposed_iff value := by
    rw [standing_eq_opposed_iff, valueOf_insertAll_empty, Option.map_eq_some_iff]
    simp only [← exists_and_right, and_assoc]

namespace Session

theorem setFact_eq (session : Session) (literal : Literal) :
    (session.setFact literal).1 = session.facts.standing literal ∧
      (session.setFact literal).2.facts = session.facts.insert literal := by
  unfold setFact
  cases hstanding : session.facts.standing literal with
  | fresh => exact ⟨rfl, rfl⟩
  | known =>
    have hvalue := Facts.standing_eq_known_iff.mp hstanding
    exact ⟨rfl, (Facts.insert_of_valued (by simp [hvalue])).symm⟩
  | opposed existing =>
    have hvalue := (Facts.standing_eq_opposed_iff.mp hstanding).1
    exact ⟨rfl, (Facts.insert_of_valued (by simp [hvalue])).symm⟩

/-- Sets the values of a history in order. Gives how each literal stood when its turn came. -/
def setFacts (session : Session) : List Literal → List Standing × Session
  | [] => ([], session)
  | literal :: rest =>
    let first := session.setFact literal
    let others := first.2.setFacts rest
    (first.1 :: others.1, others.2)

theorem facts_setFacts (session : Session) (history : List Literal) :
    (session.setFacts history).2.facts = session.facts.insertAll history := by
  induction history generalizing session with
  | nil => rfl
  | cons literal rest ih =>
    refine (ih (session.setFact literal).2).trans ?_
    rw [(session.setFact_eq literal).2]
    rfl

/-- Each literal is weighed against what those before it have left. -/
theorem getElem?_setFacts (session : Session) (history : List Literal) (index : Nat) :
    (session.setFacts history).1[index]? =
      history[index]?.map (session.facts.insertAll (history.take index)).standing := by
  induction history generalizing session index with
  | nil => rfl
  | cons literal rest ih =>
    cases index with
    | zero => exact congrArg some (session.setFact_eq literal).1
    | succ index =>
      refine (ih (session.setFact literal).2 index).trans ?_
      rw [(session.setFact_eq literal).2]
      rfl

theorem length_setFacts (session : Session) (history : List Literal) :
    (session.setFacts history).1.length = history.length := by
  induction history generalizing session with
  | nil => rfl
  | cons literal rest ih => exact congrArg (· + 1) (ih (session.setFact literal).2)

/-- Values that are set one after the other, with no facts to begin with, leave to every atom the
    value of the first literal on it. The facts are these first literals, in order; each literal is
    told how it stands to the first one before it; and there are as many facts as atoms. -/
theorem setFacts_keeps_first_values (session : Session) (hempty : session.facts = ∅)
    (history : List Literal) :
    let standings := (session.setFacts history).1
    let facts := (session.setFacts history).2.facts
    facts.literals = Literal.firsts history ∧ (facts.literals.map Literal.atom).Nodup ∧
    (∀ atom, facts.valueOf atom = (Literal.firstOn? history atom).map Literal.polarity) ∧
    standings.length = history.length ∧
    (∀ (index : Nat) (literal : Literal), history[index]? = some literal →
      ∃ standing : Standing, standings[index]? = some standing ∧
        standing.FollowsFrom (history.take index) literal) ∧
    facts.size = (history.map Literal.atom).toFinset.card ∧
    ∀ literal, facts.valueOf.satisfies literal = true ↔ literal ∈ facts.literals := by
  intro standings facts
  have hfacts : facts = (∅ : Facts).insertAll history := by
    rw [← hempty]
    exact session.facts_setFacts history
  refine ⟨?_, facts.nodup, ?_, session.length_setFacts history, ?_, ?_,
    fun literal => Facts.satisfies_valueOf_iff⟩
  · rw [hfacts, Facts.literals_insertAll_empty]
  · intro atom
    rw [hfacts, Facts.valueOf_insertAll_empty]
  · intro index literal hliteral
    refine ⟨_, ?_, Facts.standing_insertAll_empty (history.take index) literal⟩
    rw [← hempty]
    exact (session.getElem?_setFacts history index).trans (by rw [hliteral]; rfl)
  · rw [hfacts, Facts.size_insertAll_empty]

/-- Of five literals on `p` and `q` the first on either stands: the others are known or opposed. -/
theorem setFacts_keeps_first_values_conflicting :
    let history : List Literal :=
      [⟨"q", false⟩, ⟨"p", true⟩, ⟨"q", true⟩, ⟨"p", true⟩, ⟨"q", false⟩]
    let facts := (Session.setFacts {} history).2.facts
    (Session.setFacts {} history).1 = [.fresh, .fresh, .opposed false, .known, .known] ∧
      facts.literals = [⟨"q", false⟩, ⟨"p", true⟩] ∧ facts.valueOf "q" = some false ∧
      facts.valueOf "r" = none ∧ facts.size = 2 ∧ Standing.FollowsFrom (history.take 2) ⟨"q", true⟩
        (.opposed false) := by
  intro history facts
  obtain ⟨hliterals, _, hvalue, _, hstandings, hsize, _⟩ :=
    setFacts_keeps_first_values {} rfl history
  obtain ⟨standing, hstanding, hagainst⟩ := hstandings 2 ⟨"q", true⟩ rfl
  obtain rfl : .opposed false = standing := Option.some.inj (by rw [← hstanding]; decide +kernel)
  exact ⟨by decide +kernel, hliterals.trans (by decide +kernel), (hvalue "q").trans (by decide),
    (hvalue "r").trans (by decide), hsize.trans (by decide +kernel), hagainst⟩

end Session

end ForwardChaining
