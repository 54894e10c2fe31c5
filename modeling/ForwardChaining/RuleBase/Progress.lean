import ForwardChaining.Json.Skip
import ForwardChaining.RuleBase.Encoding

namespace ForwardChaining.RuleBase

open Json

/-- The field that stands after another when a rule base is written as an array. -/
def Field.next? : Field → Option Field
  | .list .statements => some (.list .entries)
  | .list .entries => some .answer
  | .answer => none

/-- The fields of a rule base that have been read. -/
structure Draft where
  statements? : Option (List String) := none
  entries? : Option (List String) := none
  answer? : Option String := none

namespace Draft

/-- Whether a field has been read. -/
def has (draft : Draft) : Field → Bool
  | .list .statements => draft.statements?.isSome
  | .list .entries => draft.entries?.isSome
  | .answer => draft.answer?.isSome

/-- The rule base, where a field that was left out is empty. -/
def ruleBase (draft : Draft) : RuleBase :=
  ⟨draft.statements?.getD [], draft.entries?.getD [], draft.answer?.getD ""⟩

/-- Fills in a list. -/
def putItems (draft : Draft) (items : List String) : ListField → Draft
  | .statements => { draft with statements? := some items }
  | .entries => { draft with entries? := some items }

end Draft

/-- Where a field's value stands. -/
inductive Place where
  /-- After its key in an object. -/
  | keyed
  /-- In an array, before the given field. -/
  | positional (next? : Option Field)

/-- A number of the wrong kind, with what tells whether it is too large to be one at all. -/
structure MisfitNumber where
  scan : NumberScan
  /-- Whether all digits before the exponent are zero. -/
  isZero : Bool := true
  /-- Whether the exponent has a minus. -/
  isSmall : Bool := false
  exponent : Nat := 0

/-- A value of the wrong kind. It is read to its end before it is refused. -/
inductive Misfit where
  | word (due : List UInt8)
  | number (value : MisfitNumber)
  | text (scan : TextScan)

/-- How far a rule base has been read. -/
inductive Progress where
  /-- Nothing but blanks. -/
  | start
  /-- The brackets around the fields were just opened. -/
  | opened (frame : Frame)
  /-- A key is due. -/
  | key (draft : Draft)
  /-- Inside a key. -/
  | keyText (draft : Draft) (scan : TextScan)
  /-- A colon is due, before the value of a field or of an unknown key. -/
  | colon (draft : Draft) (field? : Option Field)
  /-- Inside the value of an unknown key. -/
  | skipped (draft : Draft) (skip : Skip)
  /-- The value of a field is due. -/
  | value (draft : Draft) (place : Place) (field : Field)
  /-- The brackets around the items of a list were just opened. -/
  | listOpened (draft : Draft) (place : Place) (field : ListField)
  /-- An item of a list is due. -/
  | item (draft : Draft) (place : Place) (field : ListField) (items : List String)
  /-- Inside an item of a list. -/
  | itemText (draft : Draft) (place : Place) (field : ListField) (items : List String)
      (scan : TextScan)
  /-- After an item of a list. -/
  | itemEnded (draft : Draft) (place : Place) (field : ListField) (items : List String)
  /-- Inside the answer. -/
  | answerText (draft : Draft) (place : Place) (scan : TextScan)
  /-- After the value of a field. -/
  | ended (draft : Draft) (place : Place)
  /-- Inside a value of the wrong kind. -/
  | misfit (value : Misfit)
  /-- The brackets around the fields were closed. -/
  | done (ruleBase : RuleBase)

namespace MisfitNumber

/-- The greatest exponent of a number: one less than two to the 31. -/
def maxExponent : Nat := 2147483647

/-- A number by its first byte. -/
def first? (byte : UInt8) : Option MisfitNumber :=
  (NumberScan.first? byte).map fun scan => { scan := scan, isZero := scan ≠ .whole }

/-- Whether the exponent is too great for what it scales. -/
def overflows (number : MisfitNumber) : Bool :=
  !number.isZero && !number.isSmall && maxExponent < number.exponent

/-- Takes note of a byte of the number, where the scan has come past it. -/
def take (number : MisfitNumber) (scan : NumberScan) (byte : UInt8) : MisfitNumber :=
  match scan with
  | .zero | .whole | .fraction =>
    { number with scan := scan, isZero := number.isZero && byte = Byte.zero }
  | .sign => { number with scan := scan, isSmall := byte = Byte.minus }
  | .exponent =>
    { number with
      scan := scan
      exponent := number.exponent * 10 + (byte.toNat - Byte.zero.toNat) }
  | .minus | .point | .mark => { number with scan := scan }

/-- Goes on with a byte, unless the number ends before it, cannot go on with it, or gets too large
    by it. -/
def step (number : MisfitNumber) (byte : UInt8) : Option MisfitNumber :=
  match number.scan.step byte with
  | some (.more scan) =>
    let next := number.take scan byte
    if next.overflows then none else some next
  | _ => none

end MisfitNumber

namespace Misfit

/-- A value of the wrong kind by its first byte. Lists and objects are refused at once. -/
def first? (byte : UInt8) : Option Misfit :=
  if byte = Byte.quote then some (.text {})
  else ((Byte.wordAfter? byte).map .word).or ((MisfitNumber.first? byte).map .number)

/-- Goes on with a byte, unless the value is refused at it. -/
def step : Misfit → UInt8 → Option Misfit
  | .word (next :: due), byte => if byte = next && !due.isEmpty then some (.word due) else none
  | .word [], _ => none
  | .number value, byte => (value.step byte).map .number
  | .text scan, byte =>
    match scan.step byte with
    | some (.more scan) => some (.text scan)
    | _ => none

end Misfit

namespace Progress

/-- Begins the value of a field. -/
def beginValue (draft : Draft) (place : Place) (field : Field) (byte : UInt8) : Option Progress :=
  match field with
  | .list list =>
    if byte = Byte.openBracket then some (.listOpened draft place list)
    else (Misfit.first? byte).map .misfit
  | .answer =>
    if byte = Byte.quote then some (.answerText draft place {})
    else (Misfit.first? byte).map .misfit

/-- Begins an item of a list. -/
def beginItem (draft : Draft) (place : Place) (field : ListField) (items : List String)
    (byte : UInt8) : Option Progress :=
  if byte = Byte.quote then some (.itemText draft place field items {})
  else (Misfit.first? byte).map .misfit

/-- Goes on after the last byte of a key. A field that was already read is refused. -/
def afterKey (draft : Draft) (name : String) : Option Progress :=
  match Field.ofKey? name with
  | some field => if draft.has field then none else some (.colon draft (some field))
  | none => some (.colon draft none)

/-- Goes on after the value of a field. -/
def afterValue (draft : Draft) (place : Place) (byte : UInt8) : Option Progress :=
  if Byte.isSpace byte then some (.ended draft place)
  else
    match place with
    | .keyed =>
      if byte = Byte.comma then some (.key draft)
      else if byte = Byte.closeBrace then some (.done draft.ruleBase)
      else none
    | .positional next? =>
      if byte = Byte.comma then
        next?.map fun field => .value draft (.positional field.next?) field
      else if byte = Byte.closeBracket then some (.done draft.ruleBase)
      else none

/-- Goes on with a byte, unless no rule base goes on with it. -/
def step (progress : Progress) (byte : UInt8) : Option Progress :=
  match progress with
  | .start =>
    if Byte.isSpace byte then some .start
    else
      match Frame.ofOpening? byte with
      | some frame => some (.opened frame)
      | none => (Misfit.first? byte).map .misfit
  | .opened frame =>
    if Byte.isSpace byte then some (.opened frame)
    else if byte = frame.closing then some (.done {})
    else
      match frame with
      | .array => beginValue {} (.positional (some (.list .entries))) (.list .statements) byte
      | .object => if byte = Byte.quote then some (.keyText {} {}) else none
  | .key draft =>
    if Byte.isSpace byte then some (.key draft)
    else if byte = Byte.quote then some (.keyText draft {})
    else none
  | .keyText draft scan =>
    match scan.step byte with
    | some (.more scan) => some (.keyText draft scan)
    | some (.last name) | some (.before name) => afterKey draft name
    | none => none
  | .colon draft field? =>
    if Byte.isSpace byte then some (.colon draft field?)
    else if byte = Byte.colon then
      match field? with
      | some field => some (.value draft .keyed field)
      | none => some (.skipped draft {})
    else none
  | .skipped draft skip =>
    match skip.step byte with
    | some (.more skip) => some (.skipped draft skip)
    | some (.last ()) => some (.ended draft .keyed)
    | some (.before ()) => afterValue draft .keyed byte
    | none => none
  | .value draft place field =>
    if Byte.isSpace byte then some (.value draft place field)
    else beginValue draft place field byte
  | .listOpened draft place field =>
    if Byte.isSpace byte then some (.listOpened draft place field)
    else if byte = Byte.closeBracket then some (.ended (draft.putItems [] field) place)
    else beginItem draft place field [] byte
  | .item draft place field items =>
    if Byte.isSpace byte then some (.item draft place field items)
    else beginItem draft place field items byte
  | .itemText draft place field items scan =>
    match scan.step byte with
    | some (.more scan) => some (.itemText draft place field items scan)
    | some (.last text) | some (.before text) =>
      some (.itemEnded draft place field (items ++ [text]))
    | none => none
  | .itemEnded draft place field items =>
    if Byte.isSpace byte then some (.itemEnded draft place field items)
    else if byte = Byte.comma then some (.item draft place field items)
    else if byte = Byte.closeBracket then some (.ended (draft.putItems items field) place)
    else none
  | .answerText draft place scan =>
    match scan.step byte with
    | some (.more scan) => some (.answerText draft place scan)
    | some (.last text) | some (.before text) =>
      some (.ended { draft with answer? := some text } place)
    | none => none
  | .ended draft place => afterValue draft place byte
  | .misfit wrong => (wrong.step byte).map .misfit
  | .done ruleBase => if Byte.isSpace byte then some (.done ruleBase) else none

end Progress

end ForwardChaining.RuleBase
