import Nod.Lib.Text
import Nod.Lib.Guard
import Nod.Lib.Json

/-
  The closed, single-value answer contract (`nod-proto/src/answer.rs`): the field a value card
  asks with, the value a decision answers with, and the server's and verifier's checks on both.
  Decimal and calendar values stay strings.
-/

namespace Nod.Proto

open Lib

inductive AnswerValue where
  | choice (choiceId : String)
  | number (decimal : String)
  | date (date : String)
  | dateTime (instant : String)
  deriving DecidableEq

structure AnswerChoice where
  id : String
  label : String
  deriving DecidableEq

inductive AnswerField where
  | choice (label : String) (choices : List AnswerChoice) (default : AnswerValue)
  | number (label : String) (default : AnswerValue)
  | date (label : String) (default : AnswerValue)
  | dateTime (label : String) (default : AnswerValue)
  deriving DecidableEq

/-! ## JSON, tagged by `kind` -/

def AnswerValue.toJson : AnswerValue → Json
  | .choice choiceId => .obj [("kind", .str "choice"), ("choice_id", .str choiceId)]
  | .number decimal => .obj [("kind", .str "number"), ("decimal", .str decimal)]
  | .date day => .obj [("kind", .str "date"), ("date", .str day)]
  | .dateTime instant => .obj [("kind", .str "date_time"), ("instant", .str instant)]

def AnswerChoice.toJson (c : AnswerChoice) : Json :=
  .obj [("id", .str c.id), ("label", .str c.label)]

def AnswerField.toJson : AnswerField → Json
  | .choice label choices default =>
    .obj [("kind", .str "choice"), ("label", .str label),
      ("choices", .arr (choices.map AnswerChoice.toJson)), ("default", default.toJson)]
  | .number label default =>
    .obj [("kind", .str "number"), ("label", .str label), ("default", default.toJson)]
  | .date label default =>
    .obj [("kind", .str "date"), ("label", .str label), ("default", default.toJson)]
  | .dateTime label default =>
    .obj [("kind", .str "date_time"), ("label", .str label), ("default", default.toJson)]

/-! ## Texts of values -/

def validLabel (value : String) (max : Nat) : Bool :=
  value ≠ "" && Text.trim value == value && value.length ≤ max &&
    !value.toList.any Text.isControl

/-- The digits of a decimal: up to 12 before the point, up to 6 after it, no spare zeros. -/
def validDecimal (value : String) : Bool :=
  let negative := value.toList.head? = some '-'
  let unsigned := if negative then value.toList.tail else value.toList
  match unsigned.splitOn '.' with
  | [integer] =>
    validInteger integer && !(negative && integer == ['0'])
  | [integer, fraction] =>
    validInteger integer && fraction ≠ [] && fraction.length ≤ 6 &&
      fraction.getLast? ≠ some '0' && fraction.all Char.isDigit
  | _ => false
where
  validInteger (integer : List Char) : Bool :=
    integer ≠ [] && integer.length ≤ 12 && integer.all Char.isDigit &&
      !(1 < integer.length && integer.head? = some '0')

/-- The UTF-8 bytes of a text. -/
def bytes (value : String) : List UInt8 := value.toUTF8.data.toList

def isDigitByte (b : UInt8) : Bool := 48 ≤ b && b ≤ 57

def natOfBytes (bs : List UInt8) : Nat := bs.foldl (fun acc b => acc * 10 + (b.toNat - 48)) 0

def daysIn (year month : Nat) : Nat :=
  if month ∈ [1, 3, 5, 7, 8, 10, 12] then 31
  else if month ∈ [4, 6, 9, 11] then 30
  else if month = 2 then
    (if year % 4 = 0 ∧ (year % 100 ≠ 0 ∨ year % 400 = 0) then 29 else 28)
  else 0

/-- `YYYY-MM-DD`, a date that exists. -/
def validDateBytes (b : List UInt8) : Bool :=
  b.length == 10 && b[4]? == some 45 && b[7]? == some 45 &&
    (b.take 4 ++ (b.drop 5).take 2 ++ b.drop 8).all isDigitByte &&
    (let year := natOfBytes (b.take 4)
     let month := natOfBytes ((b.drop 5).take 2)
     let day := natOfBytes (b.drop 8)
     year ≠ 0 && day ≠ 0 && day ≤ daysIn year month)

def validDate (value : String) : Bool := validDateBytes (bytes value)

/-- `YYYY-MM-DDTHH:MM:00Z`, an instant on the minute. -/
def validInstant (value : String) : Bool :=
  let b := bytes value
  b.length == 20 && b.all (· < 128) && validDateBytes (b.take 10) && b[10]? == some 84 &&
    b[13]? == some 58 && b.drop 16 == [58, 48, 48, 90] &&
    ((b.drop 11).take 2 ++ (b.drop 14).take 2).all isDigitByte &&
    natOfBytes ((b.drop 11).take 2) < 24 && natOfBytes ((b.drop 14).take 2) < 60

/-! ## Checks on fields and values -/

namespace AnswerField

def label : AnswerField → String
  | .choice label _ _ => label
  | .number label _ => label
  | .date label _ => label
  | .dateTime label _ => label

def defaultValue : AnswerField → AnswerValue
  | .choice _ _ default => default
  | .number _ default => default
  | .date _ default => default
  | .dateTime _ default => default

/-- A choice id: up to 40 letters, digits, underscores and hyphens. -/
def validChoiceId (id : String) : Bool :=
  id ≠ "" && id.utf8ByteSize ≤ 40 &&
    id.toList.all fun c => c.isAlphanum || c == '_' || c == '-'

/-- Each choice is well formed and repeats no id or label of the ones before it. -/
def validChoices (before : List AnswerChoice) : List AnswerChoice → Bool
  | [] => true
  | c :: cs =>
    validChoiceId c.id && validLabel c.label 48 &&
      !before.any (fun old => old.id == c.id || old.label == c.label) &&
      validChoices (before ++ [c]) cs

def validateValue (field : AnswerField) (value : AnswerValue) : Except String Unit :=
  let valid := match field, value with
    | .choice _ choices _, .choice choiceId => choices.any fun c => c.id == choiceId
    | .number _ _, .number decimal => validDecimal decimal
    | .date _ _, .date day => validDate day
    | .dateTime _ _, .dateTime instant => validInstant instant
    | _, _ => false
  refuseIf (valid = false) "answer value does not match definition"

def choicesOk : AnswerField → Except String Unit
  | .choice _ choices _ => do
    refuseIf (choices.length < 2 ∨ 12 < choices.length) "choice count must be 2–12"
    refuseIf (validChoices [] choices = false) "invalid or duplicate choice"
  | _ => .ok ()

def validate (field : AnswerField) : Except String Unit := do
  refuseIf (validLabel field.label 64 = false) "invalid answer label"
  refuseIf (4096 < field.toJson.text.utf8ByteSize) "answer definition exceeds 4096 bytes"
  field.choicesOk
  field.validateValue field.defaultValue

/-- A definition that passes its check has a default that passes its own. -/
theorem validateValue_defaultValue {field : AnswerField} (h : field.validate = .ok ()) :
    field.validateValue field.defaultValue = .ok () := by
  simp only [validate, bind_eq_ok] at h
  obtain ⟨_, _, _, _, _, _, h⟩ := h
  exact h

end AnswerField

example : validDecimal "-0.25" = true := by decide
example : validDate "2028-02-29" = true := by decide
example : validInstant "2026-10-25T09:30:01Z" = false := by decide

end Nod.Proto
