import Nod.Lib.Guard
import Nod.Lib.Json
import Nod.Lib.Pattern
import Nod.Lib.Rfc3339
import Nod.Lib.Unicode

/-
  The answer contract as the Apple app has it (`NodKit/NodAnswerValue.swift`), and the part of its
  state that carries cards (`NodKit/Models.swift`, `NodKit/NodRuntimeState.swift`). Swift compares
  strings by canonical equivalence; that and the calendar formatter are a parameter.
-/

namespace Nod.Apple

open Lib

inductive Kind where
  | choice
  | number
  | date
  | dateTime
  deriving DecidableEq

def Kind.rawValue : Kind → String
  | .choice => "choice"
  | .number => "number"
  | .date => "date"
  | .dateTime => "date_time"

def Kind.ofRawValue? (s : String) : Option Kind :=
  if s = "choice" then some .choice
  else if s = "number" then some .number
  else if s = "date" then some .date
  else if s = "date_time" then some .dateTime
  else none

inductive NodAnswerValue where
  | choice (string : String)
  | number (string : String)
  | date (string : String)
  | dateTime (string : String)
  deriving DecidableEq

namespace NodAnswerValue

def kind : NodAnswerValue → Kind
  | .choice _ => .choice
  | .number _ => .number
  | .date _ => .date
  | .dateTime _ => .dateTime

def string : NodAnswerValue → String
  | .choice s => s
  | .number s => s
  | .date s => s
  | .dateTime s => s

def ofKind : Kind → String → NodAnswerValue
  | .choice => .choice
  | .number => .number
  | .date => .date
  | .dateTime => .dateTime

/-- The member that holds a value of a kind. -/
def key : Kind → String
  | .choice => "choice_id"
  | .number => "decimal"
  | .date => "date"
  | .dateTime => "instant"

def toJson (v : NodAnswerValue) : Json :=
  .obj [("kind", .str v.kind.rawValue), (key v.kind, .str v.string)]

end NodAnswerValue

structure NodAnswerChoice where
  id : String
  label : String
  deriving DecidableEq

def NodAnswerChoice.toJson (c : NodAnswerChoice) : Json :=
  .obj [("id", .str c.id), ("label", .str c.label)]

structure NodAnswerField where
  kind : Kind
  label : String
  choices : Option (List NodAnswerChoice)
  defaultValue : NodAnswerValue
  deriving DecidableEq

/-- Absent choices are left out. -/
def NodAnswerField.toJson (f : NodAnswerField) : Json :=
  .obj ([("kind", .str f.kind.rawValue), ("label", .str f.label)] ++
    (f.choices.map fun choices => ("choices", .arr (choices.map NodAnswerChoice.toJson))).toList ++
    [("default", f.defaultValue.toJson)])

/-! ## The platform -/

def civilDate (year month day : ℕ) : List Char :=
  padDigits 4 year ++ '-' :: (padDigits 2 month ++ '-' :: padDigits 2 day)

/-- A day of the proleptic Gregorian calendar as `yyyy-MM-dd`. -/
def SpellsDate (cs : List Char) : Prop :=
  ∃ year month day : ℕ, year ≤ 9999 ∧ (1 ≤ month ∧ month ≤ 12) ∧
    (1 ≤ day ∧ day ≤ daysInMonth year month) ∧ cs = civilDate year month day

/-- A minute of such a day as `yyyy-MM-dd'T'HH:mm':00Z'`. -/
def SpellsDateTime (cs : List Char) : Prop :=
  ∃ (date : List Char) (hour minute : ℕ), SpellsDate date ∧ hour < 24 ∧ minute < 60 ∧
    cs = date ++ 'T' :: (padDigits 2 hour ++ ':' :: (padDigits 2 minute ++ ":00Z".toList))

def calendarLength : Kind → ℕ
  | .date => 10
  | _ => 20

/-- On the texts that the formatter can take, a prefix of characters. -/
def hasPrefix (s lead : String) : Bool := lead.toList.isPrefixOf s.toList

/-- String comparison, and the calendar formatter of a kind with its round trip: a text of its
    length, outside the year 0000, passes exactly when it spells a date. -/
structure Foundation extends Unicode.CanonicalData where
  roundTrips : Kind → String → Bool
  roundTrips_date : ∀ s, hasPrefix s "0000" = false → s.utf8ByteSize = calendarLength .date →
    (roundTrips .date s = true ↔ SpellsDate s.toList)
  roundTrips_dateTime : ∀ s, hasPrefix s "0000" = false →
    s.utf8ByteSize = calendarLength .dateTime →
    (roundTrips .dateTime s = true ↔ SpellsDateTime s.toList)

variable (F : Foundation)

/-- `Set(strings).count` -/
def setCount (strings : List String) : ℕ := (strings.map F.nfd).dedup.length

/-- `JSONEncoder` writes a slash with a backslash before it. -/
def slashEscaped (c : Char) : List Char := if c = '/' then ['\\', '/'] else [c]

/-- The order of its members is not fixed, and only the length is used. -/
def jsonEncode (v : Json) : String := String.ofList (v.render.flatMap slashEscaped)

/-! ## Validity -/

def digits : List Char := "0123456789".toList

def nonzeroDigits : List Char := "123456789".toList

def idCharacters : List Char :=
  "ABCDEFGHIJKLMNOPQRSTUVWXYZabcdefghijklmnopqrstuvwxyz0123456789_-".toList

/-- `[A-Za-z0-9_-]{1,40}` -/
def choiceIdPattern : RegularExpression Char :=
  Pattern.oneOf idCharacters * Pattern.upTo (Pattern.oneOf idCharacters) 39

/-- `-?(0|[1-9][0-9]{0,11})(\.[0-9]{0,5}[1-9])?` -/
def numberPattern : RegularExpression Char :=
  Pattern.optional (.char '-') *
    ((.char '0' + Pattern.oneOf nonzeroDigits * Pattern.upTo (Pattern.oneOf digits) 11) *
      Pattern.optional
        (.char '.' * (Pattern.upTo (Pattern.oneOf digits) 5 * Pattern.oneOf nonzeroDigits)))

def labelValid (s : String) (max : ℕ) : Bool :=
  s ≠ "" && F.same s (Text.trim s) && s.length ≤ max && !s.toList.any Text.isControl

namespace NodAnswerField

def isValidDefinition (f : NodAnswerField) : Bool :=
  labelValid F f.label 64 && (jsonEncode f.toJson).utf8ByteSize ≤ 4096 &&
    match f.kind, f.choices with
    | .choice, some choices =>
      (2 ≤ choices.length && choices.length ≤ 12) &&
        setCount F (choices.map NodAnswerChoice.id) == choices.length &&
        setCount F (choices.map NodAnswerChoice.label) == choices.length &&
        choices.all fun c =>
          labelValid F c.label 48 && Pattern.fullMatch choiceIdPattern c.id.toList
    | .choice, none => false
    | _, choices => choices.isNone

def calendarValue (s : String) (kind : Kind) : Bool :=
  !hasPrefix s "0000" && s.utf8ByteSize == calendarLength kind && F.roundTrips kind s

def isValid (f : NodAnswerField) (value : NodAnswerValue) : Bool :=
  value.kind == f.kind &&
    match value with
    | .choice id => f.choices.any fun choices => choices.any fun c => F.same c.id id
    | .number s => !F.same s "-0" && Pattern.fullMatch numberPattern s.toList
    | .date s => calendarValue F s .date
    | .dateTime s => calendarValue F s .dateTime

end NodAnswerField

/-! ## Decoding -/

inductive DecodingError where
  | typeMismatch
  | keyNotFound (key : String)
  | valueNotFound (key : String)
  | dataCorrupted (debugDescription : String)
  deriving DecidableEq

def container : Json → Except DecodingError (List (String × Json))
  | .obj members => .ok members
  | _ => .error .typeMismatch

def decodeMember (members : List (String × Json)) (key : String) : Except DecodingError Json :=
  match Json.lookup key members with
  | none => .error (.keyNotFound key)
  | some .null => .error (.valueNotFound key)
  | some v => .ok v

def decodeString (members : List (String × Json)) (key : String) : Except DecodingError String := do
  match ← decodeMember members key with
  | .str s => pure s
  | _ => .error .typeMismatch

def decodeKind (members : List (String × Json)) : Except DecodingError Kind := do
  let s ← decodeString members "kind"
  orElse (.dataCorrupted "Cannot initialize Kind from invalid String value") (Kind.ofRawValue? s)

def rejectUnknownAnswerKeys (members : List (String × Json)) (allowed : List String) :
    Except DecodingError Unit :=
  refuseIf (∃ m ∈ members, m.1 ∉ allowed)
    (DecodingError.dataCorrupted "Unsupported answer field key")

def NodAnswerValue.decode (v : Json) : Except DecodingError NodAnswerValue := do
  let c ← container v
  let kind ← decodeKind c
  rejectUnknownAnswerKeys c ["kind", NodAnswerValue.key kind]
  let s ← decodeString c (NodAnswerValue.key kind)
  pure (NodAnswerValue.ofKind kind s)

def NodAnswerChoice.decode (v : Json) : Except DecodingError NodAnswerChoice := do
  let c ← container v
  rejectUnknownAnswerKeys c ["id", "label"]
  let id ← decodeString c "id"
  let label ← decodeString c "label"
  pure { id, label }

def decodeChoices (kind : Kind) (members : List (String × Json)) :
    Except DecodingError (Option (List NodAnswerChoice)) :=
  if kind = .choice then do
    match ← decodeMember members "choices" with
    | .arr items => some <$> items.mapM NodAnswerChoice.decode
    | _ => .error .typeMismatch
  else .ok none

def NodAnswerField.decode (v : Json) : Except DecodingError NodAnswerField := do
  let c ← container v
  let kind ← decodeKind c
  rejectUnknownAnswerKeys c
    (if kind = .choice then ["kind", "label", "choices", "default"] else ["kind", "label", "default"])
  let label ← decodeString c "label"
  let choices ← decodeChoices kind c
  let defaultValue ← NodAnswerValue.decode (← decodeMember c "default")
  let field : NodAnswerField := { kind, label, choices, defaultValue }
  refuseIf (¬ (field.isValidDefinition F = true ∧ field.isValid F defaultValue = true))
    (DecodingError.dataCorrupted "Invalid answer definition or default")
  pure field

/-! ## Cards and the state -/

section

variable {ρ : Type} (rest : Json → Except DecodingError ρ)

/-- A card: `rest` decodes its other members, an `answer_field` that is there has to decode. -/
def decodeRequest (card : Json) : Except DecodingError (ρ × Option NodAnswerField) := do
  let others ← rest card
  let c ← container card
  match Json.lookup "answer_field" c with
  | some v => do
    let field ← NodAnswerField.decode F v
    pure (others, some field)
  | none => pure (others, none)

/-- The cards of the state; one that does not decode fails all of it. -/
def decodeRequests (state : Json) : Except DecodingError (List (ρ × Option NodAnswerField)) := do
  let c ← container state
  match Json.lookup "requests" c with
  | none => pure []
  | some .null => pure []
  | some (.arr cards) => cards.mapM (decodeRequest F rest)
  | some _ => .error .typeMismatch

end

end Nod.Apple
