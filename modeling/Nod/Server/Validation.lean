import Nod.Server.Store

/-
  Checks on what an issuer sends and the normal form of options (`db/validation.rs`).
-/

namespace Nod.Server

open Lib Nod.Proto

def rejectControlCharacters (value label : String) : Except ApiError Unit :=
  refuseIf (value.toList.any Text.isControl = true)
    (.badRequest (label ++ " must not contain control characters"))

def validateHttpUrl (P : Packages) (value label : String) : Except ApiError Unit := do
  let url ← orElse (.badRequest (label ++ " must be an absolute URL")) (P.parseUrl value)
  refuseIf (url.scheme ∉ ["http", "https"] ∨ url.host = none)
    (.badRequest (label ++ " must use http or https"))

def validateNotificationText (value : Option String) (label : String) (maxChars : Nat) :
    Except ApiError Unit :=
  refuseIf (∃ text ∈ value, maxChars < (Text.trim text).length)
    (.badRequest (label ++ " is too long"))

def isSlugChar (c : Char) : Bool := c.isAlphanum || c == '-' || c == '_' || c == '.'

def validateId (value label : String) : Except ApiError Unit :=
  refuseIf (value = "" ∨ 80 < value.utf8ByteSize ∨ value.toList.all isSlugChar = false)
    (.badRequest (label ++ " must be 1-80 ASCII slug characters"))

/-- An outcome a value card can be answered with in one tap. -/
def oneTap (option : RequestOption) : Bool :=
  !option.destructive && !option.requiresText &&
    option.kind ∉ [OptionKind.approveWithText, .rejectWithText, .open]

def validateAnswerField (req : CreateDecisionRequest) : Except ApiError Unit :=
  match req.answerField with
  | none => .ok ()
  | some field => do
    field.validate.mapError .badRequest
    refuseIf
      ((∃ option ∈ req.options, option.id = "__nod_value_open" ∨ option.kind = .open) ∨
        req.options.any oneTap = false)
      (.badRequest "value requests require an ordinary one-tap outcome and no Open outcome")

def validateOptional (check : String → Except ApiError Unit) :
    Option String → Except ApiError Unit
  | none => .ok ()
  | some value => check value

def validateLinks (P : Packages) : List CardLink → Except ApiError Unit
  | [] => .ok ()
  | link :: links => do
    validateHttpUrl P link.url "links[].url"
    validateLinks P links

/-- `image_url` and `dedupe_key` are raw lines of the line snapshot: no control character may
    shift a boundary there. -/
def validateRequest (P : Packages) (req : CreateDecisionRequest) : Except ApiError Unit := do
  validateAnswerField req
  refuseIf (Text.trim req.title = "") (.badRequest "request title is required")
  refuseIf (200 < req.title.length) (.badRequest "request title is too long")
  validateNotificationText req.notification.title "notification title" 200
  validateNotificationText req.notification.body "notification body" 500
  validateOptional (fun url => validateHttpUrl P url "callback_url") req.callbackUrl
  validateOptional (fun url => do
    rejectControlCharacters url "image_url"
    validateHttpUrl P url "image_url") req.imageUrl
  validateOptional (fun key => rejectControlCharacters key "dedupe_key") req.dedupeKey
  validateLinks P req.links
  validateId req.channelId "channel id"

/-- A kind that asks for text requires it. -/
def normalizeOption (option : RequestOption) : RequestOption :=
  if option.kind ∈ [OptionKind.approveWithText, .rejectWithText] then
    { option with requiresText := true }
  else option

def normalizeOptions (options : List RequestOption) : List RequestOption :=
  options.map normalizeOption

/-- An optionless ordinary card can still be dismissed. -/
def implicitDismissOption (request : DecisionRequest) (optionId : String) :
    Option RequestOption :=
  if request.answerField ≠ none ∨ optionId ≠ "dismiss" ∨ request.options ≠ [] then none
  else
    some
      { id := "dismiss", label := "Dismiss", kind := .dismiss, style := "default"
        requiresText := false, textPlaceholder := none, destructive := false
        foreground := false }

def parseTime (P : Packages) (value : String) : Except ApiError DateTime :=
  orElse (.internal ("invalid timestamp in database: " ++ P.timeError value))
    (DateTime.parseFromRfc3339 value)

def parseOptionalTime (P : Packages) : Option String → Except ApiError (Option DateTime)
  | none => .ok none
  | some value => some <$> parseTime P value

/-! ## What the checks leave -/

@[simp] theorem normalizeOption_id (option : RequestOption) :
    (normalizeOption option).id = option.id := by
  unfold normalizeOption
  split <;> rfl

@[simp] theorem map_id_normalizeOptions (options : List RequestOption) :
    (normalizeOptions options).map RequestOption.id = options.map RequestOption.id := by
  simp [normalizeOptions, Function.comp_def]

theorem validateOptional_eq_ok {check : String → Except ApiError Unit} {value : Option String} :
    validateOptional check value = .ok () ↔ ∀ v ∈ value, check v = .ok () := by
  cases value <;> simp [validateOptional]

theorem rejectControlCharacters_eq_ok {value label : String} :
    rejectControlCharacters value label = .ok () ↔ ∀ c ∈ value.toList, ¬ Text.isControl c := by
  simp [rejectControlCharacters]

theorem validateId_eq_ok {value label : String} :
    validateId value label = .ok () ↔
      value ≠ "" ∧ value.utf8ByteSize ≤ 80 ∧ ∀ c ∈ value.toList, isSlugChar c = true := by
  simp [validateId]

/-- A slug holds no separator of a digest text. -/
theorem free_of_validateId {value label : String} {sep : Char}
    (h : validateId value label = .ok ()) (hsep : isSlugChar sep = false) :
    Text.Free sep value :=
  Text.free_of_all (validateId_eq_ok.mp h).2.2 hsep

theorem parseTime_eq_ok {P : Packages} {value : String} {t : DateTime} :
    parseTime P value = .ok t ↔ DateTime.parseFromRfc3339 value = some t := by
  simp [parseTime]

theorem parseOptionalTime_eq_ok {P : Packages} {value : Option String} {t : Option DateTime} :
    parseOptionalTime P value = .ok t ↔
      Option.map DateTime.parseFromRfc3339 value = Option.map some t := by
  cases value with
  | none => cases t <;> simp [parseOptionalTime]
  | some v =>
    cases t with
    | none => simp [parseOptionalTime]
    | some t => simp [parseOptionalTime, parseTime_eq_ok]

end Nod.Server
