import Nod.Apple.EncodedSize

/-
  The answer contract of the app and the server's: the same definitions and values, but for Swift's
  string equality.
  Proved: the two agree on a definition and its values exactly when no label or choice id of it is
  confused with another text (`answer_agreement`); a state whose cards all agree decodes.
-/

namespace Nod.Apple

open Lib Nod.Proto

/-! ## What the app decodes -/

def ofAnswerValue : AnswerValue → NodAnswerValue
  | .choice choiceId => .choice choiceId
  | .number decimal => .number decimal
  | .date day => .date day
  | .dateTime instant => .dateTime instant

def ofAnswerChoice (c : AnswerChoice) : NodAnswerChoice := ⟨c.id, c.label⟩

def ofAnswerField : AnswerField → NodAnswerField
  | .choice label choices default =>
    ⟨.choice, label, some (choices.map ofAnswerChoice), ofAnswerValue default⟩
  | .number label default => ⟨.number, label, none, ofAnswerValue default⟩
  | .date label default => ⟨.date, label, none, ofAnswerValue default⟩
  | .dateTime label default => ⟨.dateTime, label, none, ofAnswerValue default⟩

theorem toJson_ofAnswerValue (v : AnswerValue) : (ofAnswerValue v).toJson = v.toJson := by
  cases v <;> rfl

theorem toJson_ofAnswerField (f : AnswerField) : (ofAnswerField f).toJson = f.toJson := by
  cases f with
  | choice label choices default =>
    simp only [ofAnswerField, NodAnswerField.toJson, AnswerField.toJson, toJson_ofAnswerValue,
      List.map_map, Option.map_some, Option.toList_some]
    rfl
  | number label default | date label default | dateTime label default =>
    simp only [ofAnswerField, NodAnswerField.toJson, AnswerField.toJson, toJson_ofAnswerValue]
    rfl

variable (F : Foundation)

/-- A definition that the app accepts, with its default. -/
def Accepts (f : NodAnswerField) : Prop :=
  f.isValidDefinition F = true ∧ f.isValid F f.defaultValue = true

theorem decode_value (v : AnswerValue) : NodAnswerValue.decode v.toJson = .ok (ofAnswerValue v) := by
  cases v <;> rfl

theorem mapM_decode_choice (choices : List AnswerChoice) :
    (choices.map AnswerChoice.toJson).mapM NodAnswerChoice.decode =
      .ok (choices.map ofAnswerChoice) := by
  induction choices with
  | nil => rfl
  | cons c cs ih =>
    rw [List.map_cons, List.mapM_cons, ih]
    rfl

theorem decodeMember_default {ms : List (String × Json)} {v : AnswerValue}
    (h : Json.lookup "default" ms = some v.toJson) :
    decodeMember ms "default" = .ok v.toJson := by
  unfold decodeMember
  rw [h]
  cases v <;> rfl

/-- What the decoder finds in the JSON of a field, but for the check at its end. -/
theorem decoded_members (f : AnswerField) : ∃ ms, container f.toJson = .ok ms ∧
    decodeKind ms = .ok (ofAnswerField f).kind ∧
    rejectUnknownAnswerKeys ms (if (ofAnswerField f).kind = .choice then
      ["kind", "label", "choices", "default"] else ["kind", "label", "default"]) = .ok () ∧
    decodeString ms "label" = .ok (ofAnswerField f).label ∧
    decodeChoices (ofAnswerField f).kind ms = .ok (ofAnswerField f).choices ∧
    decodeMember ms "default" = .ok f.defaultValue.toJson := by
  cases f with
  | choice label choices default =>
    refine ⟨_, rfl, rfl, refuseIf_neg (by simp [ofAnswerField]) _, rfl, ?_, decodeMember_default rfl⟩
    show (some <$> (choices.map AnswerChoice.toJson).mapM NodAnswerChoice.decode) = _
    rw [mapM_decode_choice]
    rfl
  | number label default | date label default | dateTime label default =>
    exact ⟨_, rfl, rfl, refuseIf_neg (by simp [ofAnswerField]) _, rfl, rfl, decodeMember_default rfl⟩

theorem defaultValue_ofAnswerField (f : AnswerField) :
    (ofAnswerField f).defaultValue = ofAnswerValue f.defaultValue := by
  cases f <;> rfl

/-- The app decodes exactly the definitions that it accepts. -/
theorem decode_eq_ok {f : AnswerField} {g : NodAnswerField} :
    NodAnswerField.decode F f.toJson = .ok g ↔ Accepts F (ofAnswerField f) ∧ ofAnswerField f = g := by
  obtain ⟨ms, hcontainer, hkind, hkeys, hlabel, hchoices, hdefault⟩ := decoded_members f
  have hvalue := decode_value f.defaultValue
  rw [← defaultValue_ofAnswerField] at hvalue
  unfold NodAnswerField.decode
  simp only [hcontainer, hkind, hkeys, hlabel, hchoices, hdefault, hvalue, bind_eq_ok, refuseIf_eq_ok,
    pure_eq_ok, not_not, Except.ok.injEq, exists_eq_left', Accepts]
  simp

/-! ## Definitions that pass -/

/-- No two labels are canonically equivalent. -/
def LabelsApart (choices : List AnswerChoice) : Prop :=
  (choices.map fun c => F.nfd c.label).Nodup

/-- No text but the listed ids is canonically equivalent to one of them. -/
def IdsApart (choices : List AnswerChoice) : Prop :=
  ∀ s, (∃ c ∈ choices, F.same c.id s = true) → s ∈ choices.map AnswerChoice.id

/-- A label and choices that the server accepts. -/
structure WellFormed (label : String) (choices : List AnswerChoice) : Prop where
  label : validLabel label 64 = true
  count : 2 ≤ choices.length ∧ choices.length ≤ 12
  each : ∀ c ∈ choices, AnswerField.validChoiceId c.id = true ∧ validLabel c.label 48 = true
  ids : (choices.map AnswerChoice.id).Nodup
  labels : (choices.map AnswerChoice.label).Nodup

theorem validChoices_iff (before choices : List AnswerChoice) :
    AnswerField.validChoices before choices = true ↔
      (∀ c ∈ choices, AnswerField.validChoiceId c.id = true ∧ validLabel c.label 48 = true) ∧
      (choices.map AnswerChoice.id).Nodup ∧ (choices.map AnswerChoice.label).Nodup ∧
      ∀ old ∈ before, ∀ c ∈ choices, old.id ≠ c.id ∧ old.label ≠ c.label := by
  induction choices generalizing before with
  | nil => simp [AnswerField.validChoices]
  | cons c cs ih =>
    unfold AnswerField.validChoices
    simp only [Bool.and_eq_true, ih, Bool.not_eq_true', List.any_eq_false, Bool.or_eq_true,
      beq_iff_eq, not_or, List.forall_mem_append, List.forall_mem_cons, List.not_mem_nil,
      false_implies, implies_true, and_true, List.map_cons, List.nodup_cons, List.mem_map, not_exists,
      not_and]
    constructor
    · rintro ⟨⟨hc, hbefore⟩, hcs, hids, hlabels, hold, hlast⟩
      exact ⟨⟨hc, hcs⟩, ⟨fun d hd heq => (hlast d hd).1 heq.symm, hids⟩,
        ⟨fun d hd heq => (hlast d hd).2 heq.symm, hlabels⟩, fun old ho => ⟨hbefore old ho, hold old ho⟩⟩
    · rintro ⟨⟨hc, hcs⟩, ⟨hid, hids⟩, ⟨hlabel, hlabels⟩, hold⟩
      exact ⟨⟨hc, fun old ho => (hold old ho).1⟩, hcs, hids, hlabels, fun old ho => (hold old ho).2,
        fun d hd => ⟨fun heq => hid d hd heq.symm, fun heq => hlabel d hd heq.symm⟩⟩

theorem setCount_eq_iff (strings : List String) :
    setCount F strings = strings.length ↔ (strings.map F.nfd).Nodup := by
  unfold setCount
  rw [← List.length_map (f := F.nfd)]
  constructor
  · intro h
    rw [← (List.dedup_sublist _).eq_of_length h]
    exact List.nodup_dedup _
  · intro h
    rw [List.Nodup.dedup h]

theorem nfd_id {id : String} (h : AnswerField.validChoiceId id = true) : F.nfd id = id.toList :=
  F.nfd_ascii fun c hc => isAscii_of_isIdCharacter ((validChoiceId_iff.mp h).2.2 c hc)

/-- Among ids string equality is the same in both. -/
theorem nodup_ids {choices : List AnswerChoice}
    (h : ∀ c ∈ choices, AnswerField.validChoiceId c.id = true) :
    ((choices.map AnswerChoice.id).map F.nfd).Nodup ↔ (choices.map AnswerChoice.id).Nodup := by
  have hmap : (choices.map AnswerChoice.id).map F.nfd =
      (choices.map AnswerChoice.id).map String.toList := by
    apply List.map_congr_left
    intro id hid
    obtain ⟨c, hc, rfl⟩ := List.mem_map.mp hid
    exact nfd_id F (h c hc)
  rw [hmap]
  exact List.nodup_map_iff fun _ _ => String.toList_inj.mp

/-- A text that is canonically equivalent to an id is no longer than an id can be. -/
theorem length_of_same {id s : String} (h : AnswerField.validChoiceId id = true)
    (hsame : F.same id s = true) : s.toList.length ≤ 40 := by
  have hlength := F.length_le_nfd s
  rw [← F.same_iff.mp hsame, nfd_id F h] at hlength
  exact hlength.trans (validChoiceId_iff.mp h).2.1

variable {F}

theorem LabelsApart.nodup {choices : List AnswerChoice} (h : LabelsApart F choices) :
    (choices.map AnswerChoice.label).Nodup := by
  refine List.Nodup.of_map F.nfd ?_
  rw [List.map_map]
  exact h

theorem wellFormed_of_apart {label : String} {choices : List AnswerChoice}
    (hlabel : validLabel label 64 = true) (hcount : 2 ≤ choices.length ∧ choices.length ≤ 12)
    (heach : ∀ c ∈ choices, AnswerField.validChoiceId c.id = true ∧ validLabel c.label 48 = true)
    (hids : (choices.map AnswerChoice.id).Nodup) (h : LabelsApart F choices) :
    WellFormed label choices := ⟨hlabel, hcount, heach, hids, h.nodup⟩

theorem WellFormed.parts {label : String} {choices : List AnswerChoice} (h : WellFormed label choices)
    {d : String} (hd : d.toList.length ≤ 40) :
    PartsValid (ofAnswerField (.choice label choices (.choice d))) where
  label := h.label
  choices := by
    intro cs hcs
    rw [← Option.some.inj hcs, List.length_map]
    exact ⟨h.count.2, List.forall_mem_map.mpr h.each⟩
  default := hd

theorem validate_iff {f : AnswerField} : f.validate = .ok () ↔
    validLabel f.label 64 = true ∧ f.toJson.text.utf8ByteSize ≤ 4096 ∧ f.choicesOk = .ok () ∧
      f.validateValue f.defaultValue = .ok () := by
  unfold AnswerField.validate
  simp only [bind_eq_ok, refuseIf_eq_ok, not_lt, Bool.not_eq_false]
  constructor
  · rintro ⟨_, hlabel, _, hsize, _, hchoices, hdefault⟩
    exact ⟨hlabel, hsize, hchoices, hdefault⟩
  · rintro ⟨hlabel, hsize, hchoices, hdefault⟩
    exact ⟨(), hlabel, (), hsize, (), hchoices, hdefault⟩

theorem choicesOk_iff {label : String} {choices : List AnswerChoice} {default : AnswerValue} :
    (AnswerField.choice label choices default).choicesOk = .ok () ↔
      (2 ≤ choices.length ∧ choices.length ≤ 12) ∧ AnswerField.validChoices [] choices = true := by
  unfold AnswerField.choicesOk
  simp only [bind_eq_ok, refuseIf_eq_ok, not_or, not_lt, Bool.not_eq_false]
  constructor
  · intro h
    obtain ⟨_, hcount, hvalid⟩ := h
    exact ⟨hcount, hvalid⟩
  · intro h
    exact ⟨(), h.1, h.2⟩

theorem validateValue_choice_iff {label : String} {choices : List AnswerChoice}
    {default v : AnswerValue} : (AnswerField.choice label choices default).validateValue v = .ok () ↔
      ∃ s, v = .choice s ∧ s ∈ choices.map AnswerChoice.id := by
  unfold AnswerField.validateValue
  rw [refuseIf_eq_ok]
  cases v with
  | choice s => simp
  | number s | date s | dateTime s => simp

theorem isValid_choice_iff {label : String} {choices : List AnswerChoice} {default v : AnswerValue} :
    (ofAnswerField (.choice label choices default)).isValid F (ofAnswerValue v) = true ↔
      ∃ s, v = .choice s ∧ ∃ c ∈ choices, F.same c.id s = true := by
  cases v with
  | choice s => simp [NodAnswerField.isValid, ofAnswerField, ofAnswerValue, ofAnswerChoice,
      NodAnswerValue.kind]
  | number s | date s | dateTime s => simp [NodAnswerField.isValid, ofAnswerField, ofAnswerValue,
      NodAnswerValue.kind]

/-- The server's check of a choice definition. -/
theorem validate_choice_iff {label : String} {choices : List AnswerChoice} {default : AnswerValue} :
    (AnswerField.choice label choices default).validate = .ok () ↔
      WellFormed label choices ∧ ∃ d, default = .choice d ∧ d ∈ choices.map AnswerChoice.id := by
  rw [validate_iff, choicesOk_iff, validChoices_iff, validateValue_choice_iff]
  constructor
  · intro ⟨hlabel, _, ⟨hcount, heach, hids, hlabels, _⟩, hdefault⟩
    exact ⟨⟨hlabel, hcount, heach, hids, hlabels⟩, hdefault⟩
  · intro ⟨h, d, hd, hmem⟩
    obtain ⟨c, hc, hid⟩ := List.mem_map.mp hmem
    have hlength : d.toList.length ≤ 40 := hid ▸ (validChoiceId_iff.mp (h.each c hc).1).2.1
    have hsize := (size_text_le _).trans (h.parts hlength).size
    rw [toJson_ofAnswerField, ← hd] at hsize
    exact ⟨h.label, hsize, ⟨h.count, h.each, h.ids, h.labels, fun _ hold => absurd hold List.not_mem_nil⟩,
      d, hd, hmem⟩

theorem all_choices_iff {choices : List AnswerChoice} :
    ((choices.map ofAnswerChoice).all fun c => validLabel c.label 48 &&
      Pattern.fullMatch choiceIdPattern c.id.toList) = true ↔
      ∀ c ∈ choices, AnswerField.validChoiceId c.id = true ∧ validLabel c.label 48 = true := by
  simp only [List.all_eq_true, List.forall_mem_map, ofAnswerChoice,
    fullMatch_choiceId, Bool.and_eq_true, and_comm]

/-- The app's check of a choice definition. -/
theorem accepts_choice_iff {label : String} {choices : List AnswerChoice} {default : AnswerValue} :
    Accepts F (ofAnswerField (.choice label choices default)) ↔
      WellFormed label choices ∧ LabelsApart F choices ∧
        ∃ d, default = .choice d ∧ ∃ c ∈ choices, F.same c.id d = true := by
  have hids : (choices.map ofAnswerChoice).map NodAnswerChoice.id =
      choices.map AnswerChoice.id := by
    rw [List.map_map]
    rfl
  have hlabels : (choices.map ofAnswerChoice).map NodAnswerChoice.label =
      choices.map AnswerChoice.label := by
    rw [List.map_map]
    rfl
  have hapart : setCount F (choices.map AnswerChoice.label) = choices.length ↔
      LabelsApart F choices := by
    rw [← List.length_map (f := AnswerChoice.label), setCount_eq_iff, List.map_map]
    exact Iff.rfl
  have hdistinct : setCount F (choices.map AnswerChoice.id) = choices.length ↔
      ((choices.map AnswerChoice.id).map F.nfd).Nodup := by
    rw [← List.length_map (f := AnswerChoice.id), setCount_eq_iff]
  unfold Accepts
  rw [defaultValue_ofAnswerField, isValid_choice_iff]
  unfold NodAnswerField.isValidDefinition
  simp only [ofAnswerField, Bool.and_eq_true, labelValid_eq, decide_eq_true_eq, beq_iff_eq, hids,
    hlabels, hapart, hdistinct, all_choices_iff, List.length_map]
  constructor
  · rintro ⟨⟨⟨hlabel, -⟩, ⟨⟨hcount, hidset⟩, hlabelset⟩, heach⟩, hdefault⟩
    have hnodup := (nodup_ids F fun c hc => (heach c hc).1).mp hidset
    exact ⟨wellFormed_of_apart hlabel hcount heach hnodup hlabelset, hlabelset, hdefault⟩
  · rintro ⟨h, hlabelset, d, rfl, c, hc, hsame⟩
    have hsize := (h.parts (length_of_same F (h.each c hc).1 hsame)).size
    have hnodup := (nodup_ids F fun c hc => (h.each c hc).1).mpr h.ids
    exact ⟨⟨⟨h.label, decide_eq_true hsize⟩, ⟨⟨h.count, hnodup⟩, hlabelset⟩, h.each⟩, d, rfl, c, hc, hsame⟩

/-! ## Numbers, dates and instants -/

theorem length_decimal {d : String} (h : validDecimal d = true) : d.toList.length ≤ 40 := by
  obtain ⟨n, hn⟩ := (validDecimal_iff d).mp h
  have hsign : (if n.negative then ['-'] else []).length ≤ 1 := by
    cases n.negative <;> simp
  have hpoint : (point n.fraction).length ≤ n.fraction.length + 1 := by
    cases n.fraction <;> simp [point]
  obtain ⟨hinteger, hfraction⟩ := n.fits
  rw [hn]
  unfold Decimal.text
  rw [List.length_append, List.length_append]
  omega

theorem length_of_bytes {s : String} {n : ℕ} (h : s.utf8ByteSize = n) : s.toList.length ≤ n :=
  h ▸ Text.length_le_utf8ByteSize s

theorem length_calendar {s : String} {k : Kind} (h : NodAnswerField.calendarValue F s k = true) :
    s.toList.length ≤ 40 := by
  unfold NodAnswerField.calendarValue at h
  simp only [Bool.and_eq_true, beq_iff_eq] at h
  have hle := length_of_bytes h.1.2
  have hlength : calendarLength k ≤ 20 := by cases k <;> decide
  omega

/-- The values of a field other than a choice. -/
theorem values_agree {f : AnswerField} (hf : (ofAnswerField f).kind ≠ .choice) (v : AnswerValue) :
    f.validateValue v = .ok () ↔ (ofAnswerField f).isValid F (ofAnswerValue v) = true := by
  have hnumber := number_agrees F
  have hdate := date_agrees F
  have hinstant := dateTime_agrees F
  unfold AnswerField.validateValue
  rw [refuseIf_eq_ok]
  cases f with
  | choice label choices default => exact absurd rfl hf
  | number label default | date label default | dateTime label default =>
    cases v with
    | choice d | number d | date d | dateTime d =>
      simp [NodAnswerField.isValid, ofAnswerField, ofAnswerValue, NodAnswerValue.kind, hnumber, hdate,
        hinstant]

theorem length_default {f : AnswerField} (hf : (ofAnswerField f).kind ≠ .choice)
    (h : (ofAnswerField f).isValid F (ofAnswerField f).defaultValue = true) :
    (ofAnswerField f).defaultValue.string.toList.length ≤ 40 := by
  unfold NodAnswerField.isValid at h
  rw [Bool.and_eq_true, beq_iff_eq] at h
  obtain ⟨hkind, h⟩ := h
  cases hv : (ofAnswerField f).defaultValue with
  | choice d =>
    rw [hv] at hkind
    exact absurd hkind.symm hf
  | number d =>
    rw [hv] at h
    exact length_decimal ((number_agrees F d).symm.trans h)
  | date d | dateTime d =>
    rw [hv] at h
    exact length_calendar h

/-- A definition other than a choice passes both checks or neither. -/
theorem accepts_iff_validate {f : AnswerField} (hf : (ofAnswerField f).kind ≠ .choice) :
    Accepts F (ofAnswerField f) ↔ f.validate = .ok () := by
  have hlabel : (ofAnswerField f).label = f.label := by cases f <;> rfl
  have hchoices : f.choicesOk = .ok () ∧ (ofAnswerField f).choices = none := by
    cases f with
    | choice label choices default => exact absurd rfl hf
    | number label default | date label default | dateTime label default => exact ⟨rfl, rfl⟩
  have hdefinition : (ofAnswerField f).isValidDefinition F = true ↔
      validLabel f.label 64 = true ∧ (jsonEncode (ofAnswerField f).toJson).utf8ByteSize ≤ 4096 := by
    cases f with
    | choice label choices default => exact absurd rfl hf
    | number label default | date label default | dateTime label default =>
      unfold NodAnswerField.isValidDefinition
      rw [Bool.and_eq_true, Bool.and_eq_true, decide_eq_true_iff, labelValid_eq]
      exact and_iff_left rfl
  have hvalue := values_agree (F := F) hf f.defaultValue
  rw [← defaultValue_ofAnswerField] at hvalue
  unfold Accepts
  rw [hdefinition, validate_iff]
  constructor
  · intro ⟨⟨hl, hsize⟩, hdefault⟩
    have htext := size_text_le (ofAnswerField f).toJson
    rw [toJson_ofAnswerField] at htext hsize
    exact ⟨hl, htext.trans hsize, hchoices.1, hvalue.mpr hdefault⟩
  · intro ⟨hl, _, _, hdefault⟩
    have hparts : PartsValid (ofAnswerField f) := {
      label := hlabel ▸ hl
      choices := fun choices hsome => by rw [hchoices.2] at hsome; cases hsome
      default := length_default hf (hvalue.mp hdefault) }
    exact ⟨⟨hl, hparts.size⟩, hvalue.mp hdefault⟩

/-! ## Agreement -/

variable (F)

/-- A state whose other cards decode still decodes with a card that carries the definition. -/
def KeepsState (field : AnswerField) : Prop :=
  ∀ (ρ : Type) (rest : Json → Except DecodingError ρ) (state : List (String × Json))
    (before after : List Json) (card : List (String × Json)),
    Json.lookup "requests" state = some (.arr (before ++ .obj card :: after)) →
    Json.lookup "answer_field" card = some field.toJson → (∃ others, rest (.obj card) = .ok others) →
    (∀ c ∈ before ++ after, ∃ request, decodeRequest F rest c = .ok request) →
    ∃ requests, decodeRequests F rest (.obj state) = .ok requests

/-- The app and the server say the same of a definition. -/
structure Agrees (field : AnswerField) : Prop where
  definition : field.validate = .ok () ↔ ∃ g, NodAnswerField.decode F field.toJson = .ok g
  values : field.validate = .ok () → ∀ v : AnswerValue,
    (field.validateValue v = .ok () ↔ (ofAnswerField field).isValid F (ofAnswerValue v) = true)
  state : field.validate = .ok () → KeepsState F field

/-- A well-formed choice definition with texts that the app takes for one another: labels, or a
    listed id and another text. A default that is not listed passes the app's check when it is taken
    for a listed one. -/
def Confused : AnswerField → Prop
  | .choice label choices (.choice d) =>
    WellFormed label choices ∧
      if d ∈ choices.map AnswerChoice.id then ¬ (LabelsApart F choices ∧ IdsApart F choices)
      else LabelsApart F choices ∧ ∃ c ∈ choices, F.same c.id d = true
  | _ => False

variable {F}

theorem keepsState_of_decode {field : AnswerField} {g : NodAnswerField}
    (h : NodAnswerField.decode F field.toJson = .ok g) : KeepsState F field := by
  intro ρ rest state before after card hstate hcard hrest hothers
  obtain ⟨others, hrest⟩ := hrest
  have hdecode : decodeRequest F rest (.obj card) = .ok (others, some g) := by
    unfold decodeRequest
    simp only [hrest, container, hcard, h, bind, Except.bind, pure, Except.pure]
  have hall : ∀ c ∈ before ++ .obj card :: after, ∃ request, decodeRequest F rest c = .ok request := by
    intro c hc
    rw [List.mem_append, List.mem_cons] at hc
    obtain hbefore | rfl | hafter := hc
    · exact hothers c (List.mem_append_left _ hbefore)
    · exact ⟨_, hdecode⟩
    · exact hothers c (List.mem_append_right _ hafter)
  obtain ⟨requests, hrequests⟩ := exists_mapM hall
  refine ⟨requests, ?_⟩
  unfold decodeRequests
  simp only [container, hstate, bind, Except.bind]
  exact hrequests

/-- Where both checks agree on a definition, only its values can differ. -/
theorem agrees_of {field : AnswerField} (hdefinition : Accepts F (ofAnswerField field) ↔
      field.validate = .ok ())
    (hvalues : field.validate = .ok () → ∀ v : AnswerValue, (field.validateValue v = .ok () ↔
      (ofAnswerField field).isValid F (ofAnswerValue v) = true)) : Agrees F field where
  definition := by
    rw [← hdefinition]
    exact ⟨fun h => ⟨_, (decode_eq_ok F).mpr ⟨h, rfl⟩⟩, fun ⟨_, h⟩ => ((decode_eq_ok F).mp h).1⟩
  values := hvalues
  state := fun h => keepsState_of_decode ((decode_eq_ok F).mpr ⟨hdefinition.mpr h, rfl⟩)

theorem Agrees.accepts {field : AnswerField} (h : Agrees F field) :
    Accepts F (ofAnswerField field) ↔ field.validate = .ok () := by
  rw [h.definition]
  exact ⟨fun h => ⟨_, (decode_eq_ok F).mpr ⟨h, rfl⟩⟩, fun ⟨_, h⟩ => ((decode_eq_ok F).mp h).1⟩

theorem exists_same_of_mem {choices : List AnswerChoice} {d : String}
    (h : d ∈ choices.map AnswerChoice.id) : ∃ c ∈ choices, F.same c.id d = true := by
  obtain ⟨c, hc, rfl⟩ := List.mem_map.mp h
  exact ⟨c, hc, F.same_refl c.id⟩

/-- On every value both checks of a choice agree when no other text is taken for a listed id. -/
theorem choice_values_iff {label : String} {choices : List AnswerChoice} {default : AnswerValue} :
    (∀ v : AnswerValue, (AnswerField.choice label choices default).validateValue v = .ok () ↔
      (ofAnswerField (.choice label choices default)).isValid F (ofAnswerValue v) = true) ↔
    IdsApart F choices := by
  constructor
  · intro h s hsame
    have hvalid := (h (.choice s)).mpr (isValid_choice_iff.mpr ⟨s, rfl, hsame⟩)
    obtain ⟨t, ht, hmem⟩ := validateValue_choice_iff.mp hvalid
    cases ht
    exact hmem
  · intro h v
    rw [validateValue_choice_iff, isValid_choice_iff]
    constructor
    · intro ⟨s, hs, hmem⟩
      exact ⟨s, hs, exists_same_of_mem hmem⟩
    · intro ⟨s, hs, hsame⟩
      exact ⟨s, hs, h s hsame⟩

theorem agrees_choice_iff {label : String} {choices : List AnswerChoice} {d : String} :
    Agrees F (.choice label choices (.choice d)) ↔
      ¬ Confused F (.choice label choices (.choice d)) := by
  have hserver : (AnswerField.choice label choices (.choice d)).validate = .ok () ↔
      WellFormed label choices ∧ d ∈ choices.map AnswerChoice.id := by
    rw [validate_choice_iff]
    simp
  have happ : Accepts F (ofAnswerField (.choice label choices (.choice d))) ↔
      WellFormed label choices ∧ LabelsApart F choices ∧ ∃ c ∈ choices, F.same c.id d = true := by
    rw [accepts_choice_iff]
    simp
  constructor
  · intro hagrees ⟨hwell, hconfused⟩
    have haccepts := hagrees.accepts
    rw [happ, hserver] at haccepts
    by_cases hd : d ∈ choices.map AnswerChoice.id
    · rw [if_pos hd] at hconfused
      have hids := choice_values_iff.mp (hagrees.values (hserver.mpr ⟨hwell, hd⟩))
      exact hconfused ⟨(haccepts.mpr ⟨hwell, hd⟩).2.1, hids⟩
    · rw [if_neg hd] at hconfused
      exact hd (haccepts.mp ⟨hwell, hconfused⟩).2
  · intro hclear
    have hlisted : WellFormed label choices → d ∈ choices.map AnswerChoice.id →
        LabelsApart F choices ∧ IdsApart F choices := by
      intro hwell hd
      by_contra hapart
      exact hclear ⟨hwell, by rwa [if_pos hd]⟩
    refine agrees_of ?_ ?_
    · rw [happ, hserver]
      constructor
      · intro ⟨hwell, happart⟩
        by_contra hd
        exact hclear ⟨hwell, by rwa [if_neg fun hmem => hd ⟨hwell, hmem⟩]⟩
      · intro ⟨hwell, hd⟩
        exact ⟨hwell, (hlisted hwell hd).1, exists_same_of_mem hd⟩
    · intro hvalid
      obtain ⟨hwell, hd⟩ := hserver.mp hvalid
      exact choice_values_iff.mpr (hlisted hwell hd).2

/-- The app and the server agree on exactly the definitions without confused texts. -/
theorem answer_agreement (F : Foundation) (field : AnswerField) :
    Agrees F field ↔ ¬ Confused F field := by
  cases field with
  | choice label choices default =>
    cases default with
    | choice d => exact agrees_choice_iff
    | number d | date d | dateTime d =>
      -- a default of another kind passes neither check
      refine ⟨fun _ hconfused => hconfused, fun _ => agrees_of ?_ fun hvalid => ?_⟩
      · rw [accepts_choice_iff, validate_choice_iff]
        simp
      · rw [validate_choice_iff] at hvalid
        obtain ⟨_, _, hdefault, _⟩ := hvalid
        cases hdefault
  | number label default | date label default | dateTime label default =>
    refine ⟨fun _ hconfused => hconfused, fun _ => agrees_of (accepts_iff_validate ?_) fun _ =>
      values_agree ?_⟩
    · simp [ofAnswerField]
    · simp [ofAnswerField]

/-! ## A card that stops the app -/

/-- The two texts of é, the Kelvin sign, and a formatter that takes dates from the year 1 on. -/
def sampleFoundation : Foundation where
  decompose c := if c = '\u00e9' then ['e', '\u0301'] else if c = '\u212a' then ['K'] else [c]
  combiningClass c := if c = '\u0301' then 230 else 0
  decompose_ne_nil c := by
    split
    · exact List.cons_ne_nil _ _
    · split <;> exact List.cons_ne_nil _ _
  decompose_ascii c hc := by
    rw [if_neg fun h => by rw [h] at hc; revert hc; decide,
      if_neg fun h => by rw [h] at hc; revert hc; decide]
  combiningClass_ascii c hc := if_neg fun h => by rw [h] at hc; revert hc; decide
  roundTrips
    | .dateTime, s => validInstant s
    | _, s => validDate s
  roundTrips_date s hlead _ := by
    rw [validDate_iff]
    constructor
    · intro ⟨t, hs⟩
      exact ⟨t.year, t.month, t.day, t.year_mem.2, t.month_mem, t.day_mem, hs⟩
    · intro ⟨year, month, day, hyear, hmonth, hday, hs⟩
      exact ⟨⟨year, month, day, ⟨year_pos hlead hyear hs, hyear⟩, hmonth, hday⟩, hs⟩
  roundTrips_dateTime s hlead _ := by
    have hzulu : ":00Z".toList = [':', '0', '0', 'Z'] := by decide
    rw [validInstant_iff]
    constructor
    · intro ⟨t, hs⟩
      refine ⟨civilDate t.year t.month t.day, t.hour, t.minute,
        ⟨t.year, t.month, t.day, t.year_mem.2, t.month_mem, t.day_mem, rfl⟩, t.hour_lt, t.minute_lt, ?_⟩
      rw [hzulu]
      exact hs
    · intro ⟨date, hour, minute, ⟨year, month, day, hyear, hmonth, hday, hdate⟩, hhour, hminute, hs⟩
      rw [hdate, hzulu] at hs
      have hsplit := hs
      unfold civilDate at hsplit
      rw [List.append_assoc] at hsplit
      exact ⟨⟨⟨year, month, day, ⟨year_pos hlead hyear hsplit, hyear⟩, hmonth, hday⟩, hour, minute,
        hhour, hminute⟩, hs⟩

/-- Two labels that differ in bytes and are canonically equivalent. -/
def accentedField : AnswerField :=
  .choice "Where" [⟨"a", "Caf\u00e9"⟩, ⟨"b", "Cafe\u0301"⟩] (.choice "a")

/-- The server accepts the definition, and no state with a card that carries it decodes. -/
theorem accented_state_lost : accentedField.validate = .ok () ∧
    (∀ requests : List (Unit × Option NodAnswerField),
      decodeRequests sampleFoundation (fun _ => .ok ()) (.obj [("requests",
        .arr [.obj [("answer_field", accentedField.toJson)]])]) ≠ .ok requests) ∧
    ¬ Agrees sampleFoundation accentedField := by
  have hvalid : accentedField.validate = .ok () := by
    refine validate_choice_iff.mpr ⟨⟨?_, ?_, ?_, ?_, ?_⟩, "a", rfl, ?_⟩
    all_goals decide
  have hrejects : ∀ g, NodAnswerField.decode sampleFoundation accentedField.toJson ≠ .ok g := by
    intro g hg
    obtain ⟨_, hlabels, _⟩ := accepts_choice_iff.mp ((decode_eq_ok _).mp hg).1
    revert hlabels
    unfold LabelsApart
    decide
  refine ⟨hvalid, ?_, fun hagrees => ?_⟩
  · intro requests h
    have hcard : ∀ card, decodeRequest sampleFoundation (fun _ => .ok ())
        (.obj [("answer_field", accentedField.toJson)]) ≠ .ok card := by
      intro card hdecode
      unfold decodeRequest at hdecode
      simp only [bind_eq_ok] at hdecode
      obtain ⟨_, -, _, hcontainer, hfield⟩ := hdecode
      cases hcontainer
      obtain ⟨g, hg, -⟩ := bind_eq_ok.mp hfield
      exact hrejects g hg
    unfold decodeRequests at h
    obtain ⟨_, hcontainer, hcards⟩ := bind_eq_ok.mp h
    cases hcontainer
    have hmap : [Json.obj [("answer_field", accentedField.toJson)]].mapM
        (decodeRequest sampleFoundation fun _ => Except.ok ()) = .ok requests := hcards
    rw [List.mapM_cons] at hmap
    obtain ⟨card, hdecode, -⟩ := bind_eq_ok.mp hmap
    exact hcard card hdecode
  · obtain ⟨g, hg⟩ := hagrees.definition.mp hvalid
    exact hrejects g hg

end Nod.Apple
