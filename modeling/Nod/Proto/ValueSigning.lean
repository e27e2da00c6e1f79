import Nod.Proto.Signing

/-
  The value digest and the value decision payload (`nod-proto/src/value_signing.rs`), and the
  canonical JSON writer they go through.
  Proved: on a tree with ASCII keys and no floating-point number the canonical writer gives the
  compact text of the sorted tree (`canonicalValueJson_eq`).
-/

namespace Nod.Proto

open Lib

def valueRequestDigestVersion : String := "nod-request-v2"
def legacyValueRequestDigestVersion : String := "nod-request-v3"
def valueDecisionPayloadVersion : String := "nod-decision-v2"

/-! ## Canonical JSON -/

namespace Canonical

/-- Members already written, in key order; the first bad key or value decides the error. -/
def joinMembers : List (String × Except String (List Char)) → Except String (List (List Char))
  | [] => .ok []
  | (k, v) :: ms => do
    refuseIf (k.toList.all Text.isAscii = false) "non-ASCII canonical member key"
    let v ← v
    let rest ← joinMembers ms
    pure ((Json.renderString k ++ ':' :: v) :: rest)

mutual
/-- Compact text with sorted keys; floating-point numbers are refused. -/
def write : Json → Except String (List Char)
  | .float _ => .error "floating canonical number"
  | .arr vs => do
    let items ← writeItems vs
    pure ('[' :: ([','].intercalate items ++ [']']))
  | .obj ms => do
    let members ← joinMembers (Json.ofMembers (writeMembers ms))
    pure ('{' :: ([','].intercalate members ++ ['}']))
  | v => .ok v.render

def writeItems : List Json → Except String (List (List Char))
  | [] => .ok []
  | v :: vs => do
    let v ← write v
    let rest ← writeItems vs
    pure (v :: rest)

def writeMembers : List (String × Json) → List (String × Except String (List Char))
  | [] => []
  | (k, v) :: ms => (k, write v) :: writeMembers ms
end

end Canonical

def canonicalValueJson (v : Json) : Except String String := do
  let cs ← Canonical.write v
  pure (String.ofList cs)

namespace Canonical

mutual
/-- Every member key is ASCII. -/
def AsciiKeys : Json → Prop
  | .arr vs => AsciiKeysItems vs
  | .obj ms => AsciiKeysMembers ms
  | _ => True

def AsciiKeysItems : List Json → Prop
  | [] => True
  | v :: vs => AsciiKeys v ∧ AsciiKeysItems vs

def AsciiKeysMembers : List (String × Json) → Prop
  | [] => True
  | (k, v) :: ms => k.toList.all Text.isAscii = true ∧ AsciiKeys v ∧ AsciiKeysMembers ms
end

theorem renderItems_eq (vs : List Json) :
    Json.renderItems vs = (vs.map fun v => ',' :: v.render).flatten ++ [']'] := by
  induction vs with
  | nil => rfl
  | cons v vs ih => simp [Json.renderItems, ih]

def renderMember (m : String × Json) : List Char :=
  Json.renderString m.1 ++ ':' :: m.2.render

theorem renderMembers_eq (ms : List (String × Json)) :
    Json.renderMembers ms = (ms.map fun m => ',' :: renderMember m).flatten ++ ['}'] := by
  induction ms with
  | nil => rfl
  | cons m ms ih => simp [Json.renderMembers, renderMember, ih]

theorem intercalate_cons {α : Type} (sep : α) (x : List α) (xs : List (List α)) :
    [sep].intercalate (x :: xs) = x ++ (xs.map fun y => sep :: y).flatten := by
  induction xs generalizing x with
  | nil => simp
  | cons y ys ih => simp [ih]

theorem render_arr (vs : List Json) :
    (Json.arr vs).render = '[' :: ([','].intercalate (vs.map Json.render) ++ [']']) := by
  cases vs with
  | nil => rfl
  | cons v vs =>
    rw [Json.render, renderItems_eq, List.map_cons, intercalate_cons]
    simp [Function.comp_def]

theorem render_obj (ms : List (String × Json)) :
    (Json.obj ms).render = '{' :: ([','].intercalate (ms.map renderMember) ++ ['}']) := by
  cases ms with
  | nil => rfl
  | cons m ms =>
    rw [Json.render, renderMembers_eq, List.map_cons, intercalate_cons]
    simp [Function.comp_def, renderMember]

theorem joinMembers_ok (ms : List (String × Json))
    (h : ∀ m ∈ ms, m.1.toList.all Text.isAscii = true) :
    joinMembers (ms.map fun m => (m.1, .ok m.2.render)) = .ok (ms.map renderMember) := by
  induction ms with
  | nil => rfl
  | cons m ms ih =>
    have hm := h m List.mem_cons_self
    have hms := ih fun n hn => h n (List.mem_cons_of_mem _ hn)
    simp only [List.map_cons, joinMembers, hms]
    rw [refuseIf_neg (by rw [hm]; decide)]
    rfl

theorem asciiKeysMembers_iff (ms : List (String × Json)) :
    AsciiKeysMembers ms ↔ ∀ m ∈ ms, m.1.toList.all Text.isAscii = true ∧ AsciiKeys m.2 := by
  induction ms with
  | nil => simp [AsciiKeysMembers]
  | cons m ms ih => simp only [AsciiKeysMembers, ih, List.forall_mem_cons, and_assoc]

mutual
theorem write_eq : ∀ v : Json, AsciiKeys v → v.FloatFree → write v = .ok v.sorted.render
  | .null, _, _ => rfl
  | .bool _, _, _ => rfl
  | .num _, _, _ => rfl
  | .float _, _, h => by simp [Json.FloatFree] at h
  | .str _, _, _ => rfl
  | .arr vs, ha, hf => by
    rw [write, writeItems_eq vs ha hf, Json.sorted, render_arr]
    rfl
  | .obj ms, ha, hf => by
    have hkeys : ∀ m ∈ Json.ofMembers (Json.sortedMembers ms),
        m.1.toList.all Text.isAscii = true := by
      intro m hm
      have hm := Json.mem_of_mem_ofMembers hm
      rw [Json.sortedMembers_eq_map] at hm
      obtain ⟨n, hn, rfl⟩ := List.mem_map.mp hm
      exact ((asciiKeysMembers_iff ms).mp ha n hn).1
    have hsort : Json.ofMembers (writeMembers ms) =
        (Json.ofMembers (Json.sortedMembers ms)).map fun m => (m.1, .ok m.2.render) := by
      rw [writeMembers_eq ms ha hf]
      exact Json.ofMembers_map (fun v : Json => (.ok v.render : Except String (List Char))) _
    rw [write, hsort, joinMembers_ok _ hkeys, Json.sorted, render_obj]
    rfl

theorem writeItems_eq : ∀ vs : List Json, AsciiKeysItems vs → Json.FloatFreeItems vs →
    writeItems vs = .ok ((Json.sortedItems vs).map Json.render)
  | [], _, _ => rfl
  | v :: vs, ha, hf => by
    rw [writeItems, write_eq v ha.1 hf.1, writeItems_eq vs ha.2 hf.2]
    rfl

theorem writeMembers_eq : ∀ ms : List (String × Json), AsciiKeysMembers ms →
    Json.FloatFreeMembers ms →
      writeMembers ms = (Json.sortedMembers ms).map fun m => (m.1, .ok m.2.render)
  | [], _, _ => rfl
  | (k, v) :: ms, ha, hf => by
    rw [writeMembers, write_eq v ha.2.1 hf.1, writeMembers_eq ms ha.2.2 hf.2]
    rfl
end

end Canonical

/-- The canonical text is the compact text of the sorted tree. -/
theorem canonicalValueJson_eq {v : Json} (ha : Canonical.AsciiKeys v) (hf : v.FloatFree) :
    canonicalValueJson v = .ok v.sorted.text := by
  rw [canonicalValueJson, Canonical.write_eq v ha hf]
  rfl

/-! ## The trees of the wire types are plain -/

/-- No floating-point number, and ASCII keys throughout. -/
def Plain (v : Json) : Prop := v.FloatFree ∧ Canonical.AsciiKeys v

theorem plain_str (s : String) : Plain (.str s) := ⟨trivial, trivial⟩
theorem plain_bool (b : Bool) : Plain (.bool b) := ⟨trivial, trivial⟩
theorem plain_null : Plain .null := ⟨trivial, trivial⟩

theorem plain_arr {α : Type} (f : α → Json) (h : ∀ a, Plain (f a)) (as : List α) :
    Plain (.arr (as.map f)) := by
  constructor
  · exact (Json.floatFreeItems_iff _).mpr (List.forall_mem_map.mpr fun a _ => (h a).1)
  · induction as with
    | nil => trivial
    | cons a as ih => exact ⟨(h a).2, ih⟩

theorem plain_obj_nil : Plain (.obj []) := ⟨trivial, trivial⟩

theorem plain_obj_cons {k : String} {v : Json} {ms : List (String × Json)}
    (hk : k.toList.all Text.isAscii = true) (hv : Plain v) (hms : Plain (.obj ms)) :
    Plain (.obj ((k, v) :: ms)) :=
  ⟨⟨hv.1, hms.1⟩, ⟨hk, hv.2, hms.2⟩⟩

theorem plain_obj {ms : List (String × Json)}
    (h : ∀ m ∈ ms, m.1.toList.all Text.isAscii = true ∧ Plain m.2) : Plain (.obj ms) := by
  induction ms with
  | nil => exact plain_obj_nil
  | cons m ms ih =>
    have hm := h m List.mem_cons_self
    exact plain_obj_cons hm.1 hm.2 (ih fun n hn => h n (List.mem_cons_of_mem _ hn))

theorem plain_optStr (o : Option String) : Plain (JsonOf.optStr o) := by
  cases o
  · exact plain_null
  · exact plain_str _

theorem plain_optMillisJson (o : Option DateTime) : Plain (optMillisJson o) := by
  cases o
  · exact plain_null
  · exact plain_str _

theorem AnswerValue.plain_toJson (v : AnswerValue) : Plain v.toJson := by
  cases v <;>
    exact plain_obj_cons (by decide) (plain_str _)
      (plain_obj_cons (by decide) (plain_str _) plain_obj_nil)

theorem AnswerChoice.plain_toJson (c : AnswerChoice) : Plain c.toJson :=
  plain_obj_cons (by decide) (plain_str _) (plain_obj_cons (by decide) (plain_str _) plain_obj_nil)

theorem AnswerField.plain_toJson (f : AnswerField) : Plain f.toJson := by
  cases f with
  | choice label choices default =>
    exact plain_obj_cons (by decide) (plain_str _) (plain_obj_cons (by decide) (plain_str _)
      (plain_obj_cons (by decide) (plain_arr _ AnswerChoice.plain_toJson _)
        (plain_obj_cons (by decide) default.plain_toJson plain_obj_nil)))
  | number label default =>
    exact plain_obj_cons (by decide) (plain_str _) (plain_obj_cons (by decide) (plain_str _)
      (plain_obj_cons (by decide) default.plain_toJson plain_obj_nil))
  | date label default =>
    exact plain_obj_cons (by decide) (plain_str _) (plain_obj_cons (by decide) (plain_str _)
      (plain_obj_cons (by decide) default.plain_toJson plain_obj_nil))
  | dateTime label default =>
    exact plain_obj_cons (by decide) (plain_str _) (plain_obj_cons (by decide) (plain_str _)
      (plain_obj_cons (by decide) default.plain_toJson plain_obj_nil))

theorem CardField.plain_toJson (f : CardField) : Plain f.toJson :=
  plain_obj_cons (by decide) (plain_str _) (plain_obj_cons (by decide) (plain_str _)
    (plain_obj_cons (by decide) (plain_optStr _) plain_obj_nil))

theorem CardLink.plain_toJson (l : CardLink) : Plain l.toJson :=
  plain_obj_cons (by decide) (plain_str _) (plain_obj_cons (by decide) (plain_str _) plain_obj_nil)

theorem RequestNotification.plain_toJson (n : RequestNotification) : Plain n.toJson :=
  plain_obj_cons (by decide) (plain_bool _) (plain_obj_cons (by decide) (plain_optStr _)
    (plain_obj_cons (by decide) (plain_optStr _) plain_obj_nil))

theorem RequestOption.plain_toJson (o : RequestOption) : Plain o.toJson := by
  refine plain_obj ?_
  simp only [List.forall_mem_cons, List.not_mem_nil, false_implies, implies_true, and_true]
  exact ⟨⟨by decide, plain_str _⟩, ⟨by decide, plain_str _⟩, ⟨by decide, plain_str _⟩,
    ⟨by decide, plain_str _⟩, ⟨by decide, plain_bool _⟩, ⟨by decide, plain_optStr _⟩,
    ⟨by decide, plain_bool _⟩, ⟨by decide, plain_bool _⟩⟩

theorem plain_contentMembers (r : Request) (commitment : String) :
    ∀ m ∈ contentMembers r commitment, m.1.toList.all Text.isAscii = true ∧ Plain m.2 := by
  simp only [contentMembers, List.forall_mem_cons, List.not_mem_nil, false_implies, implies_true,
    and_true]
  exact ⟨⟨by decide, plain_str _⟩, ⟨by decide, plain_str _⟩, ⟨by decide, plain_str _⟩,
    ⟨by decide, plain_str _⟩, ⟨by decide, plain_str _⟩, ⟨by decide, plain_str _⟩,
    ⟨by decide, plain_str _⟩, ⟨by decide, plain_arr _ CardField.plain_toJson _⟩,
    ⟨by decide, plain_arr _ CardLink.plain_toJson _⟩, ⟨by decide, plain_optStr _⟩,
    ⟨by decide, r.notification.plain_toJson⟩, ⟨by decide, plain_optStr _⟩,
    ⟨by decide, plain_optMillisJson _⟩, ⟨by decide, plain_str _⟩, ⟨by decide, plain_optStr _⟩,
    ⟨by decide, plain_arr _ RequestOption.plain_toJson _⟩⟩

/-! ## Value digests -/

/-- The tree behind a value digest. The source's tree keeps its keys ordered; the canonical writer
    orders them itself, so the members stand here as they are listed. -/
def valueContent (r : Request) (commitment : String) (field : AnswerField) : Json :=
  .obj (contentMembers r commitment ++ [("answer_field", field.toJson)])

def valueRequestDigestWithVersion (E : Externals) (r : Request) (commitment : String)
    (field : AnswerField) (version : String) : Except SigningError String := do
  refuseIf (validCommitment commitment = false) SigningError.invalidRecipientCommitment
  field.validate.mapError .invalidValue
  let canonical ← (canonicalValueJson (valueContent r commitment field)).mapError .invalidValue
  pure (E.sha256Hex (version ++ "\n" ++ canonical ++ "\n"))

/-- The current value digest. -/
def valueRequestDigest (E : Externals) (r : Request) (commitment : String)
    (field : AnswerField) : Except SigningError String :=
  valueRequestDigestWithVersion E r commitment field valueRequestDigestVersion

/-- The value digest under its earlier tag, kept for stored signatures. -/
def valueRequestDigestLegacyV3 (E : Externals) (r : Request) (commitment : String)
    (field : AnswerField) : Except SigningError String :=
  valueRequestDigestWithVersion E r commitment field legacyValueRequestDigestVersion

/-- The value digest a received tag selects, `none` for an unknown tag. -/
def valueRequestDigestForVersion (E : Externals) (r : Request) (version commitment : String)
    (field : AnswerField) : Except SigningError (Option String) :=
  if version = valueRequestDigestVersion then some <$> valueRequestDigest E r commitment field
  else if version = legacyValueRequestDigestVersion then
    some <$> valueRequestDigestLegacyV3 E r commitment field
  else .ok none

/-! ## Value decision payload -/

/-- Notes are trimmed, and empty ones are absent. -/
def trimmedNotes (text : Option String) : Option String :=
  (text.map Text.trim).filter (· ≠ "")

def decisionContent (input : DecisionSigningInput) (answer : AnswerValue) : Json :=
  .obj [("request_id", .str input.requestId),
    ("request_digest", .str input.requestDigest),
    ("option_id", .str input.optionId),
    ("option_kind", .str input.optionKind.asStr),
    ("user_id", .str input.userId),
    ("device_id", .str input.deviceId),
    ("key_id", .str input.keyId),
    ("nonce", .str input.nonce),
    ("signed_at", .str input.signedAt),
    ("text", JsonOf.optStr (trimmedNotes input.text)),
    ("answer_value", answer.toJson)]

def decisionSigningPayloadV2 (input : DecisionSigningInput) (answer : AnswerValue) :
    Except SigningError String := do
  let signedAt ← orElse (.invalidValue "invalid signed_at")
    (DateTime.parseFromRfc3339 input.signedAt)
  refuseIf (signedAt.toRfc3339Millis ≠ input.signedAt)
    (SigningError.invalidValue "noncanonical signed_at")
  refuseIf (∃ v ∈ trimmedNotes input.text, 16384 < v.utf8ByteSize)
    (SigningError.invalidValue "notes exceed 16384 bytes")
  let canonical ← (canonicalValueJson (decisionContent input answer)).mapError .invalidValue
  pure (valueDecisionPayloadVersion ++ "\n" ++ canonical ++ "\n")

/-! ## When the encoders succeed -/

theorem plain_valueContent (r : Request) (commitment : String) (field : AnswerField) :
    Plain (valueContent r commitment field) := by
  refine plain_obj fun m hm => ?_
  rcases List.mem_append.mp hm with hm | hm
  · exact plain_contentMembers r commitment m hm
  · rw [List.mem_singleton.mp hm]
    exact ⟨show "answer_field".toList.all Text.isAscii = true by decide, field.plain_toJson⟩

theorem plain_decisionContent (input : DecisionSigningInput) (answer : AnswerValue) :
    Plain (decisionContent input answer) := by
  refine plain_obj ?_
  simp only [List.forall_mem_cons, List.not_mem_nil, false_implies, implies_true, and_true]
  exact ⟨⟨by decide, plain_str _⟩, ⟨by decide, plain_str _⟩, ⟨by decide, plain_str _⟩,
    ⟨by decide, plain_str _⟩, ⟨by decide, plain_str _⟩, ⟨by decide, plain_str _⟩,
    ⟨by decide, plain_str _⟩, ⟨by decide, plain_str _⟩, ⟨by decide, plain_str _⟩,
    ⟨by decide, plain_optStr _⟩, ⟨by decide, answer.plain_toJson⟩⟩

/-- The text behind a value digest under a version tag. -/
def valuePreimage (r : Request) (commitment : String) (field : AnswerField) (version : String) :
    String :=
  version ++ "\n" ++ (valueContent r commitment field).sorted.text ++ "\n"

/-- A value digest needs a well-formed commitment and a valid field, and nothing else. -/
theorem valueRequestDigestWithVersion_eq_ok {E : Externals} {r : Request} {commitment : String}
    {field : AnswerField} {version d : String} :
    valueRequestDigestWithVersion E r commitment field version = .ok d ↔
      validCommitment commitment = true ∧ field.validate = .ok () ∧
        E.sha256Hex (valuePreimage r commitment field version) = d := by
  have hc := canonicalValueJson_eq (plain_valueContent r commitment field).2
    (plain_valueContent r commitment field).1
  simp [valueRequestDigestWithVersion, hc, valuePreimage]

/-- The text of a value decision payload. -/
def valuePayloadText (input : DecisionSigningInput) (answer : AnswerValue) : String :=
  valueDecisionPayloadVersion ++ "\n" ++ (decisionContent input answer).sorted.text ++ "\n"

/-- A signing time in canonical millisecond form. -/
def CanonicalTime (s : String) : Prop :=
  ∃ t, DateTime.parseFromRfc3339 s = some t ∧ t.toRfc3339Millis = s

/-- A value payload needs a canonical signing time and notes that fit, and nothing else. -/
theorem decisionSigningPayloadV2_eq_ok {input : DecisionSigningInput} {answer : AnswerValue}
    {p : String} :
    decisionSigningPayloadV2 input answer = .ok p ↔
      CanonicalTime input.signedAt ∧
        (∀ v ∈ trimmedNotes input.text, v.utf8ByteSize ≤ 16384) ∧
        valuePayloadText input answer = p := by
  have hc := canonicalValueJson_eq (plain_decisionContent input answer).2
    (plain_decisionContent input answer).1
  simp only [decisionSigningPayloadV2, CanonicalTime, hc, bind_eq_ok, orElse_eq_ok,
    refuseIf_eq_ok, mapError_eq_ok, pure_eq_ok, Except.ok.injEq, valuePayloadText]
  constructor
  · rintro ⟨t, ht, _, hcanon, _, hnotes, _, rfl, hp⟩
    refine ⟨⟨t, ht, not_not.mp hcanon⟩, fun v hv => ?_, hp⟩
    exact not_lt.mp fun h => hnotes ⟨v, hv, h⟩
  · rintro ⟨⟨t, ht, hcanon⟩, hnotes, hp⟩
    refine ⟨t, ht, (), not_not.mpr hcanon, (), ?_, _, rfl, hp⟩
    rintro ⟨v, hv, h⟩
    exact absurd (hnotes v hv) (not_le.mpr h)

theorem structuredRequestDigest_eq_ok {E : Externals} {r : Request}
    {commitment version d : String} :
    structuredRequestDigest E r commitment version = .ok d ↔
      validCommitment commitment = true ∧
        E.sha256Hex (structuredPreimage r commitment version) = d := by
  simp [structuredRequestDigest]

end Nod.Proto
