import Nod.Lib.JsonRead
import Nod.Proto.ValueSigning

/-
  The JSON that records serialise to names them: no two card parts, answer fields or create bodies
  have the same JSON, and so none have the same text.
  Proved: `toJson_inj` for each part and `CreateDecisionRequest.text_inj` for a whole body.
-/

namespace Nod.Proto

open Lib JsonOf

/-! ## Members -/

theorem optStr_inj {a b : Option String} (h : optStr a = optStr b) : a = b := by
  cases a <;> cases b <;> simp_all [optStr]

theorem optJson_inj {α : Type} {f : α → Json} (hf : ∀ a b, f a = f b → a = b)
    (hnull : ∀ a, f a ≠ .null) {a b : Option α} (h : optJson f a = optJson f b) : a = b := by
  cases a with
  | none =>
    cases b with
    | none => rfl
    | some b => exact absurd h.symm (hnull b)
  | some a =>
    cases b with
    | none => exact absurd h (hnull a)
    | some b => rw [hf a b h]

theorem optTime_inj {a b : Option DateTime} (h : optTime a = optTime b) : a = b := by
  cases a with
  | none => cases b <;> simp_all [optTime]
  | some a =>
    cases b with
    | none => simp [optTime] at h
    | some b =>
      simp only [optTime, Json.str.injEq] at h
      rw [DateTime.toRfc3339AutoSi_inj h]

theorem arr_map_inj {α : Type} {f : α → Json} (hf : ∀ a b, f a = f b → a = b) {as bs : List α}
    (h : Json.arr (as.map f) = Json.arr (bs.map f)) : as = bs :=
  List.map_injective_iff.mpr (fun a b => hf a b) (Json.arr.inj h)

theorem str_inj (a b : String) (h : Json.str a = Json.str b) : a = b := Json.str.inj h

/-! ## Parts of a card -/

theorem OptionKind.asStr_inj {a b : OptionKind} (h : a.asStr = b.asStr) : a = b := by
  have hkind := congrArg OptionKind.ofStr h
  rwa [OptionKind.ofStr_asStr, OptionKind.ofStr_asStr] at hkind

theorem CardField.toJson_inj {a b : CardField} (h : a.toJson = b.toJson) : a = b := by
  simp only [CardField.toJson, Json.obj.injEq, List.cons.injEq, Prod.mk.injEq, Json.str.injEq,
    true_and, and_true] at h
  obtain ⟨hlabel, hvalue, hstyle⟩ := h
  cases a
  cases b
  rw [CardField.mk.injEq]
  exact ⟨hlabel, hvalue, optStr_inj hstyle⟩

theorem CardLink.toJson_inj {a b : CardLink} (h : a.toJson = b.toJson) : a = b := by
  simp only [CardLink.toJson, Json.obj.injEq, List.cons.injEq, Prod.mk.injEq, Json.str.injEq,
    true_and, and_true] at h
  cases a
  cases b
  rw [CardLink.mk.injEq]
  exact h

theorem RequestOption.toJson_inj {a b : RequestOption} (h : a.toJson = b.toJson) : a = b := by
  simp only [RequestOption.toJson, Json.obj.injEq, List.cons.injEq, Prod.mk.injEq, Json.str.injEq,
    Json.bool.injEq, true_and, and_true] at h
  obtain ⟨hid, hlabel, hkind, hstyle, hrequires, hplaceholder, hdestructive, hforeground⟩ := h
  cases a
  cases b
  rw [RequestOption.mk.injEq]
  exact ⟨hid, hlabel, OptionKind.asStr_inj hkind, hstyle, hrequires, optStr_inj hplaceholder,
    hdestructive, hforeground⟩

theorem RequestNotification.toJson_inj {a b : RequestNotification} (h : a.toJson = b.toJson) :
    a = b := by
  simp only [RequestNotification.toJson, Json.obj.injEq, List.cons.injEq, Prod.mk.injEq,
    Json.bool.injEq, true_and, and_true] at h
  obtain ⟨hredact, htitle, hbody⟩ := h
  cases a
  cases b
  rw [RequestNotification.mk.injEq]
  exact ⟨hredact, optStr_inj htitle, optStr_inj hbody⟩

/-! ## Answers -/

/-- The kind a value or a field is tagged with tells its constructor. -/
theorem AnswerValue.toJson_inj {a b : AnswerValue} (h : a.toJson = b.toJson) : a = b := by
  cases a <;> cases b <;>
    simp only [AnswerValue.toJson, Json.obj.injEq, List.cons.injEq, Prod.mk.injEq, Json.str.injEq,
      true_and, and_true] at h
  case choice.choice => rw [h]
  case number.number => rw [h]
  case date.date => rw [h]
  case dateTime.dateTime => rw [h]
  all_goals exact absurd h.1 (by decide)

theorem AnswerChoice.toJson_inj {a b : AnswerChoice} (h : a.toJson = b.toJson) : a = b := by
  simp only [AnswerChoice.toJson, Json.obj.injEq, List.cons.injEq, Prod.mk.injEq, Json.str.injEq,
    true_and, and_true] at h
  cases a
  cases b
  rw [AnswerChoice.mk.injEq]
  exact h

theorem AnswerField.toJson_inj {a b : AnswerField} (h : a.toJson = b.toJson) : a = b := by
  cases a <;> cases b <;>
    simp only [AnswerField.toJson, Json.obj.injEq, List.cons.injEq, Prod.mk.injEq, Json.str.injEq,
      true_and, and_true] at h
  case choice.choice =>
    obtain ⟨hlabel, hchoices, hdefault⟩ := h
    rw [hlabel, arr_map_inj (fun _ _ => AnswerChoice.toJson_inj) hchoices,
      AnswerValue.toJson_inj hdefault]
  case number.number => rw [h.1, AnswerValue.toJson_inj h.2]
  case date.date => rw [h.1, AnswerValue.toJson_inj h.2]
  case dateTime.dateTime => rw [h.1, AnswerValue.toJson_inj h.2]
  all_goals exact absurd h.1 (by decide)

/-! ## Create bodies -/

theorem CreateDecisionRequest.toJson_inj {a b : CreateDecisionRequest}
    (h : a.toJson = b.toJson) : a = b := by
  have hmembers := Json.obj.inj h
  have hfield : a.answerField = b.answerField := by
    cases hfa : a.answerField with
    | none =>
      cases hfb : b.answerField with
      | none => rfl
      | some fb =>
        rw [hfa, hfb] at hmembers
        exact absurd (Prod.mk.inj (List.cons.inj hmembers).1).1 (by decide)
    | some fa =>
      cases hfb : b.answerField with
      | none =>
        rw [hfa, hfb] at hmembers
        exact absurd (Prod.mk.inj (List.cons.inj hmembers).1).1 (by decide)
      | some fb =>
        rw [hfa, hfb] at hmembers
        exact congrArg some (AnswerField.toJson_inj (Prod.mk.inj (List.cons.inj hmembers).1).2)
  rw [hfield] at hmembers
  have hrest := List.append_cancel_left hmembers
  simp only [List.cons.injEq, Prod.mk.injEq, Json.str.injEq, true_and, and_true] at hrest
  obtain ⟨hchannel, hrecipients, hresolution, htitle, hsummary, hbody, hfields, hlinks, himage,
    hnotification, hdedupe, hexpires, hoptions, hcallback⟩ := hrest
  cases a
  cases b
  rw [CreateDecisionRequest.mk.injEq]
  refine ⟨hfield, hchannel, ?_, ?_, htitle, hsummary, hbody,
    arr_map_inj (fun _ _ => CardField.toJson_inj) hfields,
    arr_map_inj (fun _ _ => CardLink.toJson_inj) hlinks, optStr_inj himage,
    RequestNotification.toJson_inj hnotification, optStr_inj hdedupe, optTime_inj hexpires,
    arr_map_inj (fun _ _ => RequestOption.toJson_inj) hoptions, optStr_inj hcallback⟩
  · exact optJson_inj (fun _ _ => arr_map_inj str_inj) nofun hrecipients
  · refine optJson_inj (fun x y hxy => ?_) nofun hresolution
    exact DecisionResolution.asStr_inj (Json.str.inj hxy)

theorem plain_optJson {α : Type} {f : α → Json} (h : ∀ a, Plain (f a)) (o : Option α) :
    Plain (optJson f o) := by
  cases o with
  | none => exact plain_null
  | some a => exact h a

theorem plain_optTime (o : Option DateTime) : Plain (optTime o) := by
  cases o
  · exact plain_null
  · exact plain_str _

theorem CreateDecisionRequest.plain_toJson (r : CreateDecisionRequest) : Plain r.toJson := by
  have hmembers : ∀ m ∈ [("channel_id", Json.str r.channelId),
      ("recipients", optJson (fun ids => .arr (ids.map .str)) r.recipients),
      ("decision_resolution", optJson (fun d => .str d.asStr) r.decisionResolution),
      ("title", .str r.title), ("summary", .str r.summary),
      ("body_markdown", .str r.bodyMarkdown), ("fields", .arr (r.fields.map CardField.toJson)),
      ("links", .arr (r.links.map CardLink.toJson)), ("image_url", optStr r.imageUrl),
      ("notification", r.notification.toJson), ("dedupe_key", optStr r.dedupeKey),
      ("expires_at", optTime r.expiresAt),
      ("options", .arr (r.options.map RequestOption.toJson)),
      ("callback_url", optStr r.callbackUrl)],
      m.1.toList.all Text.isAscii = true ∧ Plain m.2 := by
    simp only [List.forall_mem_cons, List.not_mem_nil, false_implies, implies_true, and_true]
    exact ⟨⟨by decide, plain_str _⟩, ⟨by decide, plain_optJson (plain_arr _ plain_str) _⟩,
      ⟨by decide, plain_optJson (fun _ => plain_str _) _⟩, ⟨by decide, plain_str _⟩,
      ⟨by decide, plain_str _⟩, ⟨by decide, plain_str _⟩,
      ⟨by decide, plain_arr _ CardField.plain_toJson _⟩,
      ⟨by decide, plain_arr _ CardLink.plain_toJson _⟩, ⟨by decide, plain_optStr _⟩,
      ⟨by decide, r.notification.plain_toJson⟩, ⟨by decide, plain_optStr _⟩,
      ⟨by decide, plain_optTime _⟩, ⟨by decide, plain_arr _ RequestOption.plain_toJson _⟩,
      ⟨by decide, plain_optStr _⟩⟩
  unfold CreateDecisionRequest.toJson
  cases r.answerField with
  | none => exact plain_obj hmembers
  | some field =>
    exact plain_obj_cons (by decide) field.plain_toJson (plain_obj hmembers)

/-- The text of a create body names it. -/
theorem CreateDecisionRequest.text_inj {a b : CreateDecisionRequest}
    (h : a.toJson.text = b.toJson.text) : a = b :=
  toJson_inj (Json.text_inj a.plain_toJson.1 b.plain_toJson.1 h)

end Nod.Proto
