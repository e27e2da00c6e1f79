import Nod.Lib.JsonValue
import Nod.Proto.Injective

/-
  What the text behind a request digest says. The line snapshot is a list of lines, free text
  hashed; the structured and value encodings are one JSON text under a version tag.
  Proved: a snapshot without stray line breaks names every line (`lineSnapshot_inj`), a structured
  or value text names its tag and every member (`structuredPreimage_inj`, `valuePreimage_inj`),
  and the three share no text.
-/

namespace Nod.Proto

open Lib JsonOf

/-! ## Sorted parts of a card -/

/-- Two objects of a kind and one more text: the kind is read off, and the text under its key. -/
theorem sorted_pair_inj {k k' s t u v : String} (hk : "kind" ≠ k) (hk' : "kind" ≠ k')
    (h : (Json.obj [("kind", .str s), (k, .str u)]).sorted =
      (Json.obj [("kind", .str t), (k', .str v)]).sorted) : s = t ∧ (k = k' → u = v) := by
  have hnodup : ∀ {key : String}, "kind" ≠ key → ["kind", key].Nodup := by
    intro key hne
    exact List.nodup_cons.mpr ⟨fun hm => hne (List.mem_singleton.mp hm), List.nodup_singleton _⟩
  have h := (Json.sorted_obj_eq_iff (by exact hnodup hk) (by exact hnodup hk')).mp h
  refine ⟨Json.str.inj (Option.some.inj (h "kind")), ?_⟩
  intro heq
  subst heq
  have hvalue := h k
  simp only [Json.lookup, if_neg hk.symm, if_true] at hvalue
  exact Json.str.inj (Option.some.inj hvalue)

theorem sorted_answer_inj {x y : AnswerValue} (h : x.toJson.sorted = y.toJson.sorted) : x = y := by
  cases x <;> cases y <;>
    simp only [AnswerValue.toJson] at h <;>
    obtain ⟨hkind, hvalue⟩ := sorted_pair_inj (by decide) (by decide) h
  case choice.choice => rw [hvalue rfl]
  case number.number => rw [hvalue rfl]
  case date.date => rw [hvalue rfl]
  case dateTime.dateTime => rw [hvalue rfl]
  all_goals exact absurd hkind (by decide)

theorem sorted_optStr (o : Option String) : (JsonOf.optStr o).sorted = JsonOf.optStr o := by
  cases o <;> rfl

theorem sorted_arr_inj {α : Type} {f : α → Json} (hf : ∀ a b, (f a).sorted = (f b).sorted → a = b)
    {as bs : List α} (h : (Json.arr (as.map f)).sorted = (Json.arr (bs.map f)).sorted) : as = bs := by
  have hitems := Json.arr.inj h
  rw [Json.sortedItems_eq_map, Json.sortedItems_eq_map, List.map_map, List.map_map] at hitems
  exact List.map_injective_iff.mpr (fun a b => hf a b) hitems

/-- Members of two sorted objects with the same distinct keys agree one by one. -/
theorem sorted_members {ms ns : List (String × Json)} (hms : (ms.map Prod.fst).Nodup)
    (hns : (ns.map Prod.fst).Nodup) (h : (Json.obj ms).sorted = (Json.obj ns).sorted) (k : String) :
    (Json.lookup k ms).map Json.sorted = (Json.lookup k ns).map Json.sorted :=
  (Json.sorted_obj_eq_iff hms hns).mp h k

theorem str_of_sorted {s t : String}
    (h : Option.map Json.sorted (some (.str s)) = Option.map Json.sorted (some (.str t))) : s = t :=
  Json.str.inj (Option.some.inj h)

theorem bool_of_sorted {a b : Bool}
    (h : Option.map Json.sorted (some (.bool a)) = Option.map Json.sorted (some (.bool b))) : a = b :=
  Json.bool.inj (Option.some.inj h)

theorem optStr_of_sorted {a b : Option String}
    (h : Option.map Json.sorted (some (optStr a)) = Option.map Json.sorted (some (optStr b))) :
    a = b := by
  have h := Option.some.inj h
  rw [sorted_optStr, sorted_optStr] at h
  exact optStr_inj h

theorem CardField.sorted_inj (a b : CardField) (h : a.toJson.sorted = b.toJson.sorted) : a = b := by
  have hkeys : ["label", "value", "style"].Nodup := by decide
  have h := sorted_members (by exact hkeys) (by exact hkeys) h
  cases a
  cases b
  rw [CardField.mk.injEq]
  exact ⟨str_of_sorted (h "label"), str_of_sorted (h "value"), optStr_of_sorted (h "style")⟩

theorem CardLink.sorted_inj (a b : CardLink) (h : a.toJson.sorted = b.toJson.sorted) : a = b := by
  have hkeys : ["label", "url"].Nodup := by decide
  have h := sorted_members (by exact hkeys) (by exact hkeys) h
  cases a
  cases b
  rw [CardLink.mk.injEq]
  exact ⟨str_of_sorted (h "label"), str_of_sorted (h "url")⟩

theorem RequestNotification.sorted_inj (a b : RequestNotification)
    (h : a.toJson.sorted = b.toJson.sorted) : a = b := by
  have hkeys : ["redact", "title", "body"].Nodup := by decide
  have h := sorted_members (by exact hkeys) (by exact hkeys) h
  cases a
  cases b
  rw [RequestNotification.mk.injEq]
  exact ⟨bool_of_sorted (h "redact"), optStr_of_sorted (h "title"), optStr_of_sorted (h "body")⟩

theorem RequestOption.sorted_inj (a b : RequestOption) (h : a.toJson.sorted = b.toJson.sorted) :
    a = b := by
  have hkeys : ["id", "label", "kind", "style", "requires_text", "text_placeholder", "destructive",
      "foreground"].Nodup := by decide
  have h := sorted_members (by exact hkeys) (by exact hkeys) h
  cases a
  cases b
  rw [RequestOption.mk.injEq]
  exact ⟨str_of_sorted (h "id"), str_of_sorted (h "label"),
    OptionKind.asStr_inj (str_of_sorted (h "kind")), str_of_sorted (h "style"),
    bool_of_sorted (h "requires_text"), optStr_of_sorted (h "text_placeholder"),
    bool_of_sorted (h "destructive"), bool_of_sorted (h "foreground")⟩

theorem AnswerChoice.sorted_inj (a b : AnswerChoice) (h : a.toJson.sorted = b.toJson.sorted) :
    a = b := by
  have hkeys : ["id", "label"].Nodup := by decide
  have h := sorted_members (by exact hkeys) (by exact hkeys) h
  cases a
  cases b
  rw [AnswerChoice.mk.injEq]
  exact ⟨str_of_sorted (h "id"), str_of_sorted (h "label")⟩

theorem AnswerField.sorted_inj (a b : AnswerField) (h : a.toJson.sorted = b.toJson.sorted) :
    a = b := by
  have hfour : ["kind", "label", "choices", "default"].Nodup := by decide
  have hthree : ["kind", "label", "default"].Nodup := by decide
  cases a <;> cases b <;>
    have h := sorted_members (by first | exact hfour | exact hthree)
      (by first | exact hfour | exact hthree) h <;>
    have hkind := str_of_sorted (h "kind")
  case choice.choice =>
    rw [str_of_sorted (h "label"),
      sorted_arr_inj AnswerChoice.sorted_inj (Option.some.inj (h "choices")),
      sorted_answer_inj (Option.some.inj (h "default"))]
  case number.number =>
    rw [str_of_sorted (h "label"), sorted_answer_inj (Option.some.inj (h "default"))]
  case date.date =>
    rw [str_of_sorted (h "label"), sorted_answer_inj (Option.some.inj (h "default"))]
  case dateTime.dateTime =>
    rw [str_of_sorted (h "label"), sorted_answer_inj (Option.some.inj (h "default"))]
  all_goals exact absurd hkind (by decide)

/-! ## The structured text -/

/-- Two requests and commitments agree on every member of the structured content. -/
structure SameMembers (r s : Request) (c d : String) : Prop where
  id : r.id = s.id
  channelId : r.channelId = s.channelId
  commitment : c = d
  decisionResolution : r.decisionResolution = s.decisionResolution
  title : r.title = s.title
  summary : r.summary = s.summary
  bodyMarkdown : r.bodyMarkdown = s.bodyMarkdown
  fields : r.fields = s.fields
  links : r.links = s.links
  imageUrl : r.imageUrl = s.imageUrl
  notification : r.notification = s.notification
  dedupeKey : r.dedupeKey = s.dedupeKey
  expiresAt : r.expiresAt.map DateTime.toRfc3339Millis = s.expiresAt.map DateTime.toRfc3339Millis
  createdAt : r.createdAt.toRfc3339Millis = s.createdAt.toRfc3339Millis
  callbackUrl : r.callbackUrl = s.callbackUrl
  options : r.options = s.options

theorem optMillisJson_eq (o : Option DateTime) :
    optMillisJson o = optStr (o.map DateTime.toRfc3339Millis) := by
  cases o <;> rfl

def contentKeys : List String :=
  ["request_id", "channel_id", "recipients_commitment", "decision_resolution", "title", "summary",
    "body_markdown", "fields", "links", "image_url", "notification", "dedupe_key", "expires_at",
    "created_at", "callback_url", "options"]

theorem nodup_contentKeys : (contentKeys ++ ["answer_field"]).Nodup := by decide

theorem sameMembers_of_lookups {r s : Request} {c d : String}
    (h : ∀ k, k ≠ "answer_field" → (Json.lookup k (contentMembers r c)).map Json.sorted =
      (Json.lookup k (contentMembers s d)).map Json.sorted) : SameMembers r s c d where
  id := str_of_sorted (h "request_id" (by decide))
  channelId := str_of_sorted (h "channel_id" (by decide))
  commitment := str_of_sorted (h "recipients_commitment" (by decide))
  decisionResolution :=
    DecisionResolution.asStr_inj (str_of_sorted (h "decision_resolution" (by decide)))
  title := str_of_sorted (h "title" (by decide))
  summary := str_of_sorted (h "summary" (by decide))
  bodyMarkdown := str_of_sorted (h "body_markdown" (by decide))
  fields := sorted_arr_inj CardField.sorted_inj (Option.some.inj (h "fields" (by decide)))
  links := sorted_arr_inj CardLink.sorted_inj (Option.some.inj (h "links" (by decide)))
  imageUrl := optStr_of_sorted (h "image_url" (by decide))
  notification := RequestNotification.sorted_inj _ _ (Option.some.inj (h "notification" (by decide)))
  dedupeKey := optStr_of_sorted (h "dedupe_key" (by decide))
  expiresAt := by
    have hexpires := Option.some.inj (h "expires_at" (by decide))
    rw [optMillisJson_eq, optMillisJson_eq, sorted_optStr, sorted_optStr] at hexpires
    exact optStr_inj hexpires
  createdAt := str_of_sorted (h "created_at" (by decide))
  callbackUrl := optStr_of_sorted (h "callback_url" (by decide))
  options := sorted_arr_inj RequestOption.sorted_inj (Option.some.inj (h "options" (by decide)))

/-- A tag and the tree under it are read off a tagged text. -/
theorem tagged_inj {v w : String} {x y : Json} (hv : Text.Free '\n' v) (hw : Text.Free '\n' w)
    (hx : Json.FloatFree x) (hy : Json.FloatFree y)
    (h : v ++ "\n" ++ x.sorted.text ++ "\n" = w ++ "\n" ++ y.sorted.text ++ "\n") :
    v = w ∧ x.sorted = y.sorted := by
  have h := (String.append_left_inj _).mp h
  obtain ⟨htag, htext⟩ := Text.append_sep_inj hv hw h
  exact ⟨htag, Json.text_inj (Json.floatFree_sorted _ hx) (Json.floatFree_sorted _ hy) htext⟩

theorem floatFree_content (r : Request) (c : String) : Json.FloatFree (.obj (contentMembers r c)) :=
  (plain_obj (plain_contentMembers r c)).1

theorem structuredPreimage_inj {r s : Request} {c d v w : String} (hv : Text.Free '\n' v)
    (hw : Text.Free '\n' w) (h : structuredPreimage r c v = structuredPreimage s d w) :
    v = w ∧ SameMembers r s c d := by
  obtain ⟨htag, hsorted⟩ := tagged_inj hv hw (floatFree_content r c) (floatFree_content s d) h
  have hnodup : contentKeys.Nodup := (List.nodup_append.mp nodup_contentKeys).1
  exact ⟨htag, sameMembers_of_lookups fun k _ =>
    sorted_members (by exact hnodup) (by exact hnodup) hsorted k⟩

theorem lookup_append_ne {k other : String} (h : k ≠ other) (ms : List (String × Json)) (v : Json) :
    Json.lookup k (ms ++ [(other, v)]) = Json.lookup k ms := by
  induction ms with
  | nil => exact if_neg h
  | cons m ms ih =>
    obtain ⟨key, value⟩ := m
    rw [List.cons_append, Json.lookup, Json.lookup, ih]

theorem lookup_answer_field (r : Request) (c : String) (v : Json) :
    Json.lookup "answer_field" (contentMembers r c ++ [("answer_field", v)]) = some v := rfl

theorem valuePreimage_inj {r s : Request} {c d v w : String} {f g : AnswerField}
    (hv : Text.Free '\n' v) (hw : Text.Free '\n' w)
    (h : valuePreimage r c f v = valuePreimage s d g w) :
    v = w ∧ SameMembers r s c d ∧ f = g := by
  obtain ⟨htag, hsorted⟩ := tagged_inj hv hw (plain_valueContent r c f).1
    (plain_valueContent s d g).1 h
  have hmembers := sorted_members (by exact nodup_contentKeys) (by exact nodup_contentKeys) hsorted
  refine ⟨htag, sameMembers_of_lookups fun k hk => ?_, ?_⟩
  · have hlookup := hmembers k
    rwa [lookup_append_ne hk, lookup_append_ne hk] at hlookup
  · have hfield := hmembers "answer_field"
    rw [lookup_answer_field, lookup_answer_field] at hfield
    exact AnswerField.sorted_inj _ _ (Option.some.inj hfield)

/-- The member that only value cards have keeps the families apart under every tag. -/
theorem structuredPreimage_ne_value {r s : Request} {c d v w : String} {f : AnswerField}
    (hv : Text.Free '\n' v) (hw : Text.Free '\n' w) :
    structuredPreimage r c v ≠ valuePreimage s d f w := by
  intro h
  obtain ⟨-, hsorted⟩ := tagged_inj hv hw (floatFree_content r c) (plain_valueContent s d f).1 h
  have hnodup : contentKeys.Nodup := (List.nodup_append.mp nodup_contentKeys).1
  have hfield := sorted_members (by exact hnodup) (by exact nodup_contentKeys) hsorted
    "answer_field"
  rw [lookup_answer_field] at hfield
  cases hfield

/-! ## The line snapshot -/

variable {E : Externals} {r s : Request}

def snapshotLines (E : Externals) (r : Request) : List String :=
  ["nod-request-v1", "request_id:" ++ r.id, "channel_id:" ++ r.channelId,
    "recipients:" ++ (String.singleton ',').intercalate r.recipients,
    "decision_resolution:" ++ r.decisionResolution.asStr, "title_sha256:" ++ E.sha256Hex r.title,
    "summary_sha256:" ++ E.sha256Hex r.summary,
    "body_markdown_sha256:" ++ E.sha256Hex r.bodyMarkdown,
    "fields_sha256:" ++ E.sha256Hex (Json.arr (r.fields.map CardField.toJson)).text,
    "links_sha256:" ++ E.sha256Hex (Json.arr (r.links.map CardLink.toJson)).text,
    "image_url:" ++ r.imageUrl.getD "", "dedupe_key:" ++ r.dedupeKey.getD "",
    "expires_at:" ++ optMillis r.expiresAt, "created_at:" ++ r.createdAt.toRfc3339Millis,
    "options_sha256:" ++ E.sha256Hex (Json.arr (r.options.map fun o => o.toJson.sorted)).text, ""]

theorem lineSnapshot_eq (E : Externals) (r : Request) :
    lineSnapshot E r = (String.singleton '\n').intercalate (snapshotLines E r) := by
  have hcomma : String.singleton ',' = "," := by decide
  have hline : String.singleton '\n' = "\n" := by decide
  have htag : "nod-request-v1\n" = "nod-request-v1" ++ "\n" := by decide
  unfold lineSnapshot snapshotLines
  rw [hcomma, hline, htag]
  simp only [String.intercalate_cons_of_ne_nil (List.cons_ne_nil _ _), String.intercalate_singleton,
    String.append_assoc, String.append_empty]

/-- A card whose snapshot has one line for each of its parts. -/
structure KeepsLines (r : Request) : Prop where
  id : Text.Free '\n' r.id
  channelId : Text.Free '\n' r.channelId
  recipients : ∀ u ∈ r.recipients, Text.Free '\n' u ∧ Text.Free ',' u ∧ u ≠ ""
  imageUrl : ∀ url, r.imageUrl = some url → Text.Free '\n' url
  dedupeKey : ∀ key, r.dedupeKey = some key → Text.Free '\n' key

theorem free_joinOn {sep other : Char} {l : List String} (hl : ∀ x ∈ l, Text.Free sep x)
    (hne : sep ≠ other) : Text.Free sep ((String.singleton other).intercalate l) := by
  have hsep : Text.Free sep (String.singleton other) := by
    unfold Text.Free
    rw [String.toList_singleton, List.mem_singleton]
    exact hne
  induction l with
  | nil => exact List.not_mem_nil
  | cons x l ih =>
    rw [List.forall_mem_cons] at hl
    by_cases hrest : l = []
    · rw [hrest, String.intercalate_singleton]
      exact hl.1
    · rw [String.intercalate_cons_of_ne_nil hrest]
      exact Text.free_append.mpr ⟨Text.free_append.mpr ⟨hl.1, hsep⟩, ih hl.2⟩

theorem free_getD {sep : Char} {o : Option String} (h : ∀ x, o = some x → Text.Free sep x) :
    Text.Free sep (o.getD "") := by
  cases o with
  | none => exact List.not_mem_nil
  | some x => exact h x rfl

theorem free_optMillis (o : Option DateTime) : Text.Free '\n' (optMillis o) := by
  cases o with
  | none => exact List.not_mem_nil
  | some t => exact t.free_toRfc3339Millis

theorem free_resolution (d : DecisionResolution) : Text.Free '\n' d.asStr := by
  cases d <;> decide

theorem KeepsLines.free_snapshotLines (h : KeepsLines r) :
    ∀ line ∈ snapshotLines E r, Text.Free '\n' line := by
  have hpart : ∀ name value : String, Text.Free '\n' name → Text.Free '\n' value →
      Text.Free '\n' (name ++ value) := fun _ _ hn hv => Text.free_append.mpr ⟨hn, hv⟩
  have hash : ∀ text, Text.Free '\n' (E.sha256Hex text) := free_sha256Hex E
  have hrecipients : Text.Free '\n' ((String.singleton ',').intercalate r.recipients) :=
    free_joinOn (fun u hu => (h.recipients u hu).1) (by decide)
  unfold snapshotLines
  simp only [List.forall_mem_cons, List.not_mem_nil, false_implies, implies_true, and_true]
  exact ⟨by decide, hpart _ _ (by decide) h.id, hpart _ _ (by decide) h.channelId,
    hpart _ _ (by decide) hrecipients, hpart _ _ (by decide) (free_resolution _),
    hpart _ _ (by decide) (hash _), hpart _ _ (by decide) (hash _), hpart _ _ (by decide) (hash _),
    hpart _ _ (by decide) (hash _), hpart _ _ (by decide) (hash _),
    hpart _ _ (by decide) (free_getD h.imageUrl), hpart _ _ (by decide) (free_getD h.dedupeKey),
    hpart _ _ (by decide) (free_optMillis _), hpart _ _ (by decide) r.createdAt.free_toRfc3339Millis,
    hpart _ _ (by decide) (hash _), by decide⟩

/-- What a snapshot says of two cards, the hashed parts by their hashes. -/
structure SameSnapshot (E : Externals) (r s : Request) : Prop where
  id : r.id = s.id
  channelId : r.channelId = s.channelId
  recipients : r.recipients = s.recipients
  decisionResolution : r.decisionResolution = s.decisionResolution
  title : E.sha256Hex r.title = E.sha256Hex s.title
  summary : E.sha256Hex r.summary = E.sha256Hex s.summary
  bodyMarkdown : E.sha256Hex r.bodyMarkdown = E.sha256Hex s.bodyMarkdown
  fields : E.sha256Hex (Json.arr (r.fields.map CardField.toJson)).text =
    E.sha256Hex (Json.arr (s.fields.map CardField.toJson)).text
  links : E.sha256Hex (Json.arr (r.links.map CardLink.toJson)).text =
    E.sha256Hex (Json.arr (s.links.map CardLink.toJson)).text
  imageUrl : r.imageUrl.getD "" = s.imageUrl.getD ""
  dedupeKey : r.dedupeKey.getD "" = s.dedupeKey.getD ""
  expiresAt : r.expiresAt.map DateTime.toRfc3339Millis = s.expiresAt.map DateTime.toRfc3339Millis
  createdAt : r.createdAt.toRfc3339Millis = s.createdAt.toRfc3339Millis
  options : E.sha256Hex (Json.arr (r.options.map fun o => o.toJson.sorted)).text =
    E.sha256Hex (Json.arr (s.options.map fun o => o.toJson.sorted)).text

theorem toRfc3339Millis_ne_empty (t : DateTime) : t.toRfc3339Millis ≠ "" := by
  intro h
  have hnil := congrArg String.toList h
  unfold DateTime.toRfc3339Millis at hnil
  rw [String.toList_ofList] at hnil
  exact List.append_ne_nil_of_right_ne_nil _ (List.cons_ne_nil _ _) hnil

theorem optMillis_inj {a b : Option DateTime} (h : optMillis a = optMillis b) :
    a.map DateTime.toRfc3339Millis = b.map DateTime.toRfc3339Millis := by
  cases a with
  | none =>
    cases b with
    | none => rfl
    | some b => exact absurd h.symm (toRfc3339Millis_ne_empty b)
  | some a =>
    cases b with
    | none => exact absurd h (toRfc3339Millis_ne_empty a)
    | some b => exact congrArg some h

/-- Nonempty ids without commas are read off their joined text, also where there are none. -/
theorem joined_ids_inj {l m : List String} (hl : ∀ u ∈ l, Text.Free ',' u ∧ u ≠ "")
    (hm : ∀ u ∈ m, Text.Free ',' u ∧ u ≠ "")
    (h : (String.singleton ',').intercalate l = (String.singleton ',').intercalate m) : l = m := by
  have hempty : ∀ n : List String, (∀ u ∈ n, Text.Free ',' u ∧ u ≠ "") →
      (String.singleton ',').intercalate n = "" → n = [] := by
    intro n hn hjoined
    by_contra hne
    -- the empty text is that of one empty id
    have hone := Text.joinOn_inj (fun u hu => (hn u hu).1) (m := [""])
      (fun u hu => List.mem_singleton.mp hu ▸ List.not_mem_nil) hne (List.cons_ne_nil _ _)
      (hjoined.trans (String.intercalate_singleton ..).symm)
    exact (hn "" (hone ▸ List.mem_singleton_self _)).2 rfl
  rcases eq_or_ne l [] with rfl | hl0
  · exact (hempty m hm h.symm).symm
  · rcases eq_or_ne m [] with rfl | hm0
    · exact hempty l hl h
    · exact Text.joinOn_inj (fun u hu => (hl u hu).1) (fun u hu => (hm u hu).1) hl0 hm0 h

theorem lineSnapshot_inj (hr : KeepsLines r) (hs : KeepsLines s)
    (h : lineSnapshot E r = lineSnapshot E s) : SameSnapshot E r s := by
  rw [lineSnapshot_eq, lineSnapshot_eq] at h
  have hlines := Text.joinOn_inj hr.free_snapshotLines hs.free_snapshotLines
    (List.cons_ne_nil _ _) (List.cons_ne_nil _ _) h
  simp only [snapshotLines, List.cons.injEq, String.append_right_inj, true_and, and_true] at hlines
  obtain ⟨hid, hchannel, hrecipients, hresolution, htitle, hsummary, hbody, hfields, hlinks, himage,
    hdedupe, hexpires, hcreated, hoptions⟩ := hlines
  exact ⟨hid, hchannel, joined_ids_inj (fun u hu => (hr.recipients u hu).2)
    (fun u hu => (hs.recipients u hu).2) hrecipients, DecisionResolution.asStr_inj hresolution,
    htitle, hsummary, hbody, hfields, hlinks, himage, hdedupe, optMillis_inj hexpires, hcreated,
    hoptions⟩

/-- Under the tag that they share, a snapshot goes on with a name and a tagged object with a brace. -/
theorem lineSnapshot_ne_tagged (E : Externals) (r : Request) {version : String}
    (hversion : Text.Free '\n' version) (ms : List (String × Json)) :
    lineSnapshot E r ≠ version ++ "\n" ++ (Json.obj ms).sorted.text ++ "\n" := by
  intro h
  have hrest : lineSnapshot E r = "nod-request-v1" ++ String.singleton '\n' ++
      (String.singleton '\n').intercalate (snapshotLines E r).tail := by
    rw [lineSnapshot_eq]
    unfold snapshotLines
    rw [String.intercalate_cons_of_ne_nil (List.cons_ne_nil _ _)]
    rfl
  have hline : String.singleton '\n' = "\n" := by decide
  have htagged : version ++ "\n" ++ (Json.obj ms).sorted.text ++ "\n" =
      version ++ String.singleton '\n' ++ ((Json.obj ms).sorted.text ++ "\n") := by
    rw [hline, String.append_assoc]
  obtain ⟨-, hbody⟩ := Text.append_sep_inj (by decide) hversion (hrest.symm.trans (h.trans htagged))
  have hhead := congrArg (fun x => x.toList.head?) hbody
  simp only [snapshotLines, List.tail_cons] at hhead
  rw [String.intercalate_cons_of_ne_nil (List.cons_ne_nil _ _)] at hhead
  simp [Json.text, Json.sorted, Canonical.render_obj] at hhead

end Nod.Proto
