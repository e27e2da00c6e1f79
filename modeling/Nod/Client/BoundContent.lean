import Nod.Client.Signing
import Nod.Proto.Preimages
import Nod.Proto.ReceiptPolicy

/-
  What a client signature binds of the card under it. The encoder follows what the server put into
  the copy: its answer field, and the tag of its signing context, or the line snapshot where there is
  no context.
  Proved: a copy with a signing context is bound in all that is shown of it, whatever copy shares its
  digest; without one it is not, but for an ordinary card without options that has an image and no
  line break in its parts (`signature_binds`).
-/

namespace Nod.Client

open Lib Nod.Proto

variable (E : Externals)

/-! ## Encoders -/

inductive Encoder
  | lineSnapshot
  | structured
  | value
  deriving DecidableEq

/-- The encoder that a copy selects. -/
def encoderOf (r : Request) : Encoder :=
  match r.signing, r.answerField with
  | none, _ => .lineSnapshot
  | some _, none => .structured
  | some _, some _ => .value

/-- The text behind the digest of a copy. -/
def signedText (r : Request) : String :=
  match r.signing, r.answerField with
  | none, _ => lineSnapshot E r
  | some context, none => structuredPreimage r context.recipientsCommitment context.version
  | some context, some field => valuePreimage r context.recipientsCommitment field context.version

/-- Some decision on the copy is signed under the digest. -/
def Signs (r : Request) (digest : String) : Prop :=
  ∃ signer nonce signedAt signing answer built, signing.request = r ∧
    buildValueDecisionSignature E signer nonce signedAt signing answer (some digest) = .ok built

/-- The texts that are hashed for a copy, in order. -/
def hashedTexts (r : Request) : List String :=
  [signedText E r, r.title, r.summary, r.bodyMarkdown,
    (Json.arr (r.fields.map CardField.toJson)).text, (Json.arr (r.links.map CardLink.toJson)).text,
    (Json.arr (r.options.map fun o => o.toJson.sorted)).text]

/-- The hash tells apart what is hashed for two copies. -/
def NoCollision (r s : Request) : Prop :=
  List.Forall₂ (fun x y => E.sha256Hex x = E.sha256Hex y → x = y) (hashedTexts E r) (hashedTexts E s)

/-- Two copies agree on what the app shows. -/
structure SameShown (r s : Request) : Prop where
  id : r.id = s.id
  title : r.title = s.title
  summary : r.summary = s.summary
  bodyMarkdown : r.bodyMarkdown = s.bodyMarkdown
  fields : r.fields = s.fields
  links : r.links = s.links
  imageUrl : r.imageUrl = s.imageUrl
  decisionResolution : r.decisionResolution = s.decisionResolution
  expiresAt : r.expiresAt.map DateTime.toRfc3339Millis = s.expiresAt.map DateTime.toRfc3339Millis
  options : r.options = s.options
  answerField : r.answerField = s.answerField

/-- A signature over the copy binds what is shown of it, its answer field by the encoder. -/
structure Binds (r : Request) : Prop where
  shown : ∀ s digest, Signs E r digest → Signs E s digest → NoCollision E r s → SameShown r s
  field : (∃ digest, Signs E r digest) → r.answerField ≠ none → encoderOf r = .value

/-! ## Copies that can be signed -/

variable {E} {r s : Request} {digest : String}

theorem canonicalTime_noon : CanonicalTime Nod.Proto.noon.toRfc3339Millis :=
  ⟨Nod.Proto.noon.truncMillis, DateTime.parse_toRfc3339Millis Nod.Proto.noon (by decide),
    DateTime.toRfc3339Millis_truncMillis Nod.Proto.noon⟩

def anySigner : DeviceSigner := { keyId := "key-1", algorithm := "", sign := fun _ => .ok "" }

/-- A copy can be signed when it asserts the digest of its content and has something to sign. -/
theorem signs_iff : Signs E r digest ↔ digestsOf E r = .ok (digest, digest) ∧ digest ≠ "" ∧
    ∃ answer optionId option, checkAnswer r answer = .ok () ∧ optionFor r optionId = .ok option := by
  constructor
  · rintro ⟨signer, nonce, signedAt, signing, answer, built, rfl, hbuilt⟩
    obtain ⟨option, payload, h⟩ := buildValueDecisionSignature_eq_ok.mp hbuilt
    have hdigest := Option.some.inj h.expected.1
    rw [hdigest]
    exact ⟨h.digest, h.expected.2, answer, signing.optionId, option, h.fits, h.offered⟩
  · intro ⟨hdigests, hne, answer, optionId, option, hanswer, hoption⟩
    let signing : DecisionSigningRequest :=
      { request := r, optionId, text := none, userId := "", deviceId := "" }
    have hpayload : ∃ payload, signedPayload E
        (signingInputOf anySigner "" Nod.Proto.noon signing digest option) answer = .ok payload := by
      cases answer with
      | none => exact ⟨_, rfl⟩
      | some answer =>
        refine ⟨_, mapError_eq_ok.mpr (decisionSigningPayloadV2_eq_ok.mpr ⟨canonicalTime_noon, ?_, rfl⟩)⟩
        intro v hv
        cases hv
    obtain ⟨payload, hpayload⟩ := hpayload
    let built : DecisionSignature :=
      { payloadVersion := answer.map fun _ => valueDecisionPayloadVersion
        keyId := anySigner.keyId, algorithm := anySigner.algorithm, nonce := ""
        signedAt := Nod.Proto.noon.toRfc3339Millis, requestDigest := digest, signature := "" }
    have hbuilt : BuildsSignature E anySigner "" Nod.Proto.noon signing answer (some digest) option payload
        built := ⟨hanswer, hdigests, ⟨rfl, hne⟩, hoption, hpayload, rfl, rfl⟩
    exact ⟨anySigner, "", Nod.Proto.noon, signing, answer, built, rfl,
      buildValueDecisionSignature_eq_ok.mpr ⟨option, payload, hbuilt⟩⟩

theorem signedText_line (h : r.signing = none) : signedText E r = lineSnapshot E r := by
  unfold signedText
  rw [h]

theorem signedText_structured {context : RequestSigningContext} (h : r.signing = some context)
    (hfield : r.answerField = none) :
    signedText E r = structuredPreimage r context.recipientsCommitment context.version := by
  unfold signedText
  rw [h, hfield]

theorem signedText_value {context : RequestSigningContext} {field : AnswerField}
    (h : r.signing = some context) (hfield : r.answerField = some field) :
    signedText E r = valuePreimage r context.recipientsCommitment field context.version := by
  unfold signedText
  rw [h, hfield]

/-- A recomputed digest is the hash of the copy's text, and its tag is one that is known. -/
theorem recomputedDigest_eq_ok {context : RequestSigningContext} {d : String}
    (hsigning : r.signing = some context) (h : recomputedDigest E r context = .ok (some d)) :
    E.sha256Hex (signedText E r) = d ∧ Text.Free '\n' context.version := by
  unfold recomputedDigest signingError at h
  cases hfield : r.answerField with
  | none =>
    rw [hfield] at h
    have hdigest : Text.Free '\n' context.version ∧
        structuredRequestDigest E r context.recipientsCommitment context.version = .ok d := by
      have hversion := mapError_eq_ok.mp h
      unfold requestDigestForVersion at hversion
      split at hversion
      · next htag =>
        obtain ⟨_, hd, hsome⟩ := map_eq_ok.mp hversion
        cases hsome
        exact ⟨htag ▸ by decide, htag ▸ hd⟩
      · split at hversion
        · next htag =>
          obtain ⟨_, hd, hsome⟩ := map_eq_ok.mp hversion
          cases hsome
          exact ⟨htag ▸ by decide, htag ▸ hd⟩
        · cases hversion
    rw [signedText_structured hsigning hfield]
    exact ⟨(structuredRequestDigest_eq_ok.mp hdigest.2).2, hdigest.1⟩
  | some field =>
    rw [hfield] at h
    have hdigest : Text.Free '\n' context.version ∧
        valueRequestDigestWithVersion E r context.recipientsCommitment field context.version =
          .ok d := by
      have hversion := mapError_eq_ok.mp h
      unfold valueRequestDigestForVersion at hversion
      split at hversion
      · next htag =>
        obtain ⟨_, hd, hsome⟩ := map_eq_ok.mp hversion
        cases hsome
        exact ⟨htag ▸ by decide, htag ▸ hd⟩
      · split at hversion
        · next htag =>
          obtain ⟨_, hd, hsome⟩ := map_eq_ok.mp hversion
          cases hsome
          exact ⟨htag ▸ by decide, htag ▸ hd⟩
        · cases hversion
    rw [signedText_value hsigning hfield]
    exact ⟨(valueRequestDigestWithVersion_eq_ok.mp hdigest.2).2.2, hdigest.1⟩

theorem Signs.text (h : Signs E r digest) : E.sha256Hex (signedText E r) = digest ∧
    ∀ context, r.signing = some context → Text.Free '\n' context.version := by
  have hdigests := (signs_iff.mp h).1
  unfold digestsOf at hdigests
  cases hsigning : r.signing with
  | none =>
    rw [hsigning] at hdigests
    obtain ⟨_, -, hpair⟩ := bind_eq_ok.mp hdigests
    rw [signedText_line hsigning]
    exact ⟨(Prod.mk.inj (Except.ok.inj hpair)).2, fun context hcontext => by cases hcontext⟩
  | some context =>
    rw [hsigning] at hdigests
    obtain ⟨_, hrecomputed, hsome⟩ := bind_eq_ok.mp hdigests
    obtain ⟨d, hd, hpair⟩ := bind_eq_ok.mp hsome
    rw [orElse_eq_ok.mp hd] at hrecomputed
    obtain ⟨htext, hfree⟩ := recomputedDigest_eq_ok hsigning hrecomputed
    refine ⟨htext.trans (Prod.mk.inj (Except.ok.inj hpair)).2, ?_⟩
    intro other hother
    exact Option.some.inj hother ▸ hfree

/-- Two copies under one digest have one text. -/
theorem NoCollision.text (h : NoCollision E r s) (hr : Signs E r digest) (hs : Signs E s digest) :
    signedText E r = signedText E s := by
  unfold NoCollision hashedTexts at h
  exact (List.forall₂_cons.mp h).1 (hr.text.1.trans hs.text.1.symm)

/-! ## With a signing context -/

theorem sameShown_of_members {c d : String} (h : SameMembers r s c d)
    (hfield : r.answerField = s.answerField) : SameShown r s :=
  ⟨h.id, h.title, h.summary, h.bodyMarkdown, h.fields, h.links, h.imageUrl, h.decisionResolution,
    h.expiresAt, h.options, hfield⟩

theorem sameShown_of_context (hsigning : r.signing ≠ none) (hr : Signs E r digest)
    (hs : Signs E s digest) (h : NoCollision E r s) : SameShown r s := by
  obtain ⟨context, hcontext⟩ := Option.ne_none_iff_exists'.mp hsigning
  have htext := h.text hr hs
  have hfree := hr.text.2 context hcontext
  cases hother : s.signing with
  | none =>
    rw [signedText_line hother] at htext
    cases hfield : r.answerField with
    | none =>
      rw [signedText_structured hcontext hfield] at htext
      exact absurd htext.symm (lineSnapshot_ne_tagged E s hfree _)
    | some field =>
      rw [signedText_value hcontext hfield] at htext
      exact absurd htext.symm (lineSnapshot_ne_tagged E s hfree _)
  | some other =>
    have hfree' := hs.text.2 other hother
    cases hfield : r.answerField with
    | none =>
      rw [signedText_structured hcontext hfield] at htext
      cases hfield' : s.answerField with
      | none =>
        rw [signedText_structured hother hfield'] at htext
        exact sameShown_of_members (structuredPreimage_inj hfree hfree' htext).2
          (hfield.trans hfield'.symm)
      | some field' =>
        rw [signedText_value hother hfield'] at htext
        exact absurd htext (structuredPreimage_ne_value hfree hfree')
    | some field =>
      rw [signedText_value hcontext hfield] at htext
      cases hfield' : s.answerField with
      | none =>
        rw [signedText_structured hother hfield'] at htext
        exact absurd htext.symm (structuredPreimage_ne_value hfree' hfree)
      | some field' =>
        rw [signedText_value hother hfield'] at htext
        obtain ⟨-, hmembers, hsame⟩ := valuePreimage_inj hfree hfree' htext
        exact sameShown_of_members hmembers (by rw [hfield, hfield', hsame])

/-! ## Without one -/

/-- A copy whose lines have no line break inside. -/
structure NoBreaks (r : Request) : Prop where
  id : Text.Free '\n' r.id
  channelId : Text.Free '\n' r.channelId
  recipients : ∀ u ∈ r.recipients, Text.Free '\n' u
  imageUrl : ∀ url, r.imageUrl = some url → Text.Free '\n' url
  dedupeKey : ∀ key, r.dedupeKey = some key → Text.Free '\n' key

/-- A text that a separator cuts into one part is that part. -/
theorem splitOn_of_length {sep : Char} {cs : List Char} (h : (cs.splitOn sep).length = 1) :
    cs.splitOn sep = [cs] := by
  obtain ⟨part, hpart⟩ := List.length_eq_one_iff.mp h
  have hjoin : [sep].intercalate (cs.splitOn sep) = cs := List.intercalate_splitOn sep
  rw [hpart, List.intercalate_singleton] at hjoin
  rw [hpart, hjoin]

theorem length_splitOn_pos (sep : Char) (cs : List Char) : 1 ≤ (cs.splitOn sep).length :=
  List.length_pos_iff.mpr (List.splitOn_ne_nil sep cs)

/-- As many parts as fields: no field holds the separator. -/
theorem flatMap_splitOn_of_length {sep : Char} {l : List String}
    (h : (l.flatMap fun s => s.toList.splitOn sep).length = l.length) :
    (l.flatMap fun s => s.toList.splitOn sep) = l.map String.toList := by
  have hle : ∀ l : List String, l.length ≤ (l.flatMap fun s => s.toList.splitOn sep).length := by
    intro l
    induction l with
    | nil => exact Nat.le_refl 0
    | cons s l ih =>
      have hpos := length_splitOn_pos sep s.toList
      rw [List.flatMap_cons, List.length_append, List.length_cons]
      omega
  induction l with
  | nil => rfl
  | cons s l ih =>
    have hpos := length_splitOn_pos sep s.toList
    have hrest := hle l
    rw [List.flatMap_cons, List.length_append, List.length_cons] at h
    rw [List.flatMap_cons, List.map_cons, splitOn_of_length (by omega), ih (by omega)]
    rfl

/-- Fields without separators are read off their joined text by their number. -/
theorem joinOn_inj_of_length {sep : Char} {l m : List String} (hl : ∀ s ∈ l, Text.Free sep s)
    (hl0 : l ≠ []) (hlength : l.length = m.length)
    (h : (String.singleton sep).intercalate l = (String.singleton sep).intercalate m) : l = m := by
  have hm0 : m ≠ [] := by
    intro hm
    rw [hm, List.length_nil] at hlength
    exact hl0 (List.length_eq_zero_iff.mp hlength)
  have hsplit := congrArg (fun s => s.toList.splitOn sep) h
  simp only [Text.splitOn_joinOn hl0, Text.splitOn_joinOn hm0,
    Text.flatMap_splitOn_of_free hl] at hsplit
  have hparts := congrArg List.length hsplit
  rw [List.length_map, hlength] at hparts
  rw [flatMap_splitOn_of_length hparts.symm] at hsplit
  exact List.map_injective_iff.mpr (fun _ _ => String.toList_inj.mp) hsplit

theorem NoBreaks.free_snapshotLines (h : NoBreaks r) :
    ∀ line ∈ snapshotLines E r, Text.Free '\n' line := by
  have hpart : ∀ name value : String, Text.Free '\n' name → Text.Free '\n' value →
      Text.Free '\n' (name ++ value) := fun _ _ hn hv => Text.free_append.mpr ⟨hn, hv⟩
  have hash : ∀ text, Text.Free '\n' (E.sha256Hex text) := free_sha256Hex E
  have hrecipients : Text.Free '\n' ((String.singleton ',').intercalate r.recipients) :=
    free_joinOn h.recipients (by decide)
  unfold snapshotLines
  simp only [List.forall_mem_cons, List.not_mem_nil, false_implies, implies_true, and_true]
  exact ⟨by decide, hpart _ _ (by decide) h.id, hpart _ _ (by decide) h.channelId,
    hpart _ _ (by decide) hrecipients, hpart _ _ (by decide) (free_resolution _),
    hpart _ _ (by decide) (hash _), hpart _ _ (by decide) (hash _), hpart _ _ (by decide) (hash _),
    hpart _ _ (by decide) (hash _), hpart _ _ (by decide) (hash _),
    hpart _ _ (by decide) (free_getD h.imageUrl), hpart _ _ (by decide) (free_getD h.dedupeKey),
    hpart _ _ (by decide) (free_optMillis _), hpart _ _ (by decide) r.createdAt.free_toRfc3339Millis,
    hpart _ _ (by decide) (hash _), by decide⟩

theorem options_of_hash (hoptions : (Json.arr (r.options.map fun o => o.toJson.sorted)).text =
    (Json.arr (s.options.map fun o => o.toJson.sorted)).text) : r.options = s.options := by
  have hfree : ∀ options : List RequestOption,
      Json.FloatFree (.arr (options.map fun o => o.toJson.sorted)) := fun options =>
    (Json.floatFreeItems_iff _).mpr
      (List.forall_mem_map.mpr fun o _ => Json.floatFree_sorted _ o.plain_toJson.1)
  exact arr_map_inj RequestOption.sorted_inj (Json.text_inj (hfree _) (hfree _) hoptions)

/-- A copy that can be signed without options is an ordinary one. -/
theorem Signs.answerField_of_options (h : Signs E r digest) (hoptions : r.options = []) :
    r.answerField = none := by
  obtain ⟨-, -, _, _, _, -, hoption⟩ := signs_iff.mp h
  unfold optionFor at hoption
  rw [hoptions, List.find?_nil] at hoption
  dsimp only at hoption
  split at hoption
  · next hdismiss => exact hdismiss.1
  · cases hoption

/-- A card whose snapshot says all that is shown of it. -/
structure Plainly (r : Request) : Prop where
  options : r.options = []
  imageUrl : r.imageUrl.getD "" ≠ ""
  lines : NoBreaks r

theorem sameShown_of_plainly (hsigning : r.signing = none) (hplain : Plainly r)
    (hr : Signs E r digest) (hs : Signs E s digest) (h : NoCollision E r s) : SameShown r s := by
  have htext := h.text hr hs
  have hother : s.signing = none := by
    cases hother : s.signing with
    | none => rfl
    | some context =>
      have hfree := hs.text.2 context hother
      rw [signedText_line hsigning] at htext
      cases hfield : s.answerField with
      | none =>
        rw [signedText_structured hother hfield] at htext
        exact absurd htext (lineSnapshot_ne_tagged E r hfree _)
      | some field =>
        rw [signedText_value hother hfield] at htext
        exact absurd htext (lineSnapshot_ne_tagged E r hfree _)
  rw [signedText_line hsigning, signedText_line hother, lineSnapshot_eq, lineSnapshot_eq] at htext
  have hlength : (snapshotLines E r).length = (snapshotLines E s).length := rfl
  have hfree : ∀ line ∈ snapshotLines E r, Text.Free '\n' line := hplain.lines.free_snapshotLines
  have hlines := joinOn_inj_of_length hfree (List.cons_ne_nil _ _) hlength htext
  simp only [snapshotLines, List.cons.injEq, String.append_right_inj, true_and, and_true] at hlines
  obtain ⟨hid, -, -, hresolution, htitle, hsummary, hbody, hfields, hlinks, himage, -, hexpires, -,
    hoptions⟩ := hlines
  unfold NoCollision hashedTexts at h
  simp only [List.forall₂_cons, List.Forall₂.nil, and_true] at h
  obtain ⟨-, hctitle, hcsummary, hcbody, hcfields, hclinks, hcoptions⟩ := h
  have hfieldTexts := Json.text_inj (plain_arr _ CardField.plain_toJson _).1
    (plain_arr _ CardField.plain_toJson _).1 (hcfields hfields)
  have hlinkTexts := Json.text_inj (plain_arr _ CardLink.plain_toJson _).1
    (plain_arr _ CardLink.plain_toJson _).1 (hclinks hlinks)
  have hsame := options_of_hash (hcoptions hoptions)
  have himages : r.imageUrl = s.imageUrl := by
    have hne := hplain.imageUrl
    cases hi : r.imageUrl with
    | none =>
      rw [hi] at hne
      exact absurd rfl hne
    | some url =>
      rw [hi] at himage hne
      cases hj : s.imageUrl with
      | none =>
        rw [hj] at himage
        exact absurd himage hne
      | some other =>
        rw [hj] at himage
        exact congrArg some himage
  exact
    { id := hid, title := hctitle htitle, summary := hcsummary hsummary
      bodyMarkdown := hcbody hbody
      fields := arr_map_inj (fun _ _ => CardField.toJson_inj) hfieldTexts
      links := arr_map_inj (fun _ _ => CardLink.toJson_inj) hlinkTexts
      imageUrl := himages, decisionResolution := DecisionResolution.asStr_inj hresolution
      expiresAt := optMillis_inj hexpires, options := hsame
      answerField := by
        rw [hr.answerField_of_options hplain.options,
          hs.answerField_of_options (hsame ▸ hplain.options)] }

/-! ## What is not bound -/

theorem noCollision_of_line (hr : r.signing = none) (hs : s.signing = none)
    (h : lineSnapshot E s = lineSnapshot E r) (htitle : r.title = s.title)
    (hsummary : r.summary = s.summary) (hbody : r.bodyMarkdown = s.bodyMarkdown)
    (hfields : r.fields = s.fields) (hlinks : r.links = s.links) (hoptions : r.options = s.options) :
    NoCollision E r s := by
  unfold NoCollision hashedTexts
  rw [signedText_line hr, signedText_line hs, h, htitle, hsummary, hbody, hfields, hlinks, hoptions]
  exact List.forall₂_same.mpr fun _ _ _ => rfl

theorem digestsOf_line (h : r.signing = none) (hs : s.signing = none)
    (hdigest : r.requestDigest = s.requestDigest) (hid : r.id = s.id)
    (htext : lineSnapshot E r = lineSnapshot E s) : digestsOf E r = digestsOf E s := by
  unfold digestsOf requestDigestLegacyLineSnapshot
  rw [h, hs]
  dsimp only
  rw [hdigest, hid, htext]

/-- The same copy with an answer field, which the line snapshot does not see. -/
def withField (r : Request) : Request := { r with answerField := some countField }

theorem signs_withField (hsigning : r.signing = none) (hoptions : r.options ≠ [])
    (h : Signs E r digest) : Signs E (withField r) digest := by
  obtain ⟨hdigests, hne, -⟩ := signs_iff.mp h
  refine signs_iff.mpr ⟨?_, hne, some (.number "4"), ?_⟩
  · rw [← hdigests]
    exact digestsOf_line hsigning hsigning rfl rfl rfl
  · obtain ⟨o, os, hcons⟩ := List.exists_cons_of_ne_nil hoptions
    have hfield : (do
        countField.validate
        countField.validateValue (.number "4")) = Except.ok () := by decide
    refine ⟨o.id, ⟨o.id, o.kind⟩, hfield, ?_⟩
    unfold optionFor withField
    simp only [hcons, List.find?_cons_of_pos, decide_true]

/-- The same copy with an empty image for none, or none for an empty one. -/
def emptyImageSwapped (r : Request) : Request :=
  { r with imageUrl := if r.imageUrl = none then some "" else none }

theorem signs_emptyImageSwapped (hsigning : r.signing = none) (himage : r.imageUrl.getD "" = "")
    (h : Signs E r digest) : lineSnapshot E (emptyImageSwapped r) = lineSnapshot E r ∧
      Signs E (emptyImageSwapped r) digest := by
  have htext : lineSnapshot E (emptyImageSwapped r) = lineSnapshot E r := by
    have hblank : (emptyImageSwapped r).imageUrl.getD "" = r.imageUrl.getD "" := by
      unfold emptyImageSwapped
      rw [himage]
      dsimp only
      split <;> rfl
    unfold lineSnapshot
    rw [hblank]
    rfl
  obtain ⟨hdigests, hne, answer, optionId, option, hanswer, hoption⟩ := signs_iff.mp h
  refine ⟨htext, signs_iff.mpr ⟨?_, hne, answer, optionId, option, hanswer, hoption⟩⟩
  rw [← hdigests]
  exact digestsOf_line hsigning hsigning rfl rfl htext

variable (E)

/-- Exactly which copies a signature binds, but for cards without options and signing context that
    have an image and stray line breaks. -/
structure BoundContent (r : Request) : Prop where
  bound : r.signing ≠ none ∨ Plainly r → Binds E r
  loose : (∃ digest, Signs E r digest) → r.signing = none →
    r.answerField ≠ none ∨ r.options ≠ [] ∨ r.imageUrl.getD "" = "" → ¬ Binds E r

theorem signature_binds (r : Request) : BoundContent E r where
  bound := by
    intro hcopy
    refine ⟨fun s digest hr hs h => ?_, fun ⟨digest, hr⟩ hfield => ?_⟩
    · obtain hsigning | hplain := hcopy
      · exact sameShown_of_context hsigning hr hs h
      · by_cases hsigning : r.signing = none
        · exact sameShown_of_plainly hsigning hplain hr hs h
        · exact sameShown_of_context hsigning hr hs h
    · obtain ⟨field, hsome⟩ := Option.ne_none_iff_exists'.mp hfield
      by_cases hsigning : r.signing = none
      · -- then the copy has no options, and no card without options has a field
        obtain hcontext | hplain := hcopy
        · exact absurd hsigning hcontext
        · exact absurd (hr.answerField_of_options hplain.options) hfield
      · obtain ⟨context, hcontext⟩ := Option.ne_none_iff_exists'.mp hsigning
        unfold encoderOf
        rw [hcontext, hsome]
  loose := by
    intro ⟨digest, hr⟩ hsigning hpart hbinds
    have hline : encoderOf r = .lineSnapshot := by
      unfold encoderOf
      rw [hsigning]
    have hordinary : r.answerField = none := by
      by_contra hfield
      have hvalue := hbinds.field ⟨digest, hr⟩ hfield
      rw [hline] at hvalue
      cases hvalue
    obtain hfield | hoptions | himage := hpart
    · exact hfield hordinary
    · have hs := signs_withField hsigning hoptions hr
      have htexts : NoCollision E r (withField r) :=
        noCollision_of_line hsigning hsigning rfl rfl rfl rfl rfl rfl rfl
      have hfield := (hbinds.shown _ digest hr hs htexts).answerField
      rw [hordinary] at hfield
      cases hfield
    · obtain ⟨htext, hs⟩ := signs_emptyImageSwapped hsigning himage hr
      have htexts : NoCollision E r (emptyImageSwapped r) :=
        noCollision_of_line hsigning hsigning htext rfl rfl rfl rfl rfl rfl
      have himages := (hbinds.shown _ digest hr hs htexts).imageUrl
      unfold emptyImageSwapped at himages
      dsimp only at himages
      split at himages
      · next hnone =>
        rw [hnone] at himages
        cases himages
      · next hnone => exact hnone himages

/-- An ordinary card without signing context, under the digest of its line snapshot. -/
def unboundCard : Request :=
  { cardContent none with
    requestDigest := some (requestDigestLegacyLineSnapshot E (cardContent none)) }

/-- The card, and the card asking for a number in its place, are signed under one digest. -/
theorem answer_field_left_out :
    ∃ digest, Signs (Concrete.packages []) (unboundCard (Concrete.packages [])) digest ∧
      Signs (Concrete.packages []) (withField (unboundCard (Concrete.packages []))) digest ∧
      encoderOf (withField (unboundCard (Concrete.packages []))) = .lineSnapshot ∧
      NoCollision (Concrete.packages []) (unboundCard (Concrete.packages []))
        (withField (unboundCard (Concrete.packages []))) ∧
      ¬ SameShown (unboundCard (Concrete.packages []))
        (withField (unboundCard (Concrete.packages []))) := by
  have hne : requestDigestLegacyLineSnapshot (Concrete.packages []) (cardContent none) ≠ "" := by
    intro hempty
    have hlength := (Concrete.packages []).sha256Hex_length
      (lineSnapshot (Concrete.packages []) (cardContent none))
    unfold requestDigestLegacyLineSnapshot at hempty
    rw [hempty] at hlength
    revert hlength
    decide
  have hsigns : Signs (Concrete.packages []) (unboundCard (Concrete.packages []))
      (requestDigestLegacyLineSnapshot (Concrete.packages []) (cardContent none)) :=
    signs_iff.mpr ⟨rfl, hne, none, "approve", ⟨"approve", .approve⟩, rfl, rfl⟩
  refine ⟨_, hsigns, signs_withField rfl (List.cons_ne_nil _ _) hsigns, rfl,
    noCollision_of_line rfl rfl rfl rfl rfl rfl rfl rfl rfl, fun h => ?_⟩
  have hfield := h.answerField
  cases hfield

end Nod.Client
