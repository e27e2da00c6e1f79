import Nod.Client.BoundContent
import Nod.Lib.Lines
import Nod.Server.Receipts
import Nod.Server.SignedRequests

/-
  Copies of a card that the server did not make. A client signs what it holds: the id of the copy and
  the id of the option stand in the ordinary payload as they came, line breaks and all.
  Proved: a payload over such a copy that is also the server's payload of a stored card is over a
  digest of that card (`requestDigest_of_payload`), so the copy shows what the card says, as far as the
  hash tells their texts apart (`shows_of_digest`).
-/

namespace Nod.Server

open Lib Nod.Proto

variable {P : Packages}

/-! ## The payload of a client -/

/-- What a client fills in by itself, whatever the ids of the copy are. -/
structure ClientInput (E : Externals) (input : DecisionSigningInput) : Prop where
  digest : ∃ text, E.sha256Hex text = input.requestDigest
  userId : Text.Free '\n' input.userId
  deviceId : isUuid input.deviceId = true
  keyId : Text.Free '\n' input.keyId
  nonce : isUuid input.nonce = true
  signedAt : ∃ t : DateTime, input.signedAt = t.toRfc3339Millis

/-- The lines behind the option. -/
def ownLines (input : DecisionSigningInput) : List String :=
  ["option_kind:" ++ input.optionKind.asStr, "user_id:" ++ input.userId,
    "device_id:" ++ input.deviceId, "key_id:" ++ input.keyId, "nonce:" ++ input.nonce]

variable {E : Externals} {a b : DecisionSigningInput}

theorem free_label {label value : String} (hlabel : Text.Free '\n' label)
    (hvalue : Text.Free '\n' value) : Text.Free '\n' (label ++ value) :=
  Text.free_append.mpr ⟨hlabel, hvalue⟩

theorem ClientInput.free_ownLines (h : ClientInput E a) :
    ∀ line ∈ ownLines a, Text.Free '\n' line := by
  unfold ownLines
  simp only [List.forall_mem_cons, List.not_mem_nil, false_implies, implies_true, and_true]
  exact ⟨free_label (by decide) (free_asStr _), free_label (by decide) h.userId,
    free_label (by decide) (free_of_isUuid h.deviceId), free_label (by decide) h.keyId,
    free_label (by decide) (free_of_isUuid h.nonce)⟩

theorem ClientInput.free_linesAfter (h : ClientInput E a) :
    ∀ line ∈ linesAfter E a, Text.Free '\n' line := by
  obtain ⟨t, ht⟩ := h.signedAt
  unfold linesAfter
  simp only [List.forall_mem_cons, List.not_mem_nil, false_implies, implies_true, and_true]
  refine ⟨free_label (by decide) ?_, free_label (by decide) (free_sha256Hex E _), by decide⟩
  rw [ht]
  exact t.free_toRfc3339Millis

/-- The lines of such a payload; the two ids may be several lines each. -/
theorem ClientInput.splitOn_payload (h : ClientInput E a) :
    (decisionSigningPayload E a).toList.splitOn '\n' =
      decisionPayloadVersion.toList :: (("request_id:" ++ a.requestId).toList.splitOn '\n' ++
        (("request_digest:" ++ a.requestDigest).toList ::
          (("option_id:" ++ a.optionId).toList.splitOn '\n' ++ (ownLines a).map String.toList))) ++
      (linesAfter E a).map String.toList := by
  have hdigest : Text.Free '\n' ("request_digest:" ++ a.requestDigest) := by
    obtain ⟨text, htext⟩ := h.digest
    exact free_label (by decide) (htext ▸ free_sha256Hex E text)
  have hone : ∀ {line : String}, Text.Free '\n' line → line.toList.splitOn '\n' = [line.toList] :=
    fun hline => List.splitOn_eq_singleton hline
  have hversion := @hone decisionPayloadVersion (by decide)
  have hlines : linesBefore a ++ ("nonce:" ++ a.nonce) :: linesAfter E a =
      decisionPayloadVersion :: ("request_id:" ++ a.requestId) :: ("request_digest:" ++ a.requestDigest)
        :: ("option_id:" ++ a.optionId) :: (ownLines a ++ linesAfter E a) := rfl
  rw [decisionSigningPayload_eq, hlines, Text.splitOn_joinOn (List.cons_ne_nil _ _)]
  simp only [List.flatMap_cons, List.flatMap_append, hone hdigest, hversion,
    Text.flatMap_splitOn_of_free h.free_ownLines,
    Text.flatMap_splitOn_of_free h.free_linesAfter, List.cons_append, List.nil_append,
    List.append_assoc]

/-- The lines of a payload that the server makes; the nonce may be several lines. -/
theorem AcceptedInput.splitOn_payload (h : AcceptedInput b) :
    (decisionSigningPayload E b).toList.splitOn '\n' =
      (linesBefore b).map String.toList ++ ("nonce:" ++ b.nonce).toList.splitOn '\n' ++
        (linesAfter E b).map String.toList := by
  rw [decisionSigningPayload_eq,
    Text.splitOn_joinOn (List.append_ne_nil_of_right_ne_nil _ (List.cons_ne_nil _ _)),
    List.flatMap_append, List.flatMap_cons, Text.flatMap_splitOn_of_free (free_linesBefore h),
    Text.flatMap_splitOn_of_free (free_linesAfter E h), List.append_assoc]

theorem length_label {label value : String} {n : Nat} (h : value.toList.length = n) :
    (label ++ value).toList.length = label.toList.length + n := by
  rw [String.toList_append, List.length_append, h]

/-- A nonce that the server accepts has no room for the digest, device and nonce lines of another
    payload. -/
theorem not_lines_in_nonce (ha : ClientInput E a) (hnonce : b.nonce.utf8ByteSize ≤ 160)
    {front : List (List Char)}
    (h : ("nonce:" ++ b.nonce).toList.splitOn '\n' =
      front ++ ("request_digest:" ++ a.requestDigest).toList ::
        (("option_id:" ++ a.optionId).toList.splitOn '\n' ++ (ownLines a).map String.toList)) :
    False := by
  have hdigest : ("request_digest:" ++ a.requestDigest).toList.length = 15 + 64 := by
    obtain ⟨text, htext⟩ := ha.digest
    refine length_label ?_
    rw [← Text.utf8ByteSize_of_ascii fun c hc => ?_, ← htext]
    · exact E.sha256Hex_length text
    · rw [← htext] at hc
      exact Text.isAscii_of_isLowerHex (E.sha256Hex_lowerHex text c hc)
  have hdevice : ("device_id:" ++ a.deviceId).toList.length = 10 + 36 :=
    length_label (isAscii_of_isUuid ha.deviceId).1
  have hown : ("nonce:" ++ a.nonce).toList.length = 6 + 36 :=
    length_label (isAscii_of_isUuid ha.nonce).1
  have hroom : ("nonce:" ++ b.nonce).toList.length ≤ 6 + 160 := by
    rw [length_label rfl]
    exact Nat.add_le_add_left ((Text.length_le_utf8ByteSize _).trans hnonce) 6
  have hsum := Lines.sum_length_splitOn '\n' ("nonce:" ++ b.nonce).toList
  rw [h, List.map_append, List.sum_append, List.map_cons, List.sum_cons, List.map_append,
    List.sum_append, hdigest] at hsum
  simp only [ownLines, List.map_cons, List.map_nil, List.sum_cons, List.sum_nil, hdevice, hown] at hsum
  omega

/-- A client's payload that the server makes as well is over the same digest. -/
theorem requestDigest_of_payload (ha : ClientInput E a) (hb : AcceptedInput b)
    (hnonce : b.nonce.utf8ByteSize ≤ 160)
    (h : decisionSigningPayload E a = decisionSigningPayload E b) :
    a.requestDigest = b.requestDigest := by
  have hlines := congrArg (fun text => text.toList.splitOn '\n') h
  simp only [ha.splitOn_payload, hb.splitOn_payload] at hlines
  have hfront := (List.append_inj' hlines rfl).1
  rw [show (linesBefore b).map String.toList =
    decisionPayloadVersion.toList :: (linesBefore b).tail.map String.toList from rfl,
    List.cons_append, List.cons.injEq] at hfront
  -- the digest line stands before the server's nonce, or within it
  obtain ⟨front, hbefore, hrest⟩ | ⟨front, -, hrest⟩ := List.append_eq_append_iff.mp hfront.2
  · cases front with
    | nil =>
      have hpieces : ("nonce:" ++ b.nonce).toList.splitOn '\n' =
          [] ++ ("request_digest:" ++ a.requestDigest).toList ::
            (("option_id:" ++ a.optionId).toList.splitOn '\n' ++ (ownLines a).map String.toList) :=
        hrest.symm
      exact (not_lines_in_nonce ha hnonce hpieces).elim
    | cons line front =>
      rw [List.cons_append, List.cons.injEq] at hrest
      have hmem : ("request_digest:" ++ a.requestDigest).toList ∈
          (linesBefore b).tail.map String.toList := by
        rw [hbefore, hrest.1]
        exact List.mem_append_right _ List.mem_cons_self
      -- no other line of the server starts like it
      have hdigest : a.requestDigest.toList = b.requestDigest.toList := by
        simpa [linesBefore, String.toList_append] using hmem
      exact String.toList_inj.mp hdigest
  · exact (not_lines_in_nonce ha hnonce hrest).elim

/-! ## What a copy shows -/

/-- A copy shows what the card says; without an image its address may be empty. -/
structure Shows (copy : Request) (r : DecisionRequest) : Prop where
  id : copy.id = r.id
  title : copy.title = r.title
  summary : copy.summary = r.summary
  bodyMarkdown : copy.bodyMarkdown = r.bodyMarkdown
  fields : copy.fields = r.fields
  links : copy.links = r.links
  imageUrl : copy.imageUrl.getD "" = r.imageUrl.getD ""
  decisionResolution : copy.decisionResolution = r.decisionResolution
  expiresAt : copy.expiresAt.map DateTime.toRfc3339Millis = r.expiresAt.map DateTime.toRfc3339Millis
  options : copy.options = r.options
  answerField : copy.answerField = r.answerField

variable (P) in
/-- All that is hashed of a stored card, under any of its encoders. -/
def cardTexts (r : DecisionRequest) : List String :=
  [Encoder.legacyLineSnapshot, .structured, .legacyStructuredV2, .value, .legacyValueV3].filterMap
    (Encoder.preimage P r) ++ hashedTexts r

variable (P) in
/-- The hash tells the texts of a copy from those of a card. -/
def TellsCopyApart (copy : Request) (r : DecisionRequest) : Prop :=
  ∀ x ∈ Client.hashedTexts P.toExternals copy, ∀ y ∈ cardTexts P r, TellsApart P.toExternals x y

/-- A digest that the server accepts for a card is the hash of its text under an encoder. -/
theorem preimage_of_candidate {r : DecisionRequest} {candidates : List String} {d : String}
    (h : digestCandidates P r = .ok candidates) (hmem : d ∈ candidates) :
    ∃ e p, Encoder.preimage P r e = some p ∧ P.sha256Hex p = d := by
  have hwire : (r.toWire P.toExternals).signing.map RequestSigningContext.recipientsCommitment =
      commitmentOf r := by rw [signing_toWire]; rfl
  unfold digestCandidates at h
  dsimp only at h
  rw [hwire] at h
  cases hfield : r.answerField with
  | some field =>
    rw [hfield] at h
    simp only [bind_eq_ok, orElse_eq_ok, digestError, mapError_eq_ok, pure_eq_ok] at h
    obtain ⟨commitment, hcommitment, current, hcurrent, legacy, hlegacy, rfl⟩ := h
    have hvalue : ∀ version, valueText P r version =
        some (valuePreimage (r.toWire P.toExternals) commitment field version) := by
      intro version
      unfold valueText
      rw [hfield, Option.bind_some, hcommitment, Option.map_some]
    rw [List.mem_cons, List.mem_singleton] at hmem
    obtain rfl | rfl := hmem
    · exact ⟨.value, _, hvalue _, (valueRequestDigestWithVersion_eq_ok.mp hcurrent).2.2⟩
    · exact ⟨.legacyValueV3, _, hvalue _, (valueRequestDigestWithVersion_eq_ok.mp hlegacy).2.2⟩
  | none =>
    have hline : snapshotText P r = some (lineSnapshot P.toExternals (r.toWire P.toExternals)) := by
      unfold snapshotText
      rw [if_pos hfield]
    rw [hfield] at h
    simp only [stamped_toWire] at h
    cases hcommitment : commitmentOf r with
    | none =>
      rw [hcommitment] at h
      rw [← pure_eq_ok.mp h, List.mem_singleton] at hmem
      exact ⟨.legacyLineSnapshot, _, hline, hmem.symm⟩
    | some commitment =>
      have hstructured : ∀ version, structuredText P r version =
          some (structuredPreimage (r.toWire P.toExternals) commitment version) := by
        intro version
        unfold structuredText
        rw [if_pos hfield, hcommitment, Option.map_some]
      rw [hcommitment] at h
      simp only [bind_eq_ok, digestError, mapError_eq_ok, pure_eq_ok] at h
      obtain ⟨current, hcurrent, legacy, hlegacy, rfl⟩ := h
      rw [List.mem_cons, List.mem_cons, List.mem_singleton] at hmem
      obtain rfl | rfl | rfl := hmem
      · exact ⟨.legacyLineSnapshot, _, hline, rfl⟩
      · exact ⟨.structured, _, hstructured _, (structuredRequestDigest_eq_ok.mp hcurrent).2⟩
      · exact ⟨.legacyStructuredV2, _, hstructured _, (structuredRequestDigest_eq_ok.mp hlegacy).2⟩

variable {copy : Request} {card : StoredCard P} {c d : String}

theorem shows_of_members (h : SameMembers copy card.request.toRequest c d)
    (hfield : copy.answerField = card.request.answerField) : Shows copy card.request where
  id := h.id
  title := h.title
  summary := h.summary
  bodyMarkdown := h.bodyMarkdown
  fields := h.fields
  links := h.links
  imageUrl := congrArg (Option.getD · "") h.imageUrl
  decisionResolution := h.decisionResolution
  expiresAt := h.expiresAt
  options := h.options
  answerField := hfield

/-- The lines of a stored card have no line breaks inside, so any copy with its snapshot has its
    lines. -/
theorem shows_of_snapshot
    (h : lineSnapshot P.toExternals copy = lineSnapshot P.toExternals card.request.toRequest)
    (hfield : copy.answerField = card.request.answerField)
    (htells : TellsCopyApart P copy card.request) : Shows copy card.request := by
  rw [lineSnapshot_eq, lineSnapshot_eq] at h
  have hlength : (snapshotLines P.toExternals card.request.toRequest).length =
      (snapshotLines P.toExternals copy).length := rfl
  have hlines := Client.joinOn_inj_of_length card.keepsLines.free_snapshotLines
    (List.cons_ne_nil _ _) hlength h.symm
  simp only [snapshotLines, List.cons.injEq, String.append_right_inj, true_and, and_true] at hlines
  obtain ⟨hid, -, -, hresolution, htitle, hsummary, hbody, hfields, hlinks, himage, -, hexpires, -,
    hoptions⟩ := hlines
  have hpart : ∀ {x y : String}, P.sha256Hex y = P.sha256Hex x →
      x ∈ Client.hashedTexts P.toExternals copy → y ∈ hashedTexts card.request → x = y := by
    intro x y hhash hx hy
    exact htells x hx y (List.mem_append_right _ hy) hhash.symm
  unfold Client.hashedTexts hashedTexts at hpart
  simp only [List.mem_cons, List.not_mem_nil, or_false] at hpart
  have hfieldTexts := Json.text_inj (plain_arr _ CardField.plain_toJson _).1
    (plain_arr _ CardField.plain_toJson _).1
    (hpart hfields (by simp only [true_or, or_true]) (.inr (.inr (.inr (.inl rfl)))))
  have hlinkTexts := Json.text_inj (plain_arr _ CardLink.plain_toJson _).1
    (plain_arr _ CardLink.plain_toJson _).1
    (hpart hlinks (by simp only [true_or, or_true]) (.inr (.inr (.inr (.inr (.inl rfl))))))
  have hsame := Client.options_of_hash
    (hpart hoptions (by simp only [or_true]) (.inr (.inr (.inr (.inr (.inr rfl))))))
  exact
    { id := hid.symm
      title := hpart htitle (by simp only [true_or, or_true]) (.inl rfl)
      summary := hpart hsummary (by simp only [true_or, or_true]) (.inr (.inl rfl))
      bodyMarkdown := hpart hbody (by simp only [true_or, or_true]) (.inr (.inr (.inl rfl)))
      fields := arr_map_inj (fun _ _ => CardField.toJson_inj) hfieldTexts
      links := arr_map_inj (fun _ _ => CardLink.toJson_inj) hlinkTexts
      imageUrl := himage.symm
      decisionResolution := (DecisionResolution.asStr_inj hresolution).symm
      expiresAt := (optMillis_inj hexpires).symm
      options := hsame
      answerField := hfield }

/-- The copy under a digest that the server accepts for a card shows the card. -/
theorem shows_of_digest {candidates : List String} (hsigns : Client.Signs P.toExternals copy d)
    (hcandidates : digestCandidates P card.request = .ok candidates) (hmem : d ∈ candidates)
    (hordinary : card.request.answerField = none → copy.answerField = none)
    (htells : TellsCopyApart P copy card.request) : Shows copy card.request := by
  obtain ⟨e, p, hpreimage, hhash⟩ := preimage_of_candidate hcandidates hmem
  have htext : Client.signedText P.toExternals copy = p := by
    have hmem : p ∈ cardTexts P card.request := by
      refine List.mem_append_left _ (List.mem_filterMap.mpr ⟨e, ?_, hpreimage⟩)
      cases e <;> decide
    exact htells _ List.mem_cons_self p hmem (hsigns.text.1.trans hhash.symm)
  have hordinaryTag : ∀ {e : Encoder} {version : String}, (e = .structured ∧
      version = requestDigestVersion ∨ e = .legacyStructuredV2 ∧
      version = legacyStructuredRequestDigestVersion) → Text.Free '\n' version := by
    intro e version htag
    obtain ⟨-, rfl⟩ | ⟨-, rfl⟩ := htag
    · decide
    · decide
  have hvalueTag : ∀ {e : Encoder} {version : String}, (e = .value ∧
      version = valueRequestDigestVersion ∨ e = .legacyValueV3 ∧
      version = legacyValueRequestDigestVersion) → Text.Free '\n' version := by
    intro e version htag
    obtain ⟨-, rfl⟩ | ⟨-, rfl⟩ := htag
    · decide
    · decide
  -- the encoder of the copy is read off the text, and has to be of the family of the card
  cases hsigning : copy.signing with
  | none =>
    rw [Client.signedText_line hsigning] at htext
    obtain hfield | ⟨-, -, htag⟩ | ⟨-, -, htag⟩ := gives_of_preimage hpreimage
    · exact shows_of_snapshot htext ((hordinary hfield).trans hfield.symm) htells
    · exact absurd htext (lineSnapshot_ne_tagged _ _ (hordinaryTag htag) _)
    · exact absurd htext (lineSnapshot_ne_tagged _ _ (hvalueTag htag) _)
  | some context =>
    have hfree := hsigns.text.2 context hsigning
    cases hcopy : copy.answerField with
    | none =>
      rw [Client.signedText_structured hsigning hcopy] at htext
      obtain hfield | ⟨hfield, -, htag⟩ | ⟨-, -, htag⟩ := gives_of_preimage hpreimage
      · exact absurd htext.symm (lineSnapshot_ne_tagged _ _ hfree _)
      · exact shows_of_members (structuredPreimage_inj hfree (hordinaryTag htag) htext).2
          (hcopy.trans hfield.symm)
      · exact absurd htext (structuredPreimage_ne_value hfree (hvalueTag htag))
    | some field =>
      rw [Client.signedText_value hsigning hcopy] at htext
      obtain hfield | ⟨-, -, htag⟩ | ⟨hfield, -, htag⟩ := gives_of_preimage hpreimage
      · exact absurd htext.symm (lineSnapshot_ne_tagged _ _ hfree _)
      · exact absurd htext.symm (structuredPreimage_ne_value (hordinaryTag htag) hfree)
      · obtain ⟨-, hmembers, hsame⟩ := valuePreimage_inj hfree (hvalueTag htag) htext
        refine shows_of_members hmembers ?_
        rw [hcopy, hfield, hsame]

end Nod.Server
