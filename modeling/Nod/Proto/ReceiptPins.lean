import Nod.Proto.ReceiptPolicy

/-
  Which pin a receipt is verified under. The verifier looks a key up by its user and key id: it
  takes the first pin of that name and checks device and signature against it alone.
  Proved: the verdict is the one that first pin gives (`verifyDecisionReceipt_withPins`), so it is
  an existential over the pins, blind to their order and to repeats, on lists that keep one pin
  for each user and key id (`pinLaws`). An earlier pin of the same name hides a later one
  (`earlier_pin_hides`).
-/

namespace Nod.Proto

open Lib

namespace ReceiptVerificationInput

/-- The same receipt under other pins. -/
def withPins (input : ReceiptVerificationInput) (pins : List PinnedKey) :
    ReceiptVerificationInput :=
  { input with pinnedKeys := pins }

/-- The pin has the user and the key id that the receipt names. -/
def names (input : ReceiptVerificationInput) (pin : PinnedKey) : Bool :=
  input.decision.actorUserId = some pin.userId ∧
    input.decision.signature.map DecisionSignatureRecord.keyId = some pin.keyId

theorem names_eq (input : ReceiptVerificationInput) {u : String} {s : DecisionSignatureRecord}
    (hu : input.decision.actorUserId = some u) (hs : input.decision.signature = some s) :
    (fun key : PinnedKey => decide (key.userId = u ∧ key.keyId = s.keyId)) = input.names := by
  funext key
  unfold names
  rw [hu, hs]
  show decide (key.userId = u ∧ key.keyId = s.keyId) =
    decide (some u = some key.userId ∧ some s.keyId = some key.keyId)
  simp only [Option.some.injEq, eq_comm]

/-- Pins that agree in user and key id are named together. -/
theorem names_congr {input : ReceiptVerificationInput} {a b : PinnedKey}
    (ha : input.names a = true) (hb : input.names b = true) :
    a.userId = b.userId ∧ a.keyId = b.keyId := by
  unfold names at ha hb
  rw [decide_eq_true_eq] at ha hb
  have huser := ha.1.symm.trans hb.1
  have hkey := ha.2.symm.trans hb.2
  exact ⟨Option.some.inj huser, Option.some.inj hkey⟩

end ReceiptVerificationInput

/-- The receipt verifies under these pins. -/
def PassesUnder (E : Externals) (input : ReceiptVerificationInput) (pins : List PinnedKey) :
    Prop :=
  ∃ r, verifyDecisionReceipt E (input.withPins pins) = .ok r

/-- A user's key id stands for one pin: device and public key included. -/
def OnePinEach (pins : List PinnedKey) : Prop :=
  ∀ a ∈ pins, ∀ b ∈ pins, a.userId = b.userId → a.keyId = b.keyId → a = b

variable {E : Externals} {input : ReceiptVerificationInput}

/-! ## One pin decides -/

theorem Verified.find?_names {pins : List PinnedKey} {s : DecisionSignatureRecord} {u d : String}
    {pin : PinnedKey} {t : DateTime} {dg : String × DigestEncoder} {p : String}
    (h : Verified E (input.withPins pins) s u d pin t dg p) :
    pins.find? input.names = some pin := by
  rw [← input.names_eq h.userId h.signature]
  exact h.pinned

/-- The verdict, with every fact it reports, is that of the first pin the receipt names. -/
theorem verifyDecisionReceipt_withPins {pins : List PinnedKey} {r : VerifiedReceipt} :
    verifyDecisionReceipt E (input.withPins pins) = .ok r ↔
      ∃ pin, pins.find? input.names = some pin ∧
        verifyDecisionReceipt E (input.withPins [pin]) = .ok r := by
  have htransfer : ∀ {ps qs : List PinnedKey}, qs.find? input.names = ps.find? input.names →
      verifyDecisionReceipt E (input.withPins ps) = .ok r →
        verifyDecisionReceipt E (input.withPins qs) = .ok r := by
    intro ps qs hfind h
    obtain ⟨s, u, d, pin, t, dg, p, ws, hv, hw, hr⟩ := verifyDecisionReceipt_eq_ok.mp h
    refine verifyDecisionReceipt_eq_ok.mpr ⟨s, u, d, pin, t, dg, p, ws, ⟨hv.signature,
      hv.algorithm, hv.requestId, hv.requestIdCopy, hv.digest, hv.option, hv.userId, hv.deviceId,
      ?_, hv.device, hv.signedAt, hv.payload, hv.recorded, hv.verifies⟩, hw, hr⟩
    show qs.find? (fun key => decide (key.userId = u ∧ key.keyId = s.keyId)) = some pin
    rw [input.names_eq hv.userId hv.signature]
    exact hfind.trans hv.find?_names
  have hsingle : ∀ {pin : PinnedKey}, pins.find? input.names = some pin →
      [pin].find? input.names = pins.find? input.names := by
    intro pin hfind
    rw [List.find?_cons_of_pos (List.find?_some hfind), hfind]
  constructor
  · intro h
    obtain ⟨s, u, d, pin, t, dg, p, ws, hv, -, -⟩ := verifyDecisionReceipt_eq_ok.mp h
    exact ⟨pin, hv.find?_names, htransfer (hsingle hv.find?_names) h⟩
  · intro h
    obtain ⟨pin, hfind, hpass⟩ := h
    exact htransfer (hsingle hfind).symm hpass

theorem passesUnder_iff {pins : List PinnedKey} :
    PassesUnder E input pins ↔
      ∃ pin, pins.find? input.names = some pin ∧ PassesUnder E input [pin] := by
  constructor
  · intro h
    obtain ⟨r, hr⟩ := h
    obtain ⟨pin, hfind, hpass⟩ := verifyDecisionReceipt_withPins.mp hr
    exact ⟨pin, hfind, r, hpass⟩
  · intro h
    obtain ⟨pin, hfind, r, hpass⟩ := h
    exact ⟨r, verifyDecisionReceipt_withPins.mpr ⟨pin, hfind, hpass⟩⟩

/-- A pin that passes alone is named by the receipt. -/
theorem names_of_passesUnder {pin : PinnedKey} (h : PassesUnder E input [pin]) :
    input.names pin = true := by
  obtain ⟨q, hfind, -⟩ := passesUnder_iff.mp h
  have hq := List.find?_some hfind
  rwa [List.mem_singleton.mp (List.mem_of_find?_eq_some hfind)] at hq

/-- On a list with one pin for each user and key id the verdict is an existential. -/
theorem passesUnder_iff_exists {pins : List PinnedKey} (hone : OnePinEach pins) :
    PassesUnder E input pins ↔ ∃ pin ∈ pins, PassesUnder E input [pin] := by
  rw [passesUnder_iff]
  constructor
  · intro h
    obtain ⟨pin, hfind, hpass⟩ := h
    exact ⟨pin, List.mem_of_find?_eq_some hfind, hpass⟩
  · intro h
    obtain ⟨pin, hmem, hpass⟩ := h
    have hname := names_of_passesUnder hpass
    obtain ⟨q, hfind⟩ := Option.isSome_iff_exists.mp (List.find?_isSome.mpr ⟨pin, hmem, hname⟩)
    obtain ⟨huser, hkey⟩ := ReceiptVerificationInput.names_congr (List.find?_some hfind) hname
    rw [hone q (List.mem_of_find?_eq_some hfind) pin hmem huser hkey] at hfind
    exact ⟨pin, hfind, hpass⟩

/-! ## The laws of a pin list -/

/-- How the verdict depends on the pins. The last three laws need one pin for each user and key
    id, the others hold of any list. -/
structure PinLaws (E : Externals) (input : ReceiptVerificationInput) : Prop where
  first : ∀ pins r, verifyDecisionReceipt E (input.withPins pins) = .ok r ↔
    ∃ pin, pins.find? input.names = some pin ∧
      verifyDecisionReceipt E (input.withPins [pin]) = .ok r
  sound : ∀ pins, PassesUnder E input pins → ∃ pin ∈ pins, PassesUnder E input [pin]
  appended : ∀ pins more, PassesUnder E input pins → PassesUnder E input (pins ++ more)
  unnamed : ∀ front pins, (∀ pin ∈ front, input.names pin = false) →
    (PassesUnder E input (front ++ pins) ↔ PassesUnder E input pins)
  repeated : ∀ front pin back,
    PassesUnder E input (front ++ pin :: pin :: back) ↔
      PassesUnder E input (front ++ pin :: back)
  exists_iff : ∀ pins, OnePinEach pins →
    (PassesUnder E input pins ↔ ∃ pin ∈ pins, PassesUnder E input [pin])
  members : ∀ pins pins', OnePinEach pins → (∀ pin, pin ∈ pins ↔ pin ∈ pins') →
    (PassesUnder E input pins ↔ PassesUnder E input pins')
  added : ∀ pins more, OnePinEach more → pins ⊆ more → PassesUnder E input pins →
    PassesUnder E input more

theorem pinLaws (E : Externals) (input : ReceiptVerificationInput) : PinLaws E input where
  first _ _ := verifyDecisionReceipt_withPins
  sound pins h := by
    obtain ⟨pin, hfind, hpass⟩ := passesUnder_iff.mp h
    exact ⟨pin, List.mem_of_find?_eq_some hfind, hpass⟩
  appended pins more h := by
    obtain ⟨pin, hfind, hpass⟩ := passesUnder_iff.mp h
    refine passesUnder_iff.mpr ⟨pin, ?_, hpass⟩
    rw [List.find?_append, hfind]
    rfl
  unnamed front pins hfront := by
    have hnone : front.find? input.names = none := by
      rw [List.find?_eq_none]
      intro pin hpin
      rw [hfront pin hpin]
      exact Bool.false_ne_true
    rw [passesUnder_iff, passesUnder_iff, List.find?_append, hnone]
    rfl
  repeated front pin back := by
    have htwice : (pin :: pin :: back).find? input.names = (pin :: back).find? input.names := by
      cases hname : input.names pin with
      | false =>
        have hskip : ¬ input.names pin = true := by
          rw [hname]
          exact Bool.false_ne_true
        rw [List.find?_cons_of_neg hskip]
      | true => rw [List.find?_cons_of_pos hname, List.find?_cons_of_pos hname]
    rw [passesUnder_iff, passesUnder_iff, List.find?_append, List.find?_append, htwice]
  exists_iff _ hone := passesUnder_iff_exists hone
  members pins pins' hone hmem := by
    have hone' : OnePinEach pins' := by
      intro a ha b hb
      exact hone a ((hmem a).mpr ha) b ((hmem b).mpr hb)
    rw [passesUnder_iff_exists hone, passesUnder_iff_exists hone']
    simp only [hmem]
  added pins more hone hsub h := by
    obtain ⟨pin, hfind, hpass⟩ := passesUnder_iff.mp h
    exact (passesUnder_iff_exists hone).mpr
      ⟨pin, hsub (List.mem_of_find?_eq_some hfind), hpass⟩

/-! ## Two pins of one name -/

/-- The pin of the device that signed. -/
def devicePin : PinnedKey :=
  { userId := "owner", deviceId := some "device-1", keyId := "key-1"
    publicKey := Concrete.publicKey }

/-- A second device of the same user, pinned under the same key id. -/
def secondDevicePin : PinnedKey := { devicePin with deviceId := some "device-2" }

def pinnedReceipt : ReceiptVerificationInput :=
  cardReceipt signedPackages none (.number "4") Concrete.publicKey ordinarySignature

theorem earlier_pin_hides :
    PassesUnder signedPackages pinnedReceipt [devicePin] ∧
      PassesUnder signedPackages pinnedReceipt [devicePin, secondDevicePin] ∧
      ¬ PassesUnder signedPackages pinnedReceipt [secondDevicePin, devicePin] := by
  have halone : PassesUnder signedPackages pinnedReceipt [devicePin] :=
    verifies_cardReceipt signedPackages none (.number "4") nofun ordinary_card_signed
  refine ⟨halone, ?_, ?_⟩
  · exact (pinLaws signedPackages pinnedReceipt).appended [devicePin] [secondDevicePin] halone
  · intro h
    obtain ⟨pin, hfind, r, hr⟩ := passesUnder_iff.mp h
    have hpin : secondDevicePin = pin := by
      have hnames : pinnedReceipt.names secondDevicePin = true := rfl
      rw [List.find?_cons_of_pos hnames] at hfind
      exact Option.some.inj hfind
    subst hpin
    obtain ⟨s, u, d, pin, t, dg, p, ws, hv, -, -⟩ := verifyDecisionReceipt_eq_ok.mp hr
    have hd : some "device-1" = some d := hv.deviceId
    have hpin : secondDevicePin = pin :=
      (List.mem_singleton.mp (List.mem_of_find?_eq_some hv.pinned)).symm
    have hdevice := hv.device
    rw [← hpin, ← hd] at hdevice
    revert hdevice
    decide

end Nod.Proto
