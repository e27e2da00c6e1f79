import Nod.Apple.Spelling

/-
  How long the JSON of an answer definition can be. The app measures its own encoding, which writes a
  slash with a backslash before it, and the server's is no longer.
  Proved: a definition whose label, choices and default have valid lengths never reaches the limit
  (`PartsValid.size`).
-/

namespace Nod.Apple

open Lib Nod.Proto

/-! ## Bytes of characters -/

/-- The bytes that `JSONEncoder` makes of rendered characters. -/
def encodedSize (cs : List Char) : ℕ := ((cs.flatMap slashEscaped).map Char.utf8Size).sum

theorem encodedSize_append (cs ds : List Char) :
    encodedSize (cs ++ ds) = encodedSize cs + encodedSize ds := by
  unfold encodedSize
  rw [List.flatMap_append, List.map_append, List.sum_append]

theorem encodedSize_cons (c : Char) (cs : List Char) :
    encodedSize (c :: cs) = encodedSize [c] + encodedSize cs := encodedSize_append [c] cs

@[simp] theorem encodedSize_nil : encodedSize [] = 0 := rfl

theorem size_jsonEncode (v : Json) : (jsonEncode v).utf8ByteSize = encodedSize v.render :=
  Text.utf8ByteSize_ofList _

theorem utf8Size_slashEscaped (c : Char) :
    c.utf8Size ≤ ((slashEscaped c).map Char.utf8Size).sum := by
  unfold slashEscaped
  split
  · next h => subst h; decide
  · simp

/-- A slash has one byte more in the app's encoding than in the server's. -/
theorem size_text_le (v : Json) : v.text.utf8ByteSize ≤ (jsonEncode v).utf8ByteSize := by
  have hle : ∀ cs : List Char, (cs.map Char.utf8Size).sum ≤ encodedSize cs := by
    intro cs
    induction cs with
    | nil => exact Nat.le_refl 0
    | cons c cs ih =>
      rw [encodedSize_cons, List.map_cons, List.sum_cons]
      have hc : c.utf8Size ≤ encodedSize [c] := by
        unfold encodedSize
        rw [List.flatMap_singleton]
        exact utf8Size_slashEscaped c
      omega
  rw [size_jsonEncode]
  exact (Text.utf8ByteSize_ofList _).le.trans (hle v.render)

theorem encodedSize_renderString {k : ℕ} {s : String}
    (h : ∀ c ∈ s.toList, encodedSize (Json.escapeChar c) ≤ k) :
    encodedSize (Json.renderString s) ≤ 2 + k * s.toList.length := by
  have hchars : ∀ cs : List Char, (∀ c ∈ cs, encodedSize (Json.escapeChar c) ≤ k) →
      encodedSize (cs.flatMap Json.escapeChar) ≤ k * cs.length := by
    intro cs hcs
    induction cs with
    | nil => exact Nat.zero_le _
    | cons c cs ih =>
      rw [List.forall_mem_cons] at hcs
      have hrest := ih hcs.2
      rw [List.flatMap_cons, encodedSize_append, List.length_cons, Nat.mul_succ]
      omega
  have hquote : encodedSize ['"'] = 1 := by decide
  have hbody := hchars s.toList h
  unfold Json.renderString
  rw [encodedSize_cons, encodedSize_append, hquote]
  omega

/-- Beyond ASCII nothing is escaped. -/
theorem encodedSize_escapeChar {c : Char} (h : ¬ c.toNat < 128) :
    encodedSize (Json.escapeChar c) ≤ 4 := by
  have hne : ∀ d : Char, d.toNat < 128 → c ≠ d := fun d hd heq => h (heq ▸ hd)
  have hescape : Json.escapeChar c = [c] := by
    unfold Json.escapeChar
    rw [if_neg (hne _ (by decide)), if_neg (hne _ (by decide)), if_neg (hne _ (by decide)),
      if_neg (hne _ (by decide)), if_neg (hne _ (by decide)), if_neg (hne _ (by decide)),
      if_neg (hne _ (by decide)), if_neg (by omega)]
  have hslash : slashEscaped c = [c] := if_neg (hne _ (by decide))
  rw [hescape]
  unfold encodedSize
  rw [List.flatMap_singleton, hslash]
  simpa using c.utf8Size_le_four

theorem encodedSize_escapeChar_le (c : Char) : encodedSize (Json.escapeChar c) ≤ 6 := by
  by_cases hc : c.toNat < 128
  · have hall : (List.range 128).all (fun n =>
        decide (encodedSize (Json.escapeChar (Char.ofNat n)) ≤ 6)) = true := by decide
    exact of_decide_eq_true
      (of_ascii (p := fun c => decide (encodedSize (Json.escapeChar c) ≤ 6)) hall hc)
  · exact (encodedSize_escapeChar hc).trans (by decide)

theorem encodedSize_escapeChar_label {c : Char} (h : Text.isControl c = false) :
    encodedSize (Json.escapeChar c) ≤ 4 := by
  by_cases hc : c.toNat < 128
  · have hall : (List.range 128).all (fun n => Text.isControl (Char.ofNat n) ||
        decide (encodedSize (Json.escapeChar (Char.ofNat n)) ≤ 4)) = true := by decide
    have hle := of_ascii (p := fun c => Text.isControl c ||
      decide (encodedSize (Json.escapeChar c) ≤ 4)) hall hc
    rw [h] at hle
    exact of_decide_eq_true hle
  · exact encodedSize_escapeChar hc

theorem encodedSize_escapeChar_id {c : Char} (h : isIdCharacter c = true) :
    encodedSize (Json.escapeChar c) ≤ 1 := by
  have hall : idCharacters.all (fun c => decide (encodedSize (Json.escapeChar c) ≤ 1)) = true := by
    decide
  exact of_decide_eq_true (List.all_eq_true.mp hall c (mem_idCharacters.mpr h))

theorem encodedSize_label {s : String} {max : ℕ} (h : validLabel s max = true) :
    encodedSize (Json.renderString s) ≤ 2 + 4 * max := by
  unfold validLabel at h
  simp only [Bool.and_eq_true, decide_eq_true_eq, Bool.not_eq_true', List.any_eq_false] at h
  obtain ⟨⟨-, hlength⟩, hcontrol⟩ := h
  have hchars := encodedSize_renderString (k := 4) (s := s) fun c hc =>
    encodedSize_escapeChar_label (Bool.eq_false_of_not_eq_true (hcontrol c hc))
  have hcount : s.toList.length = s.length := String.length_toList
  omega

theorem encodedSize_id {id : String} (h : AnswerField.validChoiceId id = true) :
    encodedSize (Json.renderString id) ≤ 42 := by
  obtain ⟨-, hlength, hall⟩ := validChoiceId_iff.mp h
  have hchars := encodedSize_renderString (k := 1) fun c hc => encodedSize_escapeChar_id (hall c hc)
  omega

/-! ## Objects and arrays -/

theorem encodedSize_marks : encodedSize ['\x7b'] = 1 ∧ encodedSize ['\x7d'] = 1 ∧
    encodedSize ['['] = 1 ∧ encodedSize [']'] = 1 ∧ encodedSize [':'] = 1 ∧
    encodedSize [','] = 1 := by decide

/-- What an item takes, with the comma or bracket before it. -/
def itemSize (v : Json) : ℕ := encodedSize v.render + 1

def memberSize (m : String × Json) : ℕ := encodedSize (Json.renderString m.1) + itemSize m.2 + 1

theorem encodedSize_arr (vs : List Json) :
    encodedSize (Json.arr vs).render ≤ 2 + (vs.map itemSize).sum := by
  obtain ⟨-, -, hopen, hclose, -, hcomma⟩ := encodedSize_marks
  have hitems : ∀ vs : List Json,
      encodedSize (Json.renderItems vs) = 1 + (vs.map itemSize).sum := by
    intro vs
    induction vs with
    | nil => exact hclose
    | cons v vs ih =>
      rw [Json.renderItems, encodedSize_cons, hcomma, encodedSize_append, ih, List.map_cons,
        List.sum_cons, itemSize]
      omega
  cases vs with
  | nil =>
    have hempty : encodedSize (Json.arr []).render = 2 := by decide
    exact hempty.le
  | cons v vs =>
    rw [Json.render, encodedSize_cons, hopen, encodedSize_append, hitems, List.map_cons,
      List.sum_cons, itemSize]
    omega

theorem encodedSize_obj (ms : List (String × Json)) :
    encodedSize (Json.obj ms).render ≤ 2 + (ms.map memberSize).sum := by
  obtain ⟨hopen, hclose, -, -, hcolon, hcomma⟩ := encodedSize_marks
  have hmembers : ∀ ms : List (String × Json),
      encodedSize (Json.renderMembers ms) = 1 + (ms.map memberSize).sum := by
    intro ms
    induction ms with
    | nil => exact hclose
    | cons m ms ih =>
      obtain ⟨k, v⟩ := m
      rw [Json.renderMembers, encodedSize_cons, hcomma, encodedSize_append, encodedSize_cons ':',
        hcolon, encodedSize_append, ih, List.map_cons, List.sum_cons, memberSize, itemSize]
      dsimp only
      omega
  cases ms with
  | nil =>
    have hempty : encodedSize (Json.obj []).render = 2 := by decide
    exact hempty.le
  | cons m ms =>
    obtain ⟨k, v⟩ := m
    rw [Json.render, encodedSize_cons, hopen, encodedSize_append, encodedSize_cons ':', hcolon,
      encodedSize_append, hmembers, List.map_cons, List.sum_cons, memberSize, itemSize]
    dsimp only
    omega

/-- Members are at most as long as their keys and values. -/
theorem memberSize_le {k : String} {v : Json} {m n : ℕ}
    (hk : encodedSize (Json.renderString k) = m) (hv : encodedSize v.render ≤ n) :
    memberSize (k, v) ≤ m + n + 2 := by
  unfold memberSize itemSize
  dsimp only
  omega

/-! ## Definitions -/

theorem encodedSize_choice {c : NodAnswerChoice} (hid : AnswerField.validChoiceId c.id = true)
    (hlabel : validLabel c.label 48 = true) : encodedSize c.toJson.render ≤ 253 := by
  have hids : memberSize ("id", .str c.id) ≤ 4 + 42 + 2 :=
    memberSize_le (by decide) (encodedSize_id hid)
  have hlabels : memberSize ("label", .str c.label) ≤ 7 + 194 + 2 :=
    memberSize_le (by decide) (encodedSize_label hlabel)
  have hsize := encodedSize_obj [("id", .str c.id), ("label", .str c.label)]
  simp only [List.map_cons, List.map_nil, List.sum_cons, List.sum_nil] at hsize
  unfold NodAnswerChoice.toJson
  omega

theorem encodedSize_choices {choices : List NodAnswerChoice}
    (h : ∀ c ∈ choices, AnswerField.validChoiceId c.id = true ∧ validLabel c.label 48 = true) :
    encodedSize (Json.arr (choices.map NodAnswerChoice.toJson)).render ≤
      2 + 254 * choices.length := by
  have hitems : ∀ cs : List NodAnswerChoice,
      (∀ c ∈ cs, AnswerField.validChoiceId c.id = true ∧ validLabel c.label 48 = true) →
      ((cs.map NodAnswerChoice.toJson).map itemSize).sum ≤ 254 * cs.length := by
    intro cs hcs
    induction cs with
    | nil => exact Nat.zero_le _
    | cons c cs ih =>
      rw [List.forall_mem_cons] at hcs
      have hc := encodedSize_choice hcs.1.1 hcs.1.2
      have hrest := ih hcs.2
      rw [List.map_cons, List.map_cons, List.sum_cons, List.length_cons, itemSize]
      omega
  have hsize := encodedSize_arr (choices.map NodAnswerChoice.toJson)
  have hsum := hitems choices h
  omega

theorem encodedSize_kind (k : Kind) : encodedSize (Json.str k.rawValue).render ≤ 11 := by
  cases k <;> decide

theorem encodedSize_value {v : NodAnswerValue} (h : v.string.toList.length ≤ 40) :
    encodedSize v.toJson.render ≤ 276 := by
  have hstring := encodedSize_renderString (k := 6) (s := v.string) fun c _ =>
    encodedSize_escapeChar_le c
  have hkey : encodedSize (Json.renderString (NodAnswerValue.key v.kind)) ≤ 11 := by
    cases v.kind <;> decide
  have hkinds : memberSize ("kind", .str v.kind.rawValue) ≤ 6 + 11 + 2 :=
    memberSize_le (by decide) (encodedSize_kind _)
  have hstrings : memberSize (NodAnswerValue.key v.kind, .str v.string) ≤
      encodedSize (Json.renderString (NodAnswerValue.key v.kind)) + 242 + 2 :=
    memberSize_le rfl (hstring.trans (by omega))
  have hsize := encodedSize_obj
    [("kind", .str v.kind.rawValue), (NodAnswerValue.key v.kind, .str v.string)]
  simp only [List.map_cons, List.map_nil, List.sum_cons, List.sum_nil] at hsize
  unfold NodAnswerValue.toJson
  omega

/-- The parts of a definition that passes, whatever its default says. -/
structure PartsValid (f : NodAnswerField) : Prop where
  label : validLabel f.label 64 = true
  choices : ∀ choices, f.choices = some choices → choices.length ≤ 12 ∧
    ∀ c ∈ choices, AnswerField.validChoiceId c.id = true ∧ validLabel c.label 48 = true
  default : f.defaultValue.string.toList.length ≤ 40

/-- The limit on the encoded size never decides. -/
theorem PartsValid.size {f : NodAnswerField} (h : PartsValid f) :
    (jsonEncode f.toJson).utf8ByteSize ≤ 4096 := by
  have hkinds : memberSize ("kind", .str f.kind.rawValue) ≤ 6 + 11 + 2 :=
    memberSize_le (by decide) (encodedSize_kind _)
  have hlabels : memberSize ("label", .str f.label) ≤ 7 + 258 + 2 :=
    memberSize_le (by decide) (encodedSize_label h.label)
  have hdefaults : memberSize ("default", f.defaultValue.toJson) ≤ 9 + 276 + 2 :=
    memberSize_le (by decide) (encodedSize_value h.default)
  have hchoices : ((f.choices.map fun choices =>
      ("choices", Json.arr (choices.map NodAnswerChoice.toJson))).toList.map memberSize).sum ≤
        9 + 3050 + 2 := by
    cases hc : f.choices with
    | none => exact Nat.zero_le _
    | some choices =>
      obtain ⟨hcount, hvalid⟩ := h.choices choices hc
      have hsize := encodedSize_choices hvalid
      have hmember : memberSize ("choices", Json.arr (choices.map NodAnswerChoice.toJson)) ≤
          9 + 3050 + 2 := memberSize_le (by decide) (by omega)
      simpa using hmember
  have hsize := encodedSize_obj ([("kind", .str f.kind.rawValue), ("label", .str f.label)] ++
    (f.choices.map fun choices =>
      ("choices", Json.arr (choices.map NodAnswerChoice.toJson))).toList ++
    [("default", f.defaultValue.toJson)])
  simp only [List.map_append, List.map_cons, List.map_nil, List.sum_append, List.sum_cons,
    List.sum_nil] at hsize
  rw [size_jsonEncode]
  unfold NodAnswerField.toJson
  omega

end Nod.Apple
