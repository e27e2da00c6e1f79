import Nod.Lib.JsonRead

/-
  The indented writer of JSON texts: each item and each member on a line of its own, two spaces
  deeper than what holds it.
  Proved: the reader gives back what it writes (`parse_prettyText`).
-/

namespace Lib.Json

def newline (depth : Nat) : List Char := '\n' :: List.replicate (2 * depth) ' '

mutual
def pretty (depth : Nat) : Json → List Char
  | arr (v :: vs) =>
    '[' :: (newline (depth + 1) ++ (pretty (depth + 1) v ++ prettyItems depth vs))
  | obj ((k, v) :: ms) =>
    '{' :: (newline (depth + 1) ++
      (renderString k ++ ':' :: ' ' :: (pretty (depth + 1) v ++ prettyMembers depth ms)))
  | v => render v

/-- The items after the first one, and the closing bracket. -/
def prettyItems (depth : Nat) : List Json → List Char
  | [] => newline depth ++ [']']
  | v :: vs => ',' :: (newline (depth + 1) ++ (pretty (depth + 1) v ++ prettyItems depth vs))

/-- The members after the first one, and the closing brace. -/
def prettyMembers (depth : Nat) : List (String × Json) → List Char
  | [] => newline depth ++ ['}']
  | (k, v) :: ms =>
    ',' :: (newline (depth + 1) ++
      (renderString k ++ ':' :: ' ' :: (pretty (depth + 1) v ++ prettyMembers depth ms)))
end

def prettyText (v : Json) : String := String.ofList (pretty 0 v)

example : prettyText (.obj [("a", .arr [.num 1, .null]), ("b", .obj [])]) =
    "\x7b\n  \"a\": [\n    1,\n    null\n  ],\n  \"b\": \x7b\x7d\n\x7d" := by decide

/-! ## White space -/

@[simp] theorem skipSpace_newline (depth : Nat) (cs : List Char) :
    skipSpace (newline depth ++ cs) = skipSpace cs := by
  unfold skipSpace
  refine List.dropWhile_append_of_pos fun c hc => ?_
  obtain rfl | hspaces := List.mem_cons.mp hc
  · rfl
  · rw [List.eq_of_mem_replicate hspaces]
    rfl

theorem skipSpace_space (cs : List Char) : skipSpace (' ' :: cs) = skipSpace cs := rfl

theorem readValue_congr {n : Nat} {cs ds : List Char} (h : skipSpace cs = skipSpace ds) :
    readValue n cs = readValue n ds := by
  cases n with
  | zero => rfl
  | succ n => rw [readValue, readValue, h]

theorem readItems_congr {n : Nat} {cs ds : List Char} (h : skipSpace cs = skipSpace ds) :
    readItems n cs = readItems n ds := by
  cases n with
  | zero => rfl
  | succ n => rw [readItems, readItems, readValue_congr h]

theorem readMembers_congr {n : Nat} {cs ds : List Char} (h : skipSpace cs = skipSpace ds) :
    readMembers n cs = readMembers n ds := by
  cases n with
  | zero => rfl
  | succ n => rw [readMembers, readMembers, h]

/-! ## Reading what was written -/

theorem stops_newline (depth : Nat) (cs : List Char) : Stops (newline depth ++ cs) :=
  stops_cons (.inr (.inr (.inr rfl))) _

theorem stops_prettyItems (depth : Nat) (vs : List Json) (r : List Char) :
    Stops (prettyItems depth vs ++ r) := by
  cases vs with
  | nil =>
    rw [prettyItems, List.append_assoc]
    exact stops_newline depth _
  | cons v vs => exact stops_cons (.inl rfl) _

theorem stops_prettyMembers (depth : Nat) (ms : List (String × Json)) (r : List Char) :
    Stops (prettyMembers depth ms ++ r) := by
  cases ms with
  | nil =>
    rw [prettyMembers, List.append_assoc]
    exact stops_newline depth _
  | cons m ms => exact stops_cons (.inl rfl) _

theorem pretty_head (depth : Nat) (v : Json) (hv : FloatFree v) :
    ∃ c cs, pretty depth v = c :: cs ∧ startsValue c = true := by
  obtain ⟨c, cs, hc, hs⟩ := render_head v hv
  match v with
  | .arr (_ :: _) => exact ⟨'[', _, rfl, rfl⟩
  | .obj ((_, _) :: _) => exact ⟨'{', _, rfl, rfl⟩
  | .arr [] | .obj [] | .null | .bool _ | .num _ | .float _ | .str _ => exact ⟨c, cs, hc, hs⟩

mutual
theorem readValue_pretty : ∀ (v : Json) (depth n : Nat) (r : List Char),
    FloatFree v → size v ≤ n → Stops r → readValue n (pretty depth v ++ r) = some (v, r)
  | .arr [], _, n, r, hv, h, hr => readValue_render (.arr []) n r hv h hr
  | .obj [], _, n, r, hv, h, hr => readValue_render (.obj []) n r hv h hr
  | .null, _, n, r, hv, h, hr => readValue_render .null n r hv h hr
  | .bool b, _, n, r, hv, h, hr => readValue_render (.bool b) n r hv h hr
  | .num i, _, n, r, hv, h, hr => readValue_render (.num i) n r hv h hr
  | .float t, _, n, r, hv, h, hr => readValue_render (.float t) n r hv h hr
  | .str s, _, n, r, hv, h, hr => readValue_render (.str s) n r hv h hr
  | .arr (v :: vs), _, 0, _, _, h, _ => by simp [size] at h
  | .arr (v :: vs), depth, n + 1, r, hv, h, _ => by
    simp only [size] at h
    simp only [FloatFree] at hv
    have hread := readItems_pretty (v :: vs) (by simp) depth n r hv (by omega)
    obtain ⟨c, cs, hc, hs⟩ := pretty_head (depth + 1) v hv.1
    obtain ⟨hsp, hne⟩ := not_space_of_startsValue hs
    simp only [pretty, List.cons_append, List.append_assoc, readValue,
      skipSpace_cons (show isJsonSpace '[' = false by decide), Char.reduceEq, if_false, if_true]
    rw [readItems_congr (skipSpace_newline (depth + 1) _)]
    simp only [List.head_cons, List.tail_cons, skipSpace_newline, hc, List.cons_append] at hread ⊢
    simp only [skipSpace_cons hsp, hne, if_false, hread, Option.bind_eq_bind, Option.bind_some]
  | .obj ((k, v) :: ms), _, 0, _, _, h, _ => by simp [size] at h
  | .obj ((k, v) :: ms), depth, n + 1, r, hv, h, _ => by
    simp only [size] at h
    simp only [FloatFree] at hv
    have hread := readMembers_pretty ((k, v) :: ms) (by simp) depth n r hv (by omega)
    simp only [pretty, renderString, List.cons_append, List.append_assoc, readValue,
      skipSpace_cons (show isJsonSpace '{' = false by decide), skipSpace_newline,
      skipSpace_cons (show isJsonSpace '"' = false by decide), Char.reduceEq, if_false, if_true]
    rw [readMembers_congr (skipSpace_newline (depth + 1) _)]
    simp only [List.head_cons, List.tail_cons, renderString, List.cons_append,
      List.append_assoc] at hread
    simp only [hread, Option.bind_eq_bind, Option.bind_some]

theorem readItems_pretty : ∀ (vs : List Json) (hne : vs ≠ []) (depth n : Nat) (r : List Char),
    FloatFreeItems vs → sizeItems vs ≤ n →
      readItems n (pretty (depth + 1) (vs.head hne) ++ (prettyItems depth vs.tail ++ r)) =
        some (vs, r)
  | [], hne, _, _, _, _, _ => absurd rfl hne
  | _ :: _, _, _, 0, _, _, h => by simp [sizeItems] at h
  | [v], _, depth, n + 1, r, hv, h => by
    simp only [sizeItems] at h
    have hread := readValue_pretty v (depth + 1) n (prettyItems depth [] ++ r) hv.1 (by omega)
      (stops_prettyItems depth [] r)
    simp only [List.head_cons, List.tail_cons, readItems, hread, Option.bind_eq_bind,
      Option.bind_some]
    simp only [prettyItems, List.append_assoc, skipSpace_newline]
    rfl
  | v :: w :: ws, _, depth, n + 1, r, hv, h => by
    simp only [sizeItems] at h
    have hread := readValue_pretty v (depth + 1) n (prettyItems depth (w :: ws) ++ r) hv.1
      (by omega) (stops_prettyItems depth _ r)
    have hrest := readItems_pretty (w :: ws) (by simp) depth n r hv.2
      (by simp only [sizeItems]; omega)
    simp only [List.head_cons, List.tail_cons] at hrest
    simp only [List.head_cons, List.tail_cons, readItems, hread, Option.bind_eq_bind,
      Option.bind_some]
    simp only [prettyItems, List.cons_append, List.append_assoc,
      skipSpace_cons (show isJsonSpace ',' = false by decide), Char.reduceEq, if_false, if_true]
    rw [readItems_congr (skipSpace_newline (depth + 1) _), hrest, Option.bind_some]

theorem readMembers_pretty : ∀ (ms : List (String × Json)) (hne : ms ≠ []) (depth n : Nat)
    (r : List Char), FloatFreeMembers ms → sizeMembers ms ≤ n →
      readMembers n (renderString (ms.head hne).1 ++ ':' :: ' ' ::
        (pretty (depth + 1) (ms.head hne).2 ++ (prettyMembers depth ms.tail ++ r))) = some (ms, r)
  | [], hne, _, _, _, _, _ => absurd rfl hne
  | _ :: _, _, _, 0, _, _, h => by simp [sizeMembers] at h
  | [(k, v)], _, depth, n + 1, r, hv, h => by
    simp only [sizeMembers] at h
    have hread := readValue_pretty v (depth + 1) n (prettyMembers depth [] ++ r) hv.1 (by omega)
      (stops_prettyMembers depth [] r)
    rw [← readValue_congr (skipSpace_space _)] at hread
    simp only [List.head_cons, List.tail_cons, renderString, List.cons_append, List.append_assoc,
      List.nil_append, readMembers, skipSpace_cons (show isJsonSpace '"' = false by decide),
      if_true, readString_key, Option.bind_eq_bind, Option.bind_some,
      skipSpace_cons (show isJsonSpace ':' = false by decide), hread]
    simp only [prettyMembers, List.append_assoc, skipSpace_newline, List.cons_append,
      skipSpace_cons (show isJsonSpace '}' = false by decide), if_true, List.nil_append,
      String.ofList_toList]
  | (k, v) :: (l, w) :: ms, _, depth, n + 1, r, hv, h => by
    simp only [sizeMembers] at h
    have hread := readValue_pretty v (depth + 1) n (prettyMembers depth ((l, w) :: ms) ++ r) hv.1
      (by omega) (stops_prettyMembers depth _ r)
    rw [← readValue_congr (skipSpace_space _)] at hread
    have hrest := readMembers_pretty ((l, w) :: ms) (by simp) depth n r hv.2
      (by simp only [sizeMembers]; omega)
    simp only [List.head_cons, List.tail_cons] at hrest
    simp only [List.head_cons, List.tail_cons, renderString, List.cons_append, List.append_assoc,
      List.nil_append, readMembers, skipSpace_cons (show isJsonSpace '"' = false by decide),
      if_true, readString_key, Option.bind_eq_bind, Option.bind_some,
      skipSpace_cons (show isJsonSpace ':' = false by decide), hread]
    simp only [prettyMembers, List.cons_append, List.append_assoc,
      skipSpace_cons (show isJsonSpace ',' = false by decide), Char.reduceEq, if_false, if_true]
    rw [readMembers_congr (skipSpace_newline (depth + 1) _), hrest, Option.bind_some,
      String.ofList_toList]
end

/-! ## The whole text -/

mutual
theorem length_render_le_pretty : ∀ (depth : Nat) (v : Json),
    (render v).length ≤ (pretty depth v).length
  | _, .arr [] | _, .obj [] | _, .null | _, .bool _ | _, .num _ | _, .float _ | _, .str _ => le_rfl
  | depth, .arr (v :: vs) => by
    have hv := length_render_le_pretty (depth + 1) v
    have hvs := length_renderItems_le depth vs
    simp only [render, pretty, List.length_cons, List.length_append]
    omega
  | depth, .obj ((k, v) :: ms) => by
    have hv := length_render_le_pretty (depth + 1) v
    have hms := length_renderMembers_le depth ms
    simp only [render, pretty, List.length_cons, List.length_append]
    omega

theorem length_renderItems_le : ∀ (depth : Nat) (vs : List Json),
    (renderItems vs).length ≤ (prettyItems depth vs).length
  | depth, [] => by
    simp only [renderItems, prettyItems, List.length_append]
    omega
  | depth, v :: vs => by
    have hv := length_render_le_pretty (depth + 1) v
    have hvs := length_renderItems_le depth vs
    simp only [renderItems, prettyItems, List.length_cons, List.length_append]
    omega

theorem length_renderMembers_le : ∀ (depth : Nat) (ms : List (String × Json)),
    (renderMembers ms).length ≤ (prettyMembers depth ms).length
  | depth, [] => by
    simp only [renderMembers, prettyMembers, List.length_append]
    omega
  | depth, (k, v) :: ms => by
    have hv := length_render_le_pretty (depth + 1) v
    have hms := length_renderMembers_le depth ms
    simp only [renderMembers, prettyMembers, List.length_cons, List.length_append]
    omega
end

/-- The reader inverts the indented writer on every value without a floating-point number. -/
theorem parse_prettyText (v : Json) (hv : FloatFree v) : parse v.prettyText = some v := by
  have hfuel := (size_le_length_render v hv).trans (length_render_le_pretty 0 v)
  have hread := readValue_pretty v 0 ((pretty 0 v).length + 1) [] hv (by omega) stops_nil
  rw [List.append_nil] at hread
  simp only [parse, prettyText, String.toList_ofList, hread, Option.bind_eq_bind, Option.bind_some]
  rfl

end Lib.Json
