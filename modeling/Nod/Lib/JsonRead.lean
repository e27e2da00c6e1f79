import Nod.Lib.Text
import Nod.Lib.Json

/-
  The standard JSON reader and the round trip with the compact writer.
  Proved: the reader inverts the writer on every float-free value (`parse_text`), so two
  float-free values with one text are equal (`text_inj`).
-/

namespace Lib.Json

/-! ## Strings -/

def hexVal (c : Char) : Option Nat :=
  if c.isDigit then some (c.toNat - 48)
  else if 'a' ≤ c ∧ c ≤ 'f' then some (c.toNat - 87)
  else if 'A' ≤ c ∧ c ≤ 'F' then some (c.toNat - 55)
  else none

def readHex4 : List Char → Option (Nat × List Char)
  | a :: b :: c :: d :: cs => do
    let a ← hexVal a
    let b ← hexVal b
    let c ← hexVal c
    let d ← hexVal d
    some (((a * 16 + b) * 16 + c) * 16 + d, cs)
  | _ => none

/-- The rest of a `\u` escape; a high surrogate needs its low one. -/
def readUnicode (cs : List Char) : Option (Char × List Char) := do
  let (hi, cs) ← readHex4 cs
  if 0xD800 ≤ hi ∧ hi < 0xDC00 then
    match cs with
    | '\\' :: 'u' :: cs => do
      let (lo, cs) ← readHex4 cs
      if 0xDC00 ≤ lo ∧ lo < 0xE000 then
        some (Char.ofNat (0x10000 + (hi - 0xD800) * 0x400 + (lo - 0xDC00)), cs)
      else none
    | _ => none
  else if 0xDC00 ≤ hi ∧ hi < 0xE000 then none
  else some (Char.ofNat hi, cs)

/-- What follows a backslash. -/
def readEscape : List Char → Option (Char × List Char)
  | [] => none
  | c :: cs =>
    if c = '"' then some ('"', cs)
    else if c = '\\' then some ('\\', cs)
    else if c = '/' then some ('/', cs)
    else if c = 'b' then some ('\x08', cs)
    else if c = 'f' then some ('\x0c', cs)
    else if c = 'n' then some ('\n', cs)
    else if c = 'r' then some ('\r', cs)
    else if c = 't' then some ('\t', cs)
    else if c = 'u' then readUnicode cs
    else none

/-- A string after its opening quote. -/
def readString : Nat → List Char → Option (List Char × List Char)
  | 0, _ => none
  | _ + 1, [] => none
  | fuel + 1, c :: cs =>
    if c = '"' then some ([], cs)
    else if c = '\\' then do
      let (d, cs) ← readEscape cs
      let (ds, cs) ← readString fuel cs
      some (d :: ds, cs)
    else if c.toNat < 0x20 then none
    else do
      let (ds, cs) ← readString fuel cs
      some (c :: ds, cs)

/-! ## Numbers -/

/-- A fraction or nothing. -/
def readFraction (cs : List Char) : Option (List Char × List Char) :=
  match cs with
  | '.' :: cs =>
    let ds := cs.takeWhile Char.isDigit
    if ds = [] then none else some ('.' :: ds, cs.dropWhile Char.isDigit)
  | cs => some ([], cs)

/-- An exponent or nothing. -/
def readExponent (cs : List Char) : Option (List Char × List Char) :=
  match cs with
  | [] => some ([], [])
  | c :: cs =>
    if c = 'e' ∨ c = 'E' then
      let (sign, cs) := match cs with
        | '+' :: cs => (['+'], cs)
        | '-' :: cs => (['-'], cs)
        | cs => ([], cs)
      let ds := cs.takeWhile Char.isDigit
      if ds = [] then none else some (c :: sign ++ ds, cs.dropWhile Char.isDigit)
    else some ([], c :: cs)

/-- A number from its digits on: an integer, unless it has a fraction or an exponent or is a
    negative zero. -/
def readUnsigned (negative : Bool) (cs : List Char) : Option (Json × List Char) := do
  let ds := cs.takeWhile Char.isDigit
  if ds = [] ∨ (ds.head? = some '0' ∧ 1 < ds.length) then none
  else
    let (frac, cs) ← readFraction (cs.dropWhile Char.isDigit)
    let (exp, cs) ← readExponent cs
    let n := Nat.ofDigitChars 10 ds 0
    if frac = [] ∧ exp = [] ∧ ¬ (negative = true ∧ n = 0) then
      some (.num (if negative then -(n : Int) else n), cs)
    else some (.float (String.ofList ((if negative then ['-'] else []) ++ ds ++ frac ++ exp)), cs)

/-! ## Values -/

def isJsonSpace (c : Char) : Bool := c == ' ' || c == '\n' || c == '\r' || c == '\t'

def skipSpace (cs : List Char) : List Char := cs.dropWhile isJsonSpace

def expectAll : List Char → List Char → Option (List Char)
  | [], cs => some cs
  | _ :: _, [] => none
  | w :: ws, c :: cs => if w = c then expectAll ws cs else none

mutual
/-- A value, after any white space. -/
def readValue : Nat → List Char → Option (Json × List Char)
  | 0, _ => none
  | fuel + 1, cs =>
    match skipSpace cs with
    | [] => none
    | c :: cs =>
      if c = '"' then do
        let (s, cs) ← readString (cs.length + 1) cs
        some (.str (String.ofList s), cs)
      else if c = '[' then
        match skipSpace cs with
        | [] => none
        | d :: ds =>
          if d = ']' then some (.arr [], ds)
          else do
            let (vs, cs) ← readItems fuel cs
            some (.arr vs, cs)
      else if c = '{' then
        match skipSpace cs with
        | [] => none
        | d :: ds =>
          if d = '}' then some (.obj [], ds)
          else do
            let (ms, cs) ← readMembers fuel cs
            some (.obj ms, cs)
      else if c = 'n' then (expectAll ['u', 'l', 'l'] cs).map fun cs => (.null, cs)
      else if c = 't' then (expectAll ['r', 'u', 'e'] cs).map fun cs => (.bool true, cs)
      else if c = 'f' then (expectAll ['a', 'l', 's', 'e'] cs).map fun cs => (.bool false, cs)
      else if c = '-' then readUnsigned true cs
      else readUnsigned false (c :: cs)

/-- Items up to the closing bracket. -/
def readItems : Nat → List Char → Option (List Json × List Char)
  | 0, _ => none
  | fuel + 1, cs => do
    let (v, cs) ← readValue fuel cs
    match skipSpace cs with
    | [] => none
    | c :: cs =>
      if c = ']' then some ([v], cs)
      else if c = ',' then do
        let (vs, cs) ← readItems fuel cs
        some (v :: vs, cs)
      else none

/-- Members up to the closing brace. -/
def readMembers : Nat → List Char → Option (List (String × Json) × List Char)
  | 0, _ => none
  | fuel + 1, cs =>
    match skipSpace cs with
    | [] => none
    | c :: cs =>
      if c = '"' then do
        let (k, cs) ← readString (cs.length + 1) cs
        match skipSpace cs with
        | [] => none
        | c :: cs =>
          if c = ':' then do
            let (v, cs) ← readValue fuel cs
            match skipSpace cs with
            | [] => none
            | c :: cs =>
              if c = '}' then some ([(String.ofList k, v)], cs)
              else if c = ',' then do
                let (ms, cs) ← readMembers fuel cs
                some ((String.ofList k, v) :: ms, cs)
              else none
          else none
      else none
end

/-- Read a whole text. -/
def parse (s : String) : Option Json := do
  let (v, cs) ← readValue (s.toList.length + 1) s.toList
  if skipSpace cs = [] then some v else none

/-! ## Reading what was written: strings -/

theorem hexVal_hexDigit : ∀ d, d < 16 → hexVal (hexDigit d) = some d := by decide

theorem readEscape_control {c : Char} (h : c.toNat < 0x20) (cs : List Char) :
    readEscape ('u' :: '0' :: '0' :: hexDigit (c.toNat / 16) :: hexDigit (c.toNat % 16) :: cs) =
      some (c, cs) := by
  have h1 := hexVal_hexDigit (c.toNat / 16) (by omega)
  have h2 := hexVal_hexDigit (c.toNat % 16) (by omega)
  have h0 : hexVal '0' = some 0 := rfl
  have hval : ((0 * 16 + 0) * 16 + c.toNat / 16) * 16 + c.toNat % 16 = c.toNat := by omega
  simp only [readEscape, readUnicode, readHex4, h0, h1, h2, Option.bind_eq_bind, Option.bind_some,
    hval, Char.reduceEq, if_false, if_true]
  rw [if_neg (by omega), if_neg (by omega), Char.ofNat_toNat]

theorem readString_escape {c : Char} {es cs : List Char} (n : Nat)
    (h : readEscape es = some (c, cs)) :
    readString (n + 1) ('\\' :: es) = (readString n cs).map fun p => (c :: p.1, p.2) := by
  simp only [readString, Char.reduceEq, if_false, if_true, h, Option.bind_eq_bind,
    Option.bind_some]
  cases readString n cs <;> rfl

theorem readString_plain {c : Char} (n : Nat) (cs : List Char) (hq : c ≠ '"') (hb : c ≠ '\\')
    (hc : ¬ c.toNat < 0x20) :
    readString (n + 1) (c :: cs) = (readString n cs).map fun p => (c :: p.1, p.2) := by
  simp only [readString, hq, hb, hc, if_false]
  cases readString n cs <;> rfl

/-- One written character is one character read. -/
theorem readString_escapeChar (n : Nat) (c : Char) (cs : List Char) :
    readString (n + 1) (escapeChar c ++ cs) =
      (readString n cs).map fun p => (c :: p.1, p.2) := by
  unfold escapeChar
  split
  · next h => subst h; exact readString_escape n rfl
  next hq =>
  split
  · next h => subst h; exact readString_escape n rfl
  next hb =>
  split
  · next h => subst h; exact readString_escape n rfl
  split
  · next h => subst h; exact readString_escape n rfl
  split
  · next h => subst h; exact readString_escape n rfl
  split
  · next h => subst h; exact readString_escape n rfl
  split
  · next h => subst h; exact readString_escape n rfl
  split
  · next h => exact readString_escape n (readEscape_control h cs)
  · next hc => exact readString_plain n cs hq hb hc

theorem readString_flatMap (cs : List Char) (n : Nat) (r : List Char) (hn : cs.length < n) :
    readString n (cs.flatMap escapeChar ++ '"' :: r) = some (cs, r) := by
  induction cs generalizing n with
  | nil =>
    cases n with
    | zero => omega
    | succ n => rfl
  | cons c cs ih =>
    cases n with
    | zero => omega
    | succ n =>
      rw [List.flatMap_cons, List.append_assoc, readString_escapeChar,
        ih n (by simpa using hn)]
      rfl

theorem length_le_length_flatMap (cs : List Char) :
    cs.length ≤ (cs.flatMap escapeChar).length := by
  induction cs with
  | nil => simp
  | cons c cs ih =>
    have : 1 ≤ (escapeChar c).length := by
      unfold escapeChar
      repeat' split
      all_goals simp
    rw [List.flatMap_cons, List.length_append, List.length_cons]
    omega

/-- A written string is read back whole, with the fuel its own text gives. -/
theorem readString_renderString (s : String) (r : List Char) (n : Nat)
    (hn : (s.toList.flatMap escapeChar).length < n) :
    readString n (s.toList.flatMap escapeChar ++ '"' :: r) = some (s.toList, r) :=
  readString_flatMap _ _ _ (lt_of_le_of_lt (length_le_length_flatMap _) hn)

/-! ## Reading what was written: numbers -/

/-- What can follow a written value. -/
def Stops (r : List Char) : Prop :=
  ∀ c cs, r = c :: cs → c = ',' ∨ c = ']' ∨ c = '}' ∨ c = '\n'

theorem stops_nil : Stops [] := fun _ _ h => by cases h

theorem stops_cons {c : Char} (h : c = ',' ∨ c = ']' ∨ c = '}' ∨ c = '\n') (cs : List Char) :
    Stops (c :: cs) := by
  intro d ds hd
  cases hd
  exact h

theorem takeWhile_isDigit_of_stops {ds r : List Char} (hd : ∀ c ∈ ds, c.isDigit = true)
    (hr : Stops r) :
    (ds ++ r).takeWhile Char.isDigit = ds ∧ (ds ++ r).dropWhile Char.isDigit = r := by
  rw [List.takeWhile_append_of_pos hd, List.dropWhile_append_of_pos hd]
  cases r with
  | nil => simp
  | cons c cs =>
    have hc : c.isDigit = false := by rcases hr c cs rfl with rfl | rfl | rfl | rfl <;> rfl
    simp [hc]

theorem readFraction_stops {r : List Char} (hr : Stops r) : readFraction r = some ([], r) := by
  cases r with
  | nil => rfl
  | cons c cs => rcases hr c cs rfl with rfl | rfl | rfl | rfl <;> rfl

theorem readExponent_stops {r : List Char} (hr : Stops r) : readExponent r = some ([], r) := by
  cases r with
  | nil => rfl
  | cons c cs => rcases hr c cs rfl with rfl | rfl | rfl | rfl <;> rfl

/-- Digits of a positive number start with no zero. -/
theorem head?_toDigits {n : Nat} (hn : 0 < n) : (Nat.toDigits 10 n).head? ≠ some '0' := by
  induction n using Nat.strong_induction_on with
  | _ n ih =>
    by_cases h : n < 10
    · rw [Nat.toDigits_of_lt_base h]
      have hall : ∀ d, d < 10 → 0 < d → [Nat.digitChar d].head? ≠ some '0' := by decide
      exact hall n h hn
    · rw [Nat.toDigits_of_base_le (by decide) (by omega)]
      have hne : Nat.toDigits 10 (n / 10) ≠ [] := Nat.toDigits_ne_nil
      rw [List.head?_append_of_ne_nil _ hne]
      exact ih (n / 10) (by omega) (by omega)

theorem readUnsigned_toDigits (negative : Bool) (n : Nat) {r : List Char} (hr : Stops r)
    (hn : negative = true → 0 < n) :
    readUnsigned negative (Nat.toDigits 10 n ++ r) =
      some (.num (if negative then -(n : Int) else n), r) := by
  have hd : ∀ c ∈ Nat.toDigits 10 n, c.isDigit = true :=
    fun c hc => Nat.isDigit_of_mem_toDigits (by decide) (by decide) hc
  obtain ⟨htake, hdrop⟩ := takeWhile_isDigit_of_stops hd hr
  have hzero : ¬ (Nat.toDigits 10 n = [] ∨
      ((Nat.toDigits 10 n).head? = some '0' ∧ 1 < (Nat.toDigits 10 n).length)) := by
    rintro (h | ⟨h, hlen⟩)
    · exact Nat.toDigits_ne_nil h
    · rcases Nat.eq_zero_or_pos n with rfl | hpos
      · simp at hlen
      · exact head?_toDigits hpos h
  have hnz : ¬ (negative = true ∧ n = 0) := fun h => by have := hn h.1; omega
  simp only [readUnsigned, htake, hdrop, if_neg hzero, readFraction_stops hr,
    readExponent_stops hr, Option.bind_eq_bind, Option.bind_some, Nat.ofDigitChars_ten_toDigits,
    true_and, if_pos hnz]

/-! ## Reading what was written: values -/

mutual
/-- Fuel the reader needs. -/
def size : Json → Nat
  | arr vs => 1 + sizeItems vs
  | obj ms => 1 + sizeMembers ms
  | _ => 1

def sizeItems : List Json → Nat
  | [] => 0
  | v :: vs => 1 + size v + sizeItems vs

def sizeMembers : List (String × Json) → Nat
  | [] => 0
  | (_, v) :: ms => 1 + size v + sizeMembers ms
end

theorem skipSpace_cons {c : Char} (h : isJsonSpace c = false) (cs : List Char) :
    skipSpace (c :: cs) = c :: cs := by
  simp [skipSpace, h]

/-- A character that starts a written value. -/
def startsValue (c : Char) : Bool :=
  c == 'n' || c == 't' || c == 'f' || c == '"' || c == '[' || c == '{' || c == '-' || c.isDigit

theorem not_space_of_startsValue {c : Char} (h : startsValue c = true) :
    isJsonSpace c = false ∧ c ≠ ']' := by
  constructor
  · by_contra hs
    simp only [isJsonSpace, Bool.not_eq_false, Bool.or_eq_true, beq_iff_eq] at hs
    rcases hs with ((rfl | rfl) | rfl) | rfl <;> exact absurd h (by decide)
  · rintro rfl
    exact absurd h (by decide)

theorem toDigits_head (n : Nat) : ∃ c cs, Nat.toDigits 10 n = c :: cs ∧ c.isDigit = true := by
  cases h : Nat.toDigits 10 n with
  | nil => exact absurd h Nat.toDigits_ne_nil
  | cons c cs =>
    exact ⟨c, cs, rfl, Nat.isDigit_of_mem_toDigits (b := 10) (by decide) (by decide)
      (h ▸ List.mem_cons_self)⟩

theorem render_head (v : Json) (hv : FloatFree v) :
    ∃ c cs, render v = c :: cs ∧ startsValue c = true := by
  cases v with
  | null => exact ⟨_, _, rfl, rfl⟩
  | bool b => cases b <;> exact ⟨_, _, rfl, rfl⟩
  | float t => exact absurd hv (by simp [FloatFree])
  | str s => exact ⟨_, _, rfl, rfl⟩
  | arr vs => cases vs <;> exact ⟨_, _, rfl, rfl⟩
  | obj ms => cases ms <;> exact ⟨_, _, rfl, rfl⟩
  | num n =>
    by_cases hn : n < 0
    · exact ⟨'-', _, by rw [render, renderInt, if_pos hn], rfl⟩
    · obtain ⟨c, cs, hc, hd⟩ := toDigits_head n.natAbs
      exact ⟨c, cs, by rw [render, renderInt, if_neg hn, hc], by simp [startsValue, hd]⟩

theorem readValue_num (m : Nat) (n : Int) {r : List Char} (hr : Stops r) :
    readValue (m + 1) (renderInt n ++ r) = some (.num n, r) := by
  unfold renderInt
  split
  · next hn =>
    rw [List.cons_append]
    have hread := readUnsigned_toDigits true n.natAbs hr (fun _ => by omega)
    rw [if_pos rfl, show -(n.natAbs : Int) = n by omega] at hread
    simp only [readValue, skipSpace_cons (show isJsonSpace '-' = false by decide), Char.reduceEq,
      if_false, if_true, hread]
  · next hn =>
    have hread := readUnsigned_toDigits false n.natAbs hr (fun h => absurd h (by decide))
    rw [if_neg (by decide), show (n.natAbs : Int) = n by omega] at hread
    obtain ⟨c, cs, hc, hd⟩ := toDigits_head n.natAbs
    rw [hc, List.cons_append] at hread ⊢
    have hsp : isJsonSpace c = false := (not_space_of_startsValue (by simp [startsValue, hd])).1
    have hne : ∀ d : Char, d.isDigit = false → c ≠ d := by
      rintro d hdd rfl
      rw [hd] at hdd
      exact absurd hdd (by decide)
    simp only [readValue, skipSpace_cons hsp, hne '"' (by decide), hne '[' (by decide),
      hne '{' (by decide), hne 'n' (by decide), hne 't' (by decide), hne 'f' (by decide),
      hne '-' (by decide), if_false, hread]

theorem stops_renderItems (vs : List Json) (r : List Char) : Stops (renderItems vs ++ r) := by
  cases vs with
  | nil => exact stops_cons (by decide) _
  | cons v vs => exact stops_cons (by decide) _

theorem stops_renderMembers (ms : List (String × Json)) (r : List Char) :
    Stops (renderMembers ms ++ r) := by
  cases ms with
  | nil => exact stops_cons (by decide) _
  | cons m ms => exact stops_cons (by decide) _

/-- A written key and its colon are read back. -/
theorem readString_key (k : String) (r : List Char) :
    readString ((k.toList.flatMap escapeChar ++ '"' :: r).length + 1)
      (k.toList.flatMap escapeChar ++ '"' :: r) = some (k.toList, r) :=
  readString_renderString _ _ _ (by rw [List.length_append]; omega)

mutual
theorem readValue_render : ∀ (v : Json) (n : Nat) (r : List Char),
    FloatFree v → size v ≤ n → Stops r → readValue n (render v ++ r) = some (v, r)
  | .null, 0, _, _, h, _ => by simp [size] at h
  | .null, n + 1, r, _, _, _ => by
    simp [render, readValue, skipSpace_cons, isJsonSpace, expectAll]
  | .bool _, 0, _, _, h, _ => by simp [size] at h
  | .bool true, n + 1, r, _, _, _ => by
    simp [render, readValue, skipSpace_cons, isJsonSpace, expectAll]
  | .bool false, n + 1, r, _, _, _ => by
    simp [render, readValue, skipSpace_cons, isJsonSpace, expectAll]
  | .num _, 0, _, _, h, _ => by simp [size] at h
  | .num i, n + 1, r, _, _, hr => readValue_num n i hr
  | .float _, _, _, hv, _, _ => by simp [FloatFree] at hv
  | .str _, 0, _, _, h, _ => by simp [size] at h
  | .str s, n + 1, r, _, _, _ => by
    simp only [render, renderString, List.cons_append, List.append_assoc, readValue,
      skipSpace_cons (show isJsonSpace '"' = false by decide), if_true]
    rw [List.nil_append, readString_key]
    simp
  | .arr _, 0, _, _, h, _ => by simp [size] at h
  | .arr [], n + 1, r, _, _, _ => by
    simp [render, readValue, skipSpace_cons, isJsonSpace]
  | .arr (v :: vs), n + 1, r, hv, h, _ => by
    simp only [size] at h
    simp only [FloatFree] at hv
    have hread := readItems_render (v :: vs) (by simp) n r hv (by omega)
    obtain ⟨c, cs, hc, hs⟩ := render_head v hv.1
    obtain ⟨hsp, hne⟩ := not_space_of_startsValue hs
    simp only [render, List.cons_append, List.append_assoc, readValue,
      skipSpace_cons (show isJsonSpace '[' = false by decide), Char.reduceEq, if_false, if_true]
    simp only [List.head_cons, List.tail_cons, hc, List.cons_append] at hread ⊢
    simp only [skipSpace_cons hsp, hne, if_false, hread, Option.bind_eq_bind, Option.bind_some]
  | .obj _, 0, _, _, h, _ => by simp [size] at h
  | .obj [], n + 1, r, _, _, _ => by
    simp [render, readValue, skipSpace_cons, isJsonSpace]
  | .obj ((k, v) :: ms), n + 1, r, hv, h, _ => by
    simp only [size] at h
    simp only [FloatFree] at hv
    have hread := readMembers_render ((k, v) :: ms) (by simp) n r hv (by omega)
    simp only [render, renderString, List.cons_append, List.append_assoc, readValue,
      skipSpace_cons (show isJsonSpace '{' = false by decide),
      skipSpace_cons (show isJsonSpace '"' = false by decide), Char.reduceEq, if_false, if_true]
    simp only [List.head_cons, List.tail_cons, renderString, List.cons_append,
      List.append_assoc] at hread
    simp only [hread, Option.bind_eq_bind, Option.bind_some]

theorem readItems_render : ∀ (vs : List Json) (hne : vs ≠ []) (n : Nat) (r : List Char),
    FloatFreeItems vs → sizeItems vs ≤ n →
      readItems n (render (vs.head hne) ++ (renderItems vs.tail ++ r)) = some (vs, r)
  | [], hne, _, _, _, _ => absurd rfl hne
  | _ :: _, _, 0, _, _, h => by simp [sizeItems] at h
  | [v], _, n + 1, r, hv, h => by
    simp only [sizeItems] at h
    have hread := readValue_render v n (renderItems [] ++ r) hv.1 (by omega)
      (stops_renderItems [] r)
    simp only [List.head_cons, List.tail_cons, readItems, hread, Option.bind_eq_bind,
      Option.bind_some]
    simp [renderItems, skipSpace_cons, isJsonSpace]
  | v :: w :: ws, _, n + 1, r, hv, h => by
    simp only [sizeItems] at h
    have hread := readValue_render v n (renderItems (w :: ws) ++ r) hv.1 (by omega)
      (stops_renderItems _ r)
    have hrest := readItems_render (w :: ws) (by simp) n r hv.2 (by simp only [sizeItems]; omega)
    simp only [List.head_cons, List.tail_cons] at hrest
    simp only [List.head_cons, List.tail_cons, readItems, hread, Option.bind_eq_bind,
      Option.bind_some]
    simp only [renderItems, List.cons_append, List.append_assoc,
      skipSpace_cons (show isJsonSpace ',' = false by decide), Char.reduceEq, if_false, if_true,
      hrest, Option.bind_some]

theorem readMembers_render : ∀ (ms : List (String × Json)) (hne : ms ≠ []) (n : Nat)
    (r : List Char), FloatFreeMembers ms → sizeMembers ms ≤ n →
      readMembers n (renderString (ms.head hne).1 ++
        ':' :: (render (ms.head hne).2 ++ (renderMembers ms.tail ++ r))) = some (ms, r)
  | [], hne, _, _, _, _ => absurd rfl hne
  | _ :: _, _, 0, _, _, h => by simp [sizeMembers] at h
  | [(k, v)], _, n + 1, r, hv, h => by
    simp only [sizeMembers] at h
    have hread := readValue_render v n (renderMembers [] ++ r) hv.1 (by omega)
      (stops_renderMembers [] r)
    simp only [List.head_cons, List.tail_cons, renderString, List.cons_append, List.append_assoc,
      List.nil_append, readMembers, skipSpace_cons (show isJsonSpace '"' = false by decide),
      if_true, readString_key, Option.bind_eq_bind, Option.bind_some,
      skipSpace_cons (show isJsonSpace ':' = false by decide), hread]
    simp [renderMembers, skipSpace_cons, isJsonSpace]
  | (k, v) :: (l, w) :: ms, _, n + 1, r, hv, h => by
    simp only [sizeMembers] at h
    have hread := readValue_render v n (renderMembers ((l, w) :: ms) ++ r) hv.1 (by omega)
      (stops_renderMembers _ r)
    have hrest := readMembers_render ((l, w) :: ms) (by simp) n r hv.2
      (by simp only [sizeMembers]; omega)
    simp only [List.head_cons, List.tail_cons] at hrest
    simp only [List.head_cons, List.tail_cons, renderString, List.cons_append, List.append_assoc,
      List.nil_append, readMembers, skipSpace_cons (show isJsonSpace '"' = false by decide),
      if_true, readString_key, Option.bind_eq_bind, Option.bind_some,
      skipSpace_cons (show isJsonSpace ':' = false by decide), hread]
    simp only [renderMembers, renderString, List.cons_append, List.append_assoc, List.nil_append,
      skipSpace_cons (show isJsonSpace ',' = false by decide), Char.reduceEq, if_false, if_true]
      at hrest ⊢
    simp [hrest, String.ofList_toList]
end

/-! ## The text decides the value -/

mutual
theorem size_le_length_render : ∀ v : Json, FloatFree v → size v ≤ (render v).length
  | .null, _ => by simp [size, render]
  | .bool true, _ => by simp [size, render]
  | .bool false, _ => by simp [size, render]
  | .num n, h => by
    obtain ⟨c, cs, hc, -⟩ := render_head (.num n) h
    simp [size, hc]
  | .float _, h => by simp [FloatFree] at h
  | .str _, _ => by simp [size, render, renderString]
  | .arr [], _ => by simp [size, sizeItems, render]
  | .arr (v :: vs), h => by
    have hv := size_le_length_render v h.1
    have hvs := sizeItems_le_length_render vs h.2
    simp only [size, sizeItems, render, List.length_cons, List.length_append]
    omega
  | .obj [], _ => by simp [size, sizeMembers, render]
  | .obj ((k, v) :: ms), h => by
    have hv := size_le_length_render v h.1
    have hms := sizeMembers_le_length_render ms h.2
    simp only [size, sizeMembers, render, List.length_cons, List.length_append]
    omega

theorem sizeItems_le_length_render :
    ∀ vs : List Json, FloatFreeItems vs → sizeItems vs + 1 ≤ (renderItems vs).length
  | [], _ => by simp [sizeItems, renderItems]
  | v :: vs, h => by
    have hv := size_le_length_render v h.1
    have hvs := sizeItems_le_length_render vs h.2
    simp only [sizeItems, renderItems, List.length_cons, List.length_append]
    omega

theorem sizeMembers_le_length_render :
    ∀ ms : List (String × Json), FloatFreeMembers ms →
      sizeMembers ms + 1 ≤ (renderMembers ms).length
  | [], _ => by simp [sizeMembers, renderMembers]
  | (k, v) :: ms, h => by
    have hv := size_le_length_render v h.1
    have hms := sizeMembers_le_length_render ms h.2
    simp only [sizeMembers, renderMembers, List.length_cons, List.length_append]
    omega
end

/-- The reader inverts the compact writer on every value without a floating-point number. -/
theorem parse_text (v : Json) (hv : FloatFree v) : parse v.text = some v := by
  have hfuel := size_le_length_render v hv
  have hread := readValue_render v ((render v).length + 1) [] hv (by omega) stops_nil
  rw [List.append_nil] at hread
  simp only [parse, text, String.toList_ofList, hread, Option.bind_eq_bind, Option.bind_some]
  rfl

theorem text_inj {v w : Json} (hv : FloatFree v) (hw : FloatFree w) (h : v.text = w.text) :
    v = w := by
  have hp := parse_text v hv
  rw [h, parse_text w hw] at hp
  exact (Option.some.inj hp).symm

end Lib.Json
