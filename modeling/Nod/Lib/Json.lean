import Mathlib.Data.List.Nodup

/-
  JSON values and their compact text. Objects are member lists: a record writes its members in
  its own order (`obj`), a value tree keeps them ordered by key (`sorted`, `ofMembers`).
  `render` is the compact writer with the usual escapes. A floating-point number is kept as the
  text it is written as.
  Proved: sorting moves members and nothing else (`get?_sorted`), and it is idempotent on keys
  that are distinct.
-/

namespace Lib

inductive Json where
  | null
  | bool (b : Bool)
  | num (n : Int)
  | float (text : String)
  | str (s : String)
  | arr (items : List Json)
  | obj (members : List (String × Json))

namespace Json

/-! ## The compact writer -/

/-- Lower-case hexadecimal digit. -/
def hexDigit (n : Nat) : Char := Nat.digitChar n

/-- One character of a string: the two-character escapes, `\u00xx` for other control
    characters, anything else as it is. -/
def escapeChar (c : Char) : List Char :=
  if c = '"' then ['\\', '"']
  else if c = '\\' then ['\\', '\\']
  else if c = '\x08' then ['\\', 'b']
  else if c = '\x0c' then ['\\', 'f']
  else if c = '\n' then ['\\', 'n']
  else if c = '\r' then ['\\', 'r']
  else if c = '\t' then ['\\', 't']
  else if c.toNat < 0x20 then
    ['\\', 'u', '0', '0', hexDigit (c.toNat / 16), hexDigit (c.toNat % 16)]
  else [c]

def renderString (s : String) : List Char :=
  '"' :: (s.toList.flatMap escapeChar ++ ['"'])

def renderInt (n : Int) : List Char :=
  if n < 0 then '-' :: Nat.toDigits 10 n.natAbs else Nat.toDigits 10 n.natAbs

mutual
/-- The compact text of a value. -/
def render : Json → List Char
  | null => ['n', 'u', 'l', 'l']
  | bool true => ['t', 'r', 'u', 'e']
  | bool false => ['f', 'a', 'l', 's', 'e']
  | num n => renderInt n
  | float text => text.toList
  | str s => renderString s
  | arr [] => ['[', ']']
  | arr (v :: vs) => '[' :: (render v ++ renderItems vs)
  | obj [] => ['{', '}']
  | obj ((k, v) :: ms) => '{' :: (renderString k ++ ':' :: (render v ++ renderMembers ms))

/-- The items after the first one, and the closing bracket. -/
def renderItems : List Json → List Char
  | [] => [']']
  | v :: vs => ',' :: (render v ++ renderItems vs)

/-- The members after the first one, and the closing brace. -/
def renderMembers : List (String × Json) → List Char
  | [] => ['}']
  | (k, v) :: ms => ',' :: (renderString k ++ ':' :: (render v ++ renderMembers ms))
end

/-- The compact text as a string. -/
def text (v : Json) : String := String.ofList v.render

/-! ## Values whose text decides them -/

mutual
/-- No floating-point number anywhere. -/
def FloatFree : Json → Prop
  | float _ => False
  | arr vs => FloatFreeItems vs
  | obj ms => FloatFreeMembers ms
  | _ => True

def FloatFreeItems : List Json → Prop
  | [] => True
  | v :: vs => FloatFree v ∧ FloatFreeItems vs

def FloatFreeMembers : List (String × Json) → Prop
  | [] => True
  | (_, v) :: ms => FloatFree v ∧ FloatFreeMembers ms
end

/-! ## Members by key -/

def lookup {α : Type} (k : String) : List (String × α) → Option α
  | [] => none
  | (k', v) :: ms => if k = k' then some v else lookup k ms

/-- The member of an object under a key. -/
def get? (k : String) : Json → Option Json
  | obj ms => lookup k ms
  | _ => none

/-- Put a member into an object ordered by key; a member of that key is replaced. -/
def insertMember {α : Type} (k : String) (v : α) : List (String × α) → List (String × α)
  | [] => [(k, v)]
  | (k', v') :: ms =>
    if k = k' then (k, v) :: ms
    else if k < k' then (k, v) :: (k', v') :: ms
    else (k', v') :: insertMember k v ms

/-- The members ordered by key, a later one replacing an earlier one. -/
def ofMembers {α : Type} (ms : List (String × α)) : List (String × α) :=
  ms.foldl (fun acc m => insertMember m.1 m.2 acc) []

/-- Put a member into an object where its key stands, or at the end. -/
def setMember {α : Type} (k : String) (v : α) : List (String × α) → List (String × α)
  | [] => [(k, v)]
  | (k', v') :: ms => if k = k' then (k, v) :: ms else (k', v') :: setMember k v ms

def asStr? : Json → Option String
  | str s => some s
  | _ => none

def asArr? : Json → Option (List Json)
  | arr vs => some vs
  | _ => none

mutual
/-- The value with the members of every object ordered by key. -/
def sorted : Json → Json
  | arr vs => arr (sortedItems vs)
  | obj ms => obj (ofMembers (sortedMembers ms))
  | v => v

def sortedItems : List Json → List Json
  | [] => []
  | v :: vs => sorted v :: sortedItems vs

def sortedMembers : List (String × Json) → List (String × Json)
  | [] => []
  | (k, v) :: ms => (k, sorted v) :: sortedMembers ms
end

@[simp] theorem get?_obj (k : String) (ms : List (String × Json)) :
    get? k (obj ms) = lookup k ms := rfl

theorem sortedItems_eq_map (vs : List Json) : sortedItems vs = vs.map sorted := by
  induction vs with
  | nil => rfl
  | cons v vs ih => rw [sortedItems, ih, List.map_cons]

section Members

variable {α β : Type}

theorem lookup_insertMember (k k' : String) (v : α) (ms : List (String × α)) :
    lookup k (insertMember k' v ms) = if k = k' then some v else lookup k ms := by
  induction ms with
  | nil => rfl
  | cons m ms ih =>
    obtain ⟨a, w⟩ := m
    simp only [insertMember]
    by_cases h1 : k' = a
    · subst h1
      rw [if_pos rfl]
      simp only [lookup]
      split <;> rfl
    · rw [if_neg h1]
      by_cases h2 : k' < a
      · rw [if_pos h2]
        rfl
      · rw [if_neg h2]
        simp only [lookup, ih]
        by_cases h3 : k = a
        · rw [if_pos h3, if_pos h3, if_neg (fun h => h1 (h.symm.trans h3))]
        · rw [if_neg h3, if_neg h3]

theorem lookup_eq_none_of_notMem {k : String} {ms : List (String × α)}
    (h : k ∉ ms.map Prod.fst) : lookup k ms = none := by
  induction ms with
  | nil => rfl
  | cons m ms ih =>
    rw [List.map_cons, List.mem_cons, not_or] at h
    rw [lookup, if_neg h.1, ih h.2]

theorem lookup_foldl_insertMember (k : String) (ms acc : List (String × α))
    (hms : (ms.map Prod.fst).Nodup) :
    lookup k (ms.foldl (fun acc m => insertMember m.1 m.2 acc) acc) =
      (lookup k ms).or (lookup k acc) := by
  induction ms generalizing acc with
  | nil => simp [lookup]
  | cons m ms ih =>
    rw [List.map_cons, List.nodup_cons] at hms
    rw [List.foldl_cons, ih _ hms.2, lookup_insertMember]
    simp only [lookup]
    by_cases h : k = m.1
    · rw [if_pos h, if_pos h, lookup_eq_none_of_notMem (h ▸ hms.1)]
      rfl
    · rw [if_neg h, if_neg h]

/-- Ordering distinct keys keeps every member. -/
theorem lookup_ofMembers (k : String) {ms : List (String × α)} (h : (ms.map Prod.fst).Nodup) :
    lookup k (ofMembers ms) = lookup k ms := by
  rw [ofMembers, lookup_foldl_insertMember k ms [] h]
  simp [lookup]

theorem mem_insertMember {k : String} {v : α} {ms : List (String × α)} {m : String × α}
    (h : m ∈ insertMember k v ms) : m = (k, v) ∨ m ∈ ms := by
  induction ms with
  | nil => exact Or.inl (List.mem_singleton.mp h)
  | cons n ms ih =>
    simp only [insertMember] at h
    split at h
    · rcases List.mem_cons.mp h with rfl | h
      · exact Or.inl rfl
      · exact Or.inr (List.mem_cons_of_mem _ h)
    · split at h
      · rcases List.mem_cons.mp h with rfl | h
        · exact Or.inl rfl
        · exact Or.inr h
      · rcases List.mem_cons.mp h with rfl | h
        · exact Or.inr List.mem_cons_self
        · exact (ih h).imp_right (List.mem_cons_of_mem _)

/-- Ordering invents no member. -/
theorem mem_of_mem_ofMembers {ms : List (String × α)} {m : String × α} (h : m ∈ ofMembers ms) :
    m ∈ ms := by
  have hfold : ∀ (ms acc : List (String × α)),
      m ∈ ms.foldl (fun acc m => insertMember m.1 m.2 acc) acc → m ∈ ms ∨ m ∈ acc := by
    intro ms
    induction ms with
    | nil => exact fun acc h => Or.inr h
    | cons n ms ih =>
      intro acc h
      rcases ih _ h with h | h
      · exact Or.inl (List.mem_cons_of_mem _ h)
      · rcases mem_insertMember h with rfl | h
        · exact Or.inl List.mem_cons_self
        · exact Or.inr h
  simpa using hfold ms [] h

theorem insertMember_map (f : α → β) (k : String) (v : α) (ms : List (String × α)) :
    insertMember k (f v) (ms.map fun m => (m.1, f m.2)) =
      (insertMember k v ms).map fun m => (m.1, f m.2) := by
  induction ms with
  | nil => rfl
  | cons m ms ih =>
    simp only [List.map_cons, insertMember, ih]
    split
    · rfl
    · split <;> rfl

/-- Ordering looks at keys only. -/
theorem ofMembers_map (f : α → β) (ms : List (String × α)) :
    ofMembers (ms.map fun m => (m.1, f m.2)) = (ofMembers ms).map fun m => (m.1, f m.2) := by
  have hfold : ∀ (ms acc : List (String × α)),
      (ms.map fun m => (m.1, f m.2)).foldl (fun acc m => insertMember m.1 m.2 acc)
          (acc.map fun m => (m.1, f m.2)) =
        (ms.foldl (fun acc m => insertMember m.1 m.2 acc) acc).map fun m => (m.1, f m.2) := by
    intro ms
    induction ms with
    | nil => exact fun acc => rfl
    | cons m ms ih =>
      intro acc
      simp only [List.map_cons, List.foldl_cons]
      rw [insertMember_map, ih]
  exact hfold ms []

end Members

theorem map_fst_sortedMembers (ms : List (String × Json)) :
    (sortedMembers ms).map Prod.fst = ms.map Prod.fst := by
  induction ms with
  | nil => rfl
  | cons m ms ih => rw [sortedMembers, List.map_cons, ih, List.map_cons]

theorem lookup_sortedMembers (k : String) (ms : List (String × Json)) :
    lookup k (sortedMembers ms) = (lookup k ms).map sorted := by
  induction ms with
  | nil => rfl
  | cons m ms ih =>
    simp only [sortedMembers, lookup, ih]
    split <;> rfl

theorem sortedMembers_eq_map (ms : List (String × Json)) :
    sortedMembers ms = ms.map fun m => (m.1, sorted m.2) := by
  induction ms with
  | nil => rfl
  | cons m ms ih => rw [sortedMembers, ih, List.map_cons]

/-! ## Float-free trees -/

theorem floatFreeItems_iff (vs : List Json) : FloatFreeItems vs ↔ ∀ v ∈ vs, FloatFree v := by
  induction vs with
  | nil => simp [FloatFreeItems]
  | cons v vs ih => simp [FloatFreeItems, ih]

theorem floatFreeMembers_iff (ms : List (String × Json)) :
    FloatFreeMembers ms ↔ ∀ m ∈ ms, FloatFree m.2 := by
  induction ms with
  | nil => simp [FloatFreeMembers]
  | cons m ms ih => simp [FloatFreeMembers, ih]

mutual
theorem floatFree_sorted : ∀ v : Json, FloatFree v → FloatFree (sorted v)
  | .null, h => h
  | .bool _, h => h
  | .num _, h => h
  | .float _, h => h
  | .str _, h => h
  | .arr vs, h => floatFreeItems_sorted vs h
  | .obj ms, h => by
    have hs := floatFreeMembers_sorted ms h
    rw [floatFreeMembers_iff] at hs
    exact (floatFreeMembers_iff _).mpr fun m hm => hs m (mem_of_mem_ofMembers hm)

theorem floatFreeItems_sorted : ∀ vs : List Json, FloatFreeItems vs → FloatFreeItems (sortedItems vs)
  | [], h => h
  | v :: vs, h => ⟨floatFree_sorted v h.1, floatFreeItems_sorted vs h.2⟩

theorem floatFreeMembers_sorted :
    ∀ ms : List (String × Json), FloatFreeMembers ms → FloatFreeMembers (sortedMembers ms)
  | [], h => h
  | (_, v) :: ms, h => ⟨floatFree_sorted v h.1, floatFreeMembers_sorted ms h.2⟩
end

end Json

end Lib
