import Nod.Lib.JsonValue

/-
  Records read out of JSON values, as a derived reader does it: an object by its keys, an array by
  position, each field once, unknown members ignored or refused.
  Proved: what a reader gives is decided by what stands under the known keys
  (`Shape.Presents`). The order of the members, members of unknown keys and left out fields that
  have their defaults make no difference.
-/

namespace Lib.Record

abbrev Members := List (String × Json)

/-- The fields of a record in declaration order, and whether other members are refused. -/
structure Shape where
  fields : List String
  strict : Bool

namespace Shape

/-- No field is given twice; a strict record has no other members. -/
def Admits (shape : Shape) (ms : Members) : Prop :=
  (∀ k ∈ shape.fields, (ms.map Prod.fst).count k ≤ 1) ∧
    (shape.strict = true → ∀ m ∈ ms, m.1 ∈ shape.fields)

instance (shape : Shape) (ms : Members) : Decidable (shape.Admits ms) :=
  inferInstanceAs (Decidable (_ ∧ _))

/-- The members a record is read from. -/
def members (shape : Shape) : Json → Option Members
  | .obj ms => if shape.Admits ms then some ms else none
  | .arr vs => if vs.length ≤ shape.fields.length then some (shape.fields.zip vs) else none
  | _ => none

end Shape

/-- The members of an object. -/
def objectMembers : Json → Members
  | .obj ms => ms
  | _ => []

section

variable {α : Type}

def required (k : String) (read : Json → Option α) (ms : Members) : Option α :=
  (Json.lookup k ms).bind read

/-- A field that may be left out. -/
def withDefault (default : α) (k : String) (read : Json → Option α) (ms : Members) : Option α :=
  match Json.lookup k ms with
  | some v => read v
  | none => some default

/-- `null` is the absent value. -/
def nullable (read : Json → Option α) : Json → Option (Option α)
  | .null => some none
  | v => (read v).map some

/-- A member that stands there holds a value. -/
def present (read : Json → Option α) (v : Json) : Option (Option α) := (read v).map some

def items (read : Json → Option α) : Json → Option (List α)
  | .arr vs => vs.mapM read
  | _ => none

/-- A case without data: its name, or its name with a `null`. -/
def unitCase (read : String → Option α) : Json → Option α
  | .str s => read s
  | .obj [(s, .null)] => read s
  | _ => none

end

def string : Json → Option String := Json.asStr?

def boolean : Json → Option Bool
  | .bool b => some b
  | _ => none

/-- The name of a case. In a value that has been buffered the position of the case stands for it. -/
def caseName (names : List String) (buffered : Bool) : Json → Option String
  | .str s => if s ∈ names then some s else none
  | .num n => if buffered = true ∧ 0 ≤ n then names[n.toNat]? else none
  | _ => none

/-- A case named by a member of its own record, and the record without that member. -/
def tagged (tag : String) (names : List String) (buffered : Bool) :
    Json → Option (String × Json)
  | .obj ms =>
    match ms.filter fun m => m.1 = tag with
    | [m] => (caseName names buffered m.2).map fun name =>
      (name, .obj (ms.filter fun m => m.1 ≠ tag))
    | _ => none
  | .arr (v :: vs) => (caseName names buffered v).map fun name => (name, .arr vs)
  | _ => none

/-! ## What decides a reader -/

/-- `ns` gives each field what `ms` gives it, or leaves out a field that has its default. -/
structure Shape.Presents (shape : Shape) (defaults ms ns : Members) : Prop where
  admitted : shape.Admits ns
  gives : ∀ k ∈ shape.fields, Json.lookup k ns = Json.lookup k ms ∨
    Json.lookup k ns = none ∧ ∃ d, Json.lookup k ms = some d ∧ Json.lookup k defaults = some d

section

variable {α : Type} {shape : Shape} {defaults ms ns : Members}

theorem Shape.Presents.members_eq (h : shape.Presents defaults ms ns) :
    shape.members (.obj ns) = some ns := if_pos h.admitted

theorem Shape.Presents.required {k : String} {read : Json → Option α} {a : α}
    (h : shape.Presents defaults ms ns) (hgiven : required k read ms = some a)
    (hk : k ∈ shape.fields) (hdefault : Json.lookup k defaults = none) :
    Record.required k read ns = some a := by
  obtain hsame | ⟨-, d, -, hd⟩ := h.gives k hk
  · rw [Record.required, hsame]
    exact hgiven
  · rw [hdefault] at hd
    cases hd

/-- A field that no default stands for is given or absent in both. -/
theorem Shape.Presents.optional {k : String} {read : Json → Option α} {a b : α}
    (h : shape.Presents defaults ms ns) (hgiven : withDefault b k read ms = some a)
    (hk : k ∈ shape.fields) (hdefault : Json.lookup k defaults = none) :
    withDefault b k read ns = some a := by
  obtain hsame | ⟨-, d, -, hd⟩ := h.gives k hk
  · rw [withDefault, hsame]
    exact hgiven
  · rw [hdefault] at hd
    cases hd

theorem Shape.Presents.withDefault {k : String} {read : Json → Option α} {a b : α} {d : Json}
    (h : shape.Presents defaults ms ns) (hgiven : withDefault b k read ms = some a)
    (hk : k ∈ shape.fields) (hdefault : Json.lookup k defaults = some d)
    (hread : read d = some b) : Record.withDefault b k read ns = some a := by
  obtain hsame | ⟨hnone, d', hms, hd'⟩ := h.gives k hk
  · rw [Record.withDefault, hsame]
    exact hgiven
  · have hd : d' = d := Option.some.inj (hd'.symm.trans hdefault)
    rw [Record.withDefault, hms, hd] at hgiven
    rw [Record.withDefault, hnone]
    exact hread.symm.trans hgiven

/-- A record presents itself. -/
theorem Shape.presents_self (h : shape.Admits ms) : shape.Presents defaults ms ms :=
  ⟨h, fun _ _ => Or.inl rfl⟩

theorem lookup_filter {p : String → Bool} {k : String} (hk : p k = true) (ms : Members) :
    Json.lookup k (ms.filter fun m => p m.1) = Json.lookup k ms := by
  induction ms with
  | nil => rfl
  | cons m ms ih =>
    rw [List.filter_cons, Json.lookup]
    by_cases hm : k = m.1
    · rw [if_pos (hm ▸ hk), Json.lookup, if_pos hm, if_pos hm]
    · rw [if_neg hm]
      split
      · rw [Json.lookup, if_neg hm, ih]
      · exact ih

theorem lookup_perm {k : String} (hms : (ms.map Prod.fst).Nodup) (h : ms.Perm ns) :
    Json.lookup k ns = Json.lookup k ms := by
  have hns : (ns.map Prod.fst).Nodup := (h.map Prod.fst).nodup_iff.mp hms
  cases hk : Json.lookup k ms with
  | some v => exact Json.lookup_of_mem hns (h.subset (Json.mem_of_lookup hk))
  | none =>
    by_contra hsome
    obtain ⟨w, hw⟩ := Option.ne_none_iff_exists'.mp hsome
    have hback := Json.lookup_of_mem hms (h.symm.subset (Json.mem_of_lookup hw))
    rw [hk] at hback
    cases hback

/-- The fields that are given, each once. -/
theorem Shape.Admits.nodup (h : shape.Admits ms) :
    ((ms.filter fun m => m.1 ∈ shape.fields).map Prod.fst).Nodup := by
  rw [List.nodup_iff_count_le_one]
  intro k
  by_cases hk : k ∈ shape.fields
  · refine le_trans ?_ (h.1 k hk)
    exact (List.filter_sublist.map Prod.fst).count_le k
  · rw [List.count_eq_zero.mpr]
    · exact Nat.zero_le 1
    · intro hmem
      obtain ⟨m, hm, rfl⟩ := List.mem_map.mp hmem
      exact hk (of_decide_eq_true (List.mem_filter.mp hm).2)

/-- Members in another order, with members of unknown keys between them. -/
theorem Shape.presents_of_perm (hlax : shape.strict = false) (h : shape.Admits ms)
    (hperm : (ms.filter fun m => m.1 ∈ shape.fields).Perm
      (ns.filter fun n => n.1 ∈ shape.fields)) :
    shape.Presents defaults ms ns := by
  have hkeys := (hperm.map Prod.fst).nodup_iff.mp h.nodup
  refine ⟨⟨fun k hk => ?_, fun hstrict => ?_⟩, fun k hk => Or.inl ?_⟩
  · have hcount : (ns.map Prod.fst).count k =
        ((ns.filter fun n => n.1 ∈ shape.fields).map Prod.fst).count k := by
      rw [List.count_eq_countP, List.count_eq_countP, List.countP_map, List.countP_map,
        List.countP_filter]
      refine List.countP_congr fun n _ => ?_
      simp only [Function.comp_apply, beq_iff_eq, Bool.and_eq_true, decide_eq_true_eq]
      exact ⟨fun hn => ⟨hn, hn ▸ hk⟩, And.left⟩
    rw [hcount]
    exact List.nodup_iff_count_le_one.mp hkeys k
  · rw [hlax] at hstrict
    cases hstrict
  · have hgiven := @lookup_filter (fun k => k ∈ shape.fields) k (decide_eq_true hk)
    rw [← hgiven ns, ← hgiven ms]
    exact lookup_perm h.nodup hperm

theorem members_eq_none (hstrict : shape.strict = true) {m : String × Json} (hm : m ∈ ms)
    (hunknown : m.1 ∉ shape.fields) : shape.members (.obj ms) = none :=
  if_neg fun h => hunknown (h.2 hstrict m hm)

theorem items_map {read : Json → Option α} {write : α → Json} {as : List α}
    (h : ∀ a ∈ as, read (write a) = some a) : items read (.arr (as.map write)) = some as := by
  show (as.map write).mapM read = some as
  induction as with
  | nil => rfl
  | cons a as ih =>
    have hrest := ih fun b hb => h b (List.mem_cons_of_mem _ hb)
    rw [List.map_cons, List.mapM_cons, h a List.mem_cons_self, hrest]
    rfl

end

end Lib.Record
