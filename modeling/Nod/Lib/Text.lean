import Mathlib.Algebra.GroupWithZero.Nat
import Mathlib.Data.List.DropRight

/-
  Text as the protocols of this development see it: Unicode `White_Space` and `Cc`, trimming at
  both ends, ASCII hexadecimal, and unique decoding of text cut at a separator.
  Proved: `trim` is idempotent and never lengthens; two texts that start with a separator-free
  field are equal only if the field and the rest are (`append_sep_inj`); the same for a list of
  separator-free fields joined by the separator (`joinOn_inj`), and for such a list around one
  free field, read from both ends (`joinOn_ends_inj`).
-/

namespace Lib.Text

/-! ## Character classes -/

/-- Unicode `White_Space`. -/
def isWhitespace (c : Char) : Bool :=
  let n := c.toNat
  (0x9 ≤ n && n ≤ 0xD) || n == 0x20 || n == 0x85 || n == 0xA0 || n == 0x1680 ||
    (0x2000 ≤ n && n ≤ 0x200A) || n == 0x2028 || n == 0x2029 || n == 0x202F || n == 0x205F ||
    n == 0x3000

/-- Unicode general category `Cc`. -/
def isControl (c : Char) : Bool :=
  c.toNat ≤ 0x1F || (0x7F ≤ c.toNat && c.toNat ≤ 0x9F)

def isAscii (c : Char) : Bool := c.toNat < 0x80

/-- ASCII hexadecimal digits, either case. -/
def isHexDigit (c : Char) : Bool :=
  c.isDigit || ('a' ≤ c && c ≤ 'f') || ('A' ≤ c && c ≤ 'F')

/-- ASCII hexadecimal digits as encoders print them. -/
def isLowerHex (c : Char) : Bool :=
  c.isDigit || ('a' ≤ c && c ≤ 'f')

theorem isHexDigit_of_isLowerHex {c : Char} (h : isLowerHex c = true) : isHexDigit c = true := by
  simp only [isLowerHex, isHexDigit] at *
  rw [h, Bool.true_or]

theorem isControl_newline : isControl '\n' = true := by decide

/-! ## Bytes -/

theorem utf8ByteSize_ofList (cs : List Char) :
    (String.ofList cs).utf8ByteSize = (cs.map Char.utf8Size).sum := by
  induction cs with
  | nil => rfl
  | cons c cs ih =>
    rw [String.ofList_cons, String.utf8ByteSize_append, String.utf8ByteSize_singleton, ih, List.map_cons,
      List.sum_cons]

/-- A text has at most as many characters as bytes. -/
theorem length_le_utf8ByteSize (s : String) : s.toList.length ≤ s.utf8ByteSize := by
  have hle : ∀ cs : List Char, cs.length ≤ (cs.map Char.utf8Size).sum := by
    intro cs
    induction cs with
    | nil => exact Nat.le_refl 0
    | cons c cs ih =>
      have hpos := c.utf8Size_pos
      rw [List.length_cons, List.map_cons, List.sum_cons]
      omega
  have hsize := utf8ByteSize_ofList s.toList
  rw [String.ofList_toList] at hsize
  exact hsize ▸ hle s.toList

theorem utf8Size_of_ascii {c : Char} (h : isAscii c = true) : c.utf8Size = 1 := by
  simp only [isAscii, decide_eq_true_eq] at h
  rw [Char.utf8Size_eq_one_iff, UInt32.le_iff_toNat_le]
  exact Nat.le_of_lt_succ h

/-- ASCII text has a byte for each character. -/
theorem utf8ByteSize_of_ascii {s : String} (h : ∀ c ∈ s.toList, isAscii c = true) :
    s.utf8ByteSize = s.toList.length := by
  have hsum : ∀ cs : List Char, (∀ c ∈ cs, isAscii c = true) →
      (cs.map Char.utf8Size).sum = cs.length := by
    intro cs hcs
    induction cs with
    | nil => rfl
    | cons c cs ih =>
      rw [List.map_cons, List.sum_cons, utf8Size_of_ascii (hcs c List.mem_cons_self),
        ih fun d hd => hcs d (List.mem_cons_of_mem _ hd), List.length_cons]
      omega
  have := utf8ByteSize_ofList s.toList
  rwa [String.ofList_toList, hsum _ h] at this

theorem isAscii_of_isLowerHex {c : Char} (h : isLowerHex c = true) : isAscii c = true := by
  simp only [isLowerHex, Char.isDigit, Bool.or_eq_true, Bool.and_eq_true, decide_eq_true_eq,
    isAscii, ge_iff_le, UInt32.le_iff_toNat_le, Char.le_def] at *
  have h0 : c.toNat = c.val.toNat := rfl
  have h1 : '9'.val.toNat = 57 := rfl
  have h2 : 'f'.val.toNat = 102 := rfl
  have h3 : (57 : UInt32).toNat = 57 := rfl
  rcases h with h | h <;> omega

theorem toList_byteArray (b : ByteArray) : b.toList = b.data.toList := by
  have hloop : ∀ n i r, b.size - i = n → i ≤ b.size →
      ByteArray.toList.loop b i r = r.reverse ++ b.data.toList.drop i := by
    intro n
    induction n with
    | zero =>
      intro i r hn hi
      have hdrop : b.data.toList.drop i = [] := List.drop_eq_nil_of_le (by
        rw [Array.length_toList]
        exact Nat.sub_eq_zero_iff_le.mp hn)
      rw [ByteArray.toList.loop, if_neg (by omega), hdrop, List.append_nil]
    | succ n ih =>
      intro i r hn hi
      have hlt : i < b.size := by omega
      have hdata : i < b.data.toList.length := by
        rw [Array.length_toList]
        exact hlt
      rw [ByteArray.toList.loop, if_pos hlt, ih (i + 1) _ (by omega) (by omega), List.reverse_cons,
        List.append_assoc, List.drop_eq_getElem_cons hdata]
      have hget : b.get! i = b.data.toList[i] := getElem!_pos b.data i hlt
      rw [hget]
      rfl
  exact hloop _ 0 [] rfl (Nat.zero_le _)

theorem length_toUTF8 (s : String) : s.toUTF8.toList.length = s.utf8ByteSize := by
  rw [toList_byteArray, Array.length_toList]
  rfl

/-- The one byte of an ASCII character. -/
def byteOf (c : Char) : UInt8 := c.val.toUInt8

theorem toList_toUTF8 (s : String) :
    s.toUTF8.data.toList = s.toList.flatMap String.utf8EncodeChar := by
  rw [String.toUTF8_eq_toByteArray, ← String.utf8Encode_toList]
  exact List.toList_data_toByteArray

theorem toUTF8_ascii {s : String} (h : ∀ c ∈ s.toList, isAscii c = true) :
    s.toUTF8.data.toList = s.toList.map byteOf := by
  rw [toList_toUTF8, List.flatMap_congr fun c hc =>
    String.utf8EncodeChar_eq_singleton (utf8Size_of_ascii (h c hc)), List.map_eq_flatMap]
  rfl

/-- The bytes of a character that is not ASCII start above it. -/
theorem exists_high_byte {c : Char} (h : c.utf8Size ≠ 1) :
    ∃ b ∈ String.utf8EncodeChar c, 128 ≤ b.toNat := by
  have hor : ∀ (x m : UInt8), 128 ≤ m.toNat → 128 ≤ (x ||| m).toNat := by
    intro x m hm
    rw [UInt8.toNat_or]
    exact hm.trans Nat.right_le_or
  rcases Char.utf8Size_eq c with h1 | h2 | h3 | h4
  · exact absurd h1 h
  · rw [String.utf8EncodeChar_eq_cons_cons h2]
    exact ⟨_, List.mem_cons_self, hor _ _ (by decide)⟩
  · rw [String.utf8EncodeChar_eq_cons_cons_cons h3]
    exact ⟨_, List.mem_cons_self, hor _ _ (by decide)⟩
  · rw [String.utf8EncodeChar_eq_cons_cons_cons_cons h4]
    exact ⟨_, List.mem_cons_self, hor _ _ (by decide)⟩

theorem isAscii_of_utf8Size {c : Char} (h : c.utf8Size = 1) : isAscii c = true := by
  rw [Char.utf8Size_eq_one_iff, UInt32.le_iff_toNat_le] at h
  exact decide_eq_true (Nat.lt_succ_of_le h)

theorem byteOf_inj {c d : Char} (hc : isAscii c = true) (hd : isAscii d = true)
    (h : byteOf c = byteOf d) : c = d := by
  simp only [isAscii, decide_eq_true_eq] at hc hd
  have hval := congrArg UInt8.toNat h
  rw [byteOf, byteOf, UInt32.toNat_toUInt8, UInt32.toNat_toUInt8] at hval
  have hcn : c.toNat = c.val.toNat := rfl
  have hdn : d.toNat = d.val.toNat := rfl
  exact Char.toNat_inj.mp (by omega)

theorem map_byteOf_inj {cs ds : List Char} (hcs : ∀ c ∈ cs, isAscii c = true)
    (hds : ∀ d ∈ ds, isAscii d = true) (h : cs.map byteOf = ds.map byteOf) : cs = ds := by
  induction cs generalizing ds with
  | nil => exact (List.map_eq_nil_iff.mp h.symm).symm
  | cons c cs ih =>
    cases ds with
    | nil => cases h
    | cons d ds =>
      obtain ⟨hhead, htail⟩ := List.cons.inj h
      rw [byteOf_inj (hcs c List.mem_cons_self) (hds d List.mem_cons_self) hhead,
        ih (fun e he => hcs e (List.mem_cons_of_mem _ he))
          (fun e he => hds e (List.mem_cons_of_mem _ he)) htail]

/-- A text has the bytes of an ASCII text only when it is that text. -/
theorem toUTF8_eq_ascii {s : String} {cs : List Char} (h : ∀ c ∈ cs, isAscii c = true) :
    s.toUTF8.data.toList = cs.map byteOf ↔ s.toList = cs := by
  constructor
  · intro hbytes
    have hs : ∀ c ∈ s.toList, isAscii c = true := by
      intro c hc
      refine isAscii_of_utf8Size (by_contra fun hsize => ?_)
      obtain ⟨b, hb, hhigh⟩ := exists_high_byte hsize
      have hmem : b ∈ s.toUTF8.data.toList := by
        rw [toList_toUTF8]
        exact List.mem_flatMap.mpr ⟨c, hc, hb⟩
      rw [hbytes] at hmem
      obtain ⟨d, hd, rfl⟩ := List.mem_map.mp hmem
      have hascii := h d hd
      simp only [isAscii, decide_eq_true_eq] at hascii
      rw [byteOf, UInt32.toNat_toUInt8] at hhigh
      have hdn : d.toNat = d.val.toNat := rfl
      omega
    rw [toUTF8_ascii hs] at hbytes
    exact map_byteOf_inj hs h hbytes
  · intro hlist
    rw [toUTF8_ascii (hlist ▸ h), hlist]

/-! ## Trimming -/

def trimChars (cs : List Char) : List Char :=
  (cs.dropWhile isWhitespace).rdropWhile isWhitespace

/-- Strip white space at both ends. -/
def trim (s : String) : String := String.ofList (trimChars s.toList)

@[simp] theorem toList_trim (s : String) : (trim s).toList = trimChars s.toList := by
  simp [trim]

/-- Dropping from the right leaves the head of a list that starts outside `p` in place. -/
theorem dropWhile_rdropWhile_dropWhile {α : Type} (p : α → Bool) (l : List α) :
    ((l.dropWhile p).rdropWhile p).dropWhile p = (l.dropWhile p).rdropWhile p := by
  rw [List.dropWhile_eq_self_iff]
  intro hl
  have hpre := List.rdropWhile_prefix p (l.dropWhile p)
  have hne : 0 < (l.dropWhile p).length := lt_of_lt_of_le hl hpre.length_le
  have hget : ((l.dropWhile p).rdropWhile p)[0] = (l.dropWhile p)[0] := by
    rw [List.prefix_iff_getElem] at hpre
    exact hpre.2 0 hl
  rw [hget]
  exact List.dropWhile_get_zero_not p l hne

theorem trimChars_trimChars (cs : List Char) : trimChars (trimChars cs) = trimChars cs := by
  unfold trimChars
  rw [dropWhile_rdropWhile_dropWhile, List.rdropWhile_idempotent]

@[simp] theorem trim_trim (s : String) : trim (trim s) = trim s := by
  simp [trim, trimChars_trimChars]

/-- What is left to trim: nothing, once the ends are no white space. -/
theorem trim_eq_self_iff (s : String) : trim s = s ↔ trimChars s.toList = s.toList := by
  rw [← String.toList_inj, toList_trim]

/-- A text without white space is its own trim. -/
theorem trim_of_not_whitespace {s : String} (h : ∀ c ∈ s.toList, isWhitespace c = false) :
    trim s = s := by
  have hleft : s.toList.dropWhile isWhitespace = s.toList := by
    rw [List.dropWhile_eq_self_iff]
    intro hl
    rw [h _ (List.getElem_mem hl)]
    exact Bool.false_ne_true
  have hright : s.toList.rdropWhile isWhitespace = s.toList := by
    rw [List.rdropWhile_eq_self_iff]
    intro hl
    rw [h _ (List.getLast_mem hl)]
    exact Bool.false_ne_true
  rw [trim_eq_self_iff, trimChars, hleft, hright]

/-! ## Unique decoding -/

/-- A text without `sep`. -/
def Free (sep : Char) (s : String) : Prop := sep ∉ s.toList

instance (sep : Char) (s : String) : Decidable (Free sep s) :=
  inferInstanceAs (Decidable (sep ∉ s.toList))

theorem free_append {sep : Char} {s t : String} :
    Free sep (s ++ t) ↔ Free sep s ∧ Free sep t := by
  simp [Free, not_or]

/-- A text of control characters' complement has no separator that is a control character. -/
theorem free_of_all {sep : Char} {s : String} {p : Char → Bool}
    (h : ∀ c ∈ s.toList, p c = true) (hsep : p sep = false) : Free sep s := by
  intro hmem
  have := h sep hmem
  rw [hsep] at this
  exact Bool.false_ne_true this

theorem append_cons_inj_of_free {sep : Char} (a b : List Char) (x y : List Char)
    (ha : sep ∉ a) (hb : sep ∉ b) (h : a ++ sep :: x = b ++ sep :: y) : a = b ∧ x = y := by
  induction a generalizing b with
  | nil =>
    cases b with
    | nil => exact ⟨rfl, List.tail_eq_of_cons_eq h⟩
    | cons d b => exact absurd (List.head_eq_of_cons_eq h ▸ List.mem_cons_self) hb
  | cons c a ih =>
    cases b with
    | nil => exact absurd (List.head_eq_of_cons_eq h ▸ List.mem_cons_self) ha
    | cons d b =>
      obtain ⟨rfl, ht⟩ := List.cons_eq_cons.mp h
      obtain ⟨rfl, hxy⟩ := ih b (fun hc => ha (List.mem_cons_of_mem _ hc))
        (fun hd => hb (List.mem_cons_of_mem _ hd)) ht
      exact ⟨rfl, hxy⟩

/-- A separator-free field and what follows it are read off uniquely. -/
theorem append_sep_inj {sep : Char} {a b x y : String} (ha : Free sep a) (hb : Free sep b)
    (h : a ++ String.singleton sep ++ x = b ++ String.singleton sep ++ y) : a = b ∧ x = y := by
  have hl := congrArg String.toList h
  simp only [String.toList_append, String.toList_singleton, List.append_assoc,
    List.singleton_append] at hl
  obtain ⟨h1, h2⟩ := append_cons_inj_of_free _ _ _ _ ha hb hl
  exact ⟨String.toList_inj.mp h1, String.toList_inj.mp h2⟩

/-- A nonempty list of separator-free fields is read off its joined text. -/
theorem joinOn_inj {sep : Char} {l m : List String} (hl : ∀ s ∈ l, Free sep s)
    (hm : ∀ s ∈ m, Free sep s) (hl0 : l ≠ []) (hm0 : m ≠ [])
    (h : (String.singleton sep).intercalate l = (String.singleton sep).intercalate m) :
    l = m := by
  have ht := congrArg (fun s => s.toList.splitOn sep) h
  simp only [String.toList_intercalate, String.toList_singleton] at ht
  rw [List.splitOn_intercalate _ (by simpa [Free] using hl) (by simpa using hl0),
    List.splitOn_intercalate _ (by simpa [Free] using hm) (by simpa using hm0)] at ht
  exact List.map_injective_iff.mpr (fun _ _ => String.toList_inj.mp) ht

/-- Cutting a joined text at the separator cuts its parts. -/
theorem splitOn_joinOn {sep : Char} {l : List String} (hl : l ≠ []) :
    ((String.singleton sep).intercalate l).toList.splitOn sep =
      l.flatMap fun s => s.toList.splitOn sep := by
  induction l with
  | nil => exact absurd rfl hl
  | cons s l ih =>
    by_cases hrest : l = []
    · subst hrest
      rw [String.intercalate_singleton, List.flatMap_singleton]
    · rw [String.intercalate_cons_of_ne_nil hrest, String.toList_append, String.toList_append,
        String.toList_singleton, List.append_assoc, List.singleton_append,
        List.splitOn_append_cons_self, ih hrest, List.flatMap_cons]

theorem flatMap_splitOn_of_free {sep : Char} {l : List String} (hl : ∀ s ∈ l, Free sep s) :
    (l.flatMap fun s => s.toList.splitOn sep) = l.map String.toList := by
  rw [List.map_eq_flatMap]
  refine List.flatMap_congr fun s hs => ?_
  have hfree : ∀ cs ∈ [s.toList], sep ∉ cs := by
    intro cs hcs
    rw [List.mem_singleton.mp hcs]
    exact hl s hs
  have hsplit := List.splitOn_intercalate sep hfree (List.cons_ne_nil _ _)
  rwa [List.intercalate_singleton] at hsplit

/-- A joined text is read from both ends: between separator-free fields, as many before and as many
    after, one field may hold the separator. -/
theorem joinOn_ends_inj {sep : Char} {l l' r r' : List String} {x x' : String}
    (hl : ∀ s ∈ l, Free sep s) (hl' : ∀ s ∈ l', Free sep s) (hr : ∀ s ∈ r, Free sep s)
    (hr' : ∀ s ∈ r', Free sep s) (hbefore : l.length = l'.length)
    (hafter : r.length = r'.length)
    (h : (String.singleton sep).intercalate (l ++ x :: r) =
      (String.singleton sep).intercalate (l' ++ x' :: r')) : l = l' ∧ x = x' ∧ r = r' := by
  have hmap : Function.Injective (List.map String.toList) :=
    List.map_injective_iff.mpr fun _ _ => String.toList_inj.mp
  have hne : ∀ (a b : List String) (y : String), a ++ y :: b ≠ [] := by
    intro a b y
    exact List.append_ne_nil_of_right_ne_nil a (List.cons_ne_nil y b)
  have hsplit := congrArg (fun s => s.toList.splitOn sep) h
  simp only [splitOn_joinOn (hne _ _ _), List.flatMap_append, List.flatMap_cons,
    flatMap_splitOn_of_free hl, flatMap_splitOn_of_free hl', flatMap_splitOn_of_free hr,
    flatMap_splitOn_of_free hr'] at hsplit
  obtain ⟨hfront, hrest⟩ := List.append_inj hsplit (by
    rw [List.length_map, List.length_map, hbefore])
  obtain ⟨hmiddle, hback⟩ := List.append_inj' hrest (by
    rw [List.length_map, List.length_map, hafter])
  have hx := congrArg (fun parts => [sep].intercalate parts) hmiddle
  simp only [List.intercalate_splitOn] at hx
  exact ⟨hmap hfront, String.toList_inj.mp hx, hmap hback⟩

end Lib.Text
