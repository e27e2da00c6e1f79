import Mathlib.Data.List.DropRight

/-
  Paths of http and https addresses under the rules of the URL standard: tabs and line breaks are
  dropped, the text is cut at `/` and `\`, every piece is percent-encoded, and the dot segments
  (`.`, `..` and their encoded spellings) are walked away.
  Proved: segments written behind a path that was read once are read back behind it, with only the
  new ones walked (`parse_serialize_append`); a path written out and read again is itself
  (`parse_serialize`); a reader that cuts at `/` alone finds the segments (`cut_serialize`), and
  trailing slashes are trailing empty segments (`trimEnd_serialize`).
-/

namespace Lib.UrlPath

abbrev Segment := List Char

/-! ## Percent-encoding -/

/-- Characters that every path keeps: letters, digits, `-`, `_`, `.` and `%`. -/
def isPlain (c : Char) : Bool := c.isAlphanum || c == '-' || c == '_' || c == '.' || c == '%'

/-- The characters a path percent-encodes. -/
structure EncodeSet where
  encodes : Char → Bool
  plain : ∀ c, isPlain c = true → encodes c = false

def hexDigit (n : Nat) : Char := if n < 10 then Char.ofNat (48 + n) else Char.ofNat (55 + n)

def percentByte (b : UInt8) : List Char := ['%', hexDigit (b.toNat / 16), hexDigit (b.toNat % 16)]

def encodeChar (E : EncodeSet) (c : Char) : List Char :=
  if E.encodes c then (String.utf8EncodeChar c).flatMap percentByte else [c]

def encode (E : EncodeSet) (segment : Segment) : Segment := segment.flatMap (encodeChar E)

/-! ## Reading and writing -/

def isSeparator (c : Char) : Bool := c == '/' || c == '\\'

/-- ASCII tab and line breaks: dropped before anything is read. -/
def isDropped (c : Char) : Bool := c == '\t' || c == '\n' || c == '\r'

def isSingleDot (segment : Segment) : Bool :=
  segment ∈ [".".toList, "%2e".toList, "%2E".toList]

def isDoubleDot (segment : Segment) : Bool :=
  segment ∈ ["..".toList, ".%2e".toList, ".%2E".toList, "%2e.".toList, "%2E.".toList,
    "%2e%2e".toList, "%2e%2E".toList, "%2E%2e".toList, "%2E%2E".toList]

/-- The path state: the last segment leaves an empty one behind where it is a dot segment. -/
def walk (path : List Segment) : List Segment → List Segment
  | [] => path
  | [segment] =>
    if isDoubleDot segment then path.dropLast ++ [[]]
    else if isSingleDot segment then path ++ [[]]
    else path ++ [segment]
  | segment :: next :: rest =>
    if isDoubleDot segment then walk path.dropLast (next :: rest)
    else if isSingleDot segment then walk path (next :: rest)
    else walk (path ++ [segment]) (next :: rest)

def dropRoot : List Char → List Char
  | [] => []
  | c :: cs => if isSeparator c then cs else c :: cs

def parse (E : EncodeSet) (input : List Char) : List Segment :=
  walk [] (((dropRoot (input.filter fun c => !isDropped c)).splitOnP isSeparator).map (encode E))

def serialize (path : List Segment) : List Char := path.flatMap ('/' :: ·)

@[simp] theorem serialize_nil : serialize [] = [] := rfl

@[simp] theorem serialize_cons (segment : Segment) (path : List Segment) :
    serialize (segment :: path) = '/' :: (segment ++ serialize path) := rfl

@[simp] theorem serialize_append (path more : List Segment) :
    serialize (path ++ more) = serialize path ++ serialize more := List.flatMap_append

/-! ## Segments that are read as they are written -/

/-- No character of the segment is encoded, dropped or cut at. -/
def Settled (E : EncodeSet) (segment : Segment) : Prop :=
  ∀ c ∈ segment, E.encodes c = false ∧ isSeparator c = false ∧ isDropped c = false

def isDot (segment : Segment) : Bool := isSingleDot segment || isDoubleDot segment

variable {E : EncodeSet}

theorem settled_nil : Settled E [] := fun _ h => (nomatch h)

theorem isDot_nil : isDot [] = false := by decide

theorem not_dots {segment : Segment} (h : isDot segment = false) :
    isSingleDot segment = false ∧ isDoubleDot segment = false := by
  simpa only [isDot, Bool.or_eq_false_iff] using h

/-- A dot segment is `.`, `..` or spelled with a percent sign. -/
theorem dot_cases {segment : Segment} (h : isDot segment = true) :
    segment = ".".toList ∨ segment = "..".toList ∨ '%' ∈ segment := by
  rcases (Bool.or_eq_true _ _).mp h with hsingle | hdouble
  · have hspelled : ∀ s ∈ [".".toList, "%2e".toList, "%2E".toList],
        s = ".".toList ∨ s = "..".toList ∨ '%' ∈ s := by decide
    exact hspelled segment (of_decide_eq_true hsingle)
  · have hspelled : ∀ s ∈ ["..".toList, ".%2e".toList, ".%2E".toList, "%2e.".toList, "%2E.".toList,
        "%2e%2e".toList, "%2e%2E".toList, "%2E%2e".toList, "%2E%2E".toList],
        s = ".".toList ∨ s = "..".toList ∨ '%' ∈ s := by decide
    exact hspelled segment (of_decide_eq_true hdouble)

theorem plain_settled {c : Char} (h : isPlain c = true) :
    E.encodes c = false ∧ isSeparator c = false ∧ isDropped c = false := by
  have hkept : ∀ d : Char, isPlain d = false → c ≠ d := by
    intro d hd hcd
    rw [hcd, hd] at h
    cases h
  refine ⟨E.plain c h, ?_, ?_⟩
  · simp only [isSeparator, Bool.or_eq_false_iff, beq_eq_false_iff_ne]
    exact ⟨hkept '/' (by decide), hkept '\\' (by decide)⟩
  · simp only [isDropped, Bool.or_eq_false_iff, beq_eq_false_iff_ne]
    exact ⟨⟨hkept '\t' (by decide), hkept '\n' (by decide)⟩, hkept '\r' (by decide)⟩

theorem settled_of_plain {segment : Segment} (h : ∀ c ∈ segment, isPlain c = true) :
    Settled E segment := fun c hc => plain_settled (h c hc)

theorem isPlain_hexDigit : ∀ n < 16, isPlain (hexDigit n) = true := by decide

theorem isPlain_percentByte (b : UInt8) : ∀ c ∈ percentByte b, isPlain c = true := by
  have hb : b.toNat < 256 := b.toNat_lt
  intro c hc
  simp only [percentByte, List.mem_cons, List.not_mem_nil, or_false] at hc
  rcases hc with rfl | rfl | rfl
  · decide
  · exact isPlain_hexDigit _ (by omega)
  · exact isPlain_hexDigit _ (by omega)

theorem settled_encode {segment : Segment}
    (h : ∀ c ∈ segment, isSeparator c = false ∧ isDropped c = false) :
    Settled E (encode E segment) := by
  intro d hd
  obtain ⟨c, hc, hd⟩ := List.mem_flatMap.mp hd
  unfold encodeChar at hd
  split at hd
  · obtain ⟨b, -, hd⟩ := List.mem_flatMap.mp hd
    exact plain_settled (isPlain_percentByte b d hd)
  · rename_i hplain
    rw [List.mem_singleton] at hd
    rw [hd]
    exact ⟨by simpa using hplain, h c hc⟩

theorem encode_settled {segment : Segment} (h : Settled E segment) : encode E segment = segment := by
  have hchar : ∀ c ∈ segment, encodeChar E c = [c] := by
    intro c hc
    unfold encodeChar
    rw [(h c hc).1]
    rfl
  unfold encode
  rw [List.flatMap_congr hchar, List.flatMap_singleton']

/-! ## Walking -/

theorem walk_cons_plain {segment : Segment} (h : isDot segment = false) (path rest : List Segment) :
    walk path (segment :: rest) = walk (path ++ [segment]) rest := by
  obtain ⟨hsingle, hdouble⟩ := not_dots h
  cases rest with
  | nil => simp only [walk, hsingle, hdouble, Bool.false_eq_true, if_false]
  | cons next rest => simp only [walk, hsingle, hdouble, Bool.false_eq_true, if_false]

/-- Segments that are no dots are gone through one by one. -/
theorem walk_append {segments : List Segment} (h : ∀ segment ∈ segments, isDot segment = false)
    (path more : List Segment) : walk path (segments ++ more) = walk (path ++ segments) more := by
  induction segments generalizing path with
  | nil => rw [List.nil_append, List.append_nil]
  | cons segment segments ih =>
    rw [List.cons_append, walk_cons_plain (h segment List.mem_cons_self),
      ih (fun s hs => h s (List.mem_cons_of_mem _ hs)), List.append_assoc, List.singleton_append]

theorem walk_plain {segments : List Segment} (h : ∀ segment ∈ segments, isDot segment = false)
    (path : List Segment) : walk path segments = path ++ segments := by
  have := walk_append h path []
  rwa [List.append_nil] at this

/-- What every segment of a path that was read satisfies. -/
def Read (E : EncodeSet) (path : List Segment) : Prop :=
  ∀ segment ∈ path, Settled E segment ∧ isDot segment = false

theorem read_append {path more : List Segment} (h : Read E path) (k : Read E more) :
    Read E (path ++ more) := by
  intro segment hsegment
  rcases List.mem_append.mp hsegment with hs | hs
  · exact h segment hs
  · exact k segment hs

theorem read_singleton {segment : Segment} (hsettled : Settled E segment)
    (hdot : isDot segment = false) : Read E [segment] := by
  intro s hs
  rw [List.mem_singleton.mp hs]
  exact ⟨hsettled, hdot⟩

theorem Read.dropLast {path : List Segment} (h : Read E path) : Read E path.dropLast :=
  fun segment hs => h segment (List.dropLast_subset _ hs)

theorem read_walk {path segments : List Segment} (hpath : Read E path)
    (hsegments : ∀ segment ∈ segments, Settled E segment) : Read E (walk path segments) := by
  have hempty : Read E [[]] := read_singleton settled_nil isDot_nil
  fun_induction walk path segments with
  | case1 => exact hpath
  | case2 path segment hdouble => exact read_append hpath.dropLast hempty
  | case3 path segment hdouble hsingle => exact read_append hpath hempty
  | case4 path segment hdouble hsingle =>
    exact read_append hpath (read_singleton (hsegments segment List.mem_cons_self)
      (by simp only [isDot, hsingle, hdouble, Bool.or_false]))
  | case5 path segment next rest hdouble ih =>
    exact ih hpath.dropLast fun s hs => hsegments s (List.mem_cons_of_mem _ hs)
  | case6 path segment next rest hdouble hsingle ih =>
    exact ih hpath fun s hs => hsegments s (List.mem_cons_of_mem _ hs)
  | case7 path segment next rest hdouble hsingle ih =>
    refine ih (read_append hpath (read_singleton (hsegments segment List.mem_cons_self) ?_))
      fun s hs => hsegments s (List.mem_cons_of_mem _ hs)
    simp only [isDot, hsingle, hdouble, Bool.or_false]

theorem walk_ne_nil {segments : List Segment} (h : segments ≠ []) (path : List Segment) :
    walk path segments ≠ [] := by
  fun_induction walk path segments with
  | case1 => exact absurd rfl h
  | case2 | case3 | case4 => exact List.append_ne_nil_of_right_ne_nil _ (List.cons_ne_nil _ _)
  | case5 _ _ _ _ _ ih => exact ih (List.cons_ne_nil _ _)
  | case6 _ _ _ _ _ _ ih => exact ih (List.cons_ne_nil _ _)
  | case7 _ _ _ _ _ _ ih => exact ih (List.cons_ne_nil _ _)

/-- Dots that step back no further than the path leave what stands before it alone. -/
theorem walk_base {base path segments : List Segment}
    (h : segments.countP isDoubleDot ≤ path.length) :
    walk (base ++ path) segments = base ++ walk path segments := by
  have hback : ∀ path : List Segment, 1 ≤ path.length →
      (base ++ path).dropLast = base ++ path.dropLast := fun path hpath =>
    List.dropLast_append_of_ne_nil (List.ne_nil_of_length_pos hpath)
  fun_induction walk path segments with
  | case1 => rfl
  | case2 path segment hdouble =>
    rw [List.countP_cons_of_pos hdouble] at h
    rw [walk, if_pos hdouble, hback path (by omega), List.append_assoc]
  | case3 path segment hdouble hsingle =>
    rw [walk, if_neg hdouble, if_pos hsingle, List.append_assoc]
  | case4 path segment hdouble hsingle =>
    rw [walk, if_neg hdouble, if_neg hsingle, List.append_assoc]
  | case5 path segment next rest hdouble ih =>
    rw [List.countP_cons_of_pos hdouble] at h
    rw [walk, if_pos hdouble, hback path (by omega), ih (by rw [List.length_dropLast]; omega)]
  | case6 path segment next rest hdouble hsingle ih =>
    rw [List.countP_cons_of_neg hdouble] at h
    rw [walk, if_neg hdouble, if_pos hsingle, ih h]
  | case7 path segment next rest hdouble hsingle ih =>
    rw [List.countP_cons_of_neg hdouble] at h
    rw [walk, if_neg hdouble, if_neg hsingle, List.append_assoc,
      ih (by rw [List.length_append]; omega)]

theorem length_walk_le (path segments : List Segment) :
    (walk path segments).length ≤ path.length + segments.length := by
  fun_induction walk path segments with
  | case1 => exact Nat.le_refl _
  | case2 | case3 | case4 =>
    simp only [List.length_append, List.length_dropLast, List.length_cons, List.length_nil]
    omega
  | case5 _ _ _ _ _ ih | case6 _ _ _ _ _ _ ih | case7 _ _ _ _ _ _ ih =>
    simp only [List.length_append, List.length_dropLast, List.length_cons, List.length_nil] at *
    omega

/-- Where no segment was lost and the last is not empty, no dot was walked. -/
theorem not_dot_of_walk {path segments : List Segment}
    (hlength : (walk path segments).length = path.length + segments.length)
    (hlast : (walk path segments).getLast? ≠ some []) :
    ∀ segment ∈ segments, isDot segment = false := by
  fun_induction walk path segments with
  | case1 => exact fun _ h => (nomatch h)
  | case2 | case3 => exact absurd List.getLast?_concat hlast
  | case4 path segment hdouble hsingle =>
    intro s hs
    rw [List.mem_singleton.mp hs, isDot, Bool.or_eq_false_iff]
    exact ⟨by simpa using hsingle, by simpa using hdouble⟩
  | case5 path segment next rest hdouble ih =>
    have hle := length_walk_le path.dropLast (next :: rest)
    rw [List.length_dropLast] at hle
    simp only [List.length_cons] at *
    omega
  | case6 path segment next rest hdouble hsingle ih =>
    have hle := length_walk_le path (next :: rest)
    simp only [List.length_cons] at *
    omega
  | case7 path segment next rest hdouble hsingle ih =>
    intro s hs
    rcases List.mem_cons.mp hs with rfl | hs
    · rw [isDot, Bool.or_eq_false_iff]
      exact ⟨by simpa using hsingle, by simpa using hdouble⟩
    · refine ih ?_ hlast s hs
      rw [List.length_append]
      simp only [List.length_cons, List.length_nil] at *
      omega

/-! ## A path that was read -/

theorem mem_splitOnP {p : Char → Bool} {cs piece : List Char} (hpiece : piece ∈ cs.splitOnP p) :
    ∀ c ∈ piece, p c = false ∧ c ∈ cs := by
  induction cs generalizing piece with
  | nil =>
    rw [List.splitOnP_nil, List.mem_singleton] at hpiece
    rw [hpiece]
    exact fun _ h => (nomatch h)
  | cons d cs ih =>
    rw [List.splitOnP_cons_eq_if_modifyHead] at hpiece
    cases hd : p d with
    | true =>
      rw [hd, if_pos rfl, List.mem_cons] at hpiece
      rcases hpiece with rfl | hpiece
      · exact fun _ h => (nomatch h)
      · exact fun c hc => ⟨(ih hpiece c hc).1, List.mem_cons_of_mem _ (ih hpiece c hc).2⟩
    | false =>
      rw [hd, if_neg Bool.false_ne_true] at hpiece
      cases hsplit : cs.splitOnP p with
      | nil => exact absurd hsplit (List.splitOnP_ne_nil _ _)
      | cons first rest =>
        rw [hsplit, List.modifyHead_cons, List.mem_cons] at hpiece
        have hrest : ∀ x ∈ first :: rest, ∀ c ∈ x, p c = false ∧ c ∈ d :: cs := by
          intro x hx c hc
          rw [← hsplit] at hx
          exact ⟨(ih hx c hc).1, List.mem_cons_of_mem _ (ih hx c hc).2⟩
        rcases hpiece with rfl | hpiece
        · intro c hc
          rcases List.mem_cons.mp hc with rfl | hc
          · exact ⟨hd, List.mem_cons_self⟩
          · exact hrest first List.mem_cons_self c hc
        · exact hrest piece (List.mem_cons_of_mem _ hpiece)

theorem mem_dropRoot {cs : List Char} {c : Char} (h : c ∈ dropRoot cs) : c ∈ cs := by
  cases cs with
  | nil => exact h
  | cons d cs =>
    cases hd : isSeparator d with
    | true =>
      rw [dropRoot, if_pos hd] at h
      exact List.mem_cons_of_mem _ h
    | false =>
      rw [dropRoot, if_neg (by rw [hd]; exact Bool.false_ne_true)] at h
      exact h

theorem read_parse (input : List Char) : Read E (parse E input) := by
  refine read_walk (fun _ h => (nomatch h)) fun segment hsegment => ?_
  obtain ⟨piece, hpiece, rfl⟩ := List.mem_map.mp hsegment
  refine settled_encode fun c hc => ?_
  obtain ⟨hsep, hmem⟩ := mem_splitOnP hpiece c hc
  have hkept := (List.mem_filter.mp (mem_dropRoot hmem)).2
  exact ⟨hsep, by simpa using hkept⟩

theorem splitOnP_serialize {p : Char → Bool} (hslash : p '/' = true) {path : List Segment}
    (hfree : ∀ segment ∈ path, ∀ c ∈ segment, p c = false) (segment : Segment)
    (hsegment : ∀ c ∈ segment, p c = false) :
    (segment ++ serialize path).splitOnP p = segment :: path := by
  induction path generalizing segment with
  | nil => rw [serialize_nil, List.append_nil, List.splitOnP_eq_singleton hsegment]
  | cons next path ih =>
    rw [serialize_cons, List.splitOnP_append_cons_of_forall_mem hsegment '/' hslash,
      ih (fun s hs => hfree s (List.mem_cons_of_mem _ hs)) next (hfree next List.mem_cons_self)]

theorem filter_serialize {path : List Segment} (h : ∀ segment ∈ path, Settled E segment) :
    (serialize path).filter (fun c => !isDropped c) = serialize path := by
  rw [List.filter_eq_self]
  intro c hc
  obtain ⟨segment, hsegment, hc⟩ := List.mem_flatMap.mp hc
  rcases List.mem_cons.mp hc with rfl | hc
  · decide
  · rw [(h segment hsegment c hc).2.2]
    rfl

/-- Segments written behind a path that was read: only they are walked. -/
theorem parse_serialize_append {path more : List Segment} (hpath : Read E path)
    (hmore : ∀ segment ∈ more, Settled E segment) (hne : path ++ more ≠ []) :
    parse E (serialize (path ++ more)) = walk path more := by
  have hall : ∀ segment ∈ path ++ more, Settled E segment := by
    intro segment hs
    rcases List.mem_append.mp hs with hs | hs
    · exact (hpath segment hs).1
    · exact hmore segment hs
  have hsplit : ((dropRoot (serialize (path ++ more))).splitOnP isSeparator).map (encode E) =
      path ++ more := by
    cases hsegments : path ++ more with
    | nil => exact absurd hsegments hne
    | cons first rest =>
      rw [hsegments] at hall
      have hfree : ∀ segment ∈ first :: rest, ∀ c ∈ segment, isSeparator c = false :=
        fun segment hs c hc => (hall segment hs c hc).2.1
      have hroot : dropRoot (serialize (first :: rest)) = first ++ serialize rest := rfl
      rw [hroot, splitOnP_serialize rfl (fun s hs => hfree s (List.mem_cons_of_mem _ hs)) first
        (hfree first List.mem_cons_self)]
      exact (List.map_congr_left fun s hs => encode_settled (hall s hs)).trans (List.map_id _)
  unfold parse
  rw [filter_serialize hall, hsplit, walk_append (fun s hs => (hpath s hs).2), List.nil_append]

/-! ## Writing -/

/-- A reader that cuts at `/` alone finds the segments that hold none. -/
theorem cut_serialize {path : List Segment} (hfree : ∀ segment ∈ path, '/' ∉ segment)
    (hne : path ≠ []) : ((serialize path).drop 1).splitOnP (· = '/') = path := by
  have hcut : ∀ segment ∈ path, ∀ c ∈ segment, decide (c = '/') = false := by
    intro segment hs c hc
    rw [decide_eq_false_iff_not]
    rintro rfl
    exact hfree segment hs hc
  cases path with
  | nil => exact absurd rfl hne
  | cons first rest =>
    exact splitOnP_serialize rfl (fun s hs => hcut s (List.mem_cons_of_mem _ hs)) first
      (hcut first List.mem_cons_self)

theorem not_slash_of_settled {segment : Segment} (h : Settled E segment) : '/' ∉ segment :=
  fun hc => absurd (h '/' hc).2.1 (by decide)

/-- Trailing slashes are trailing empty segments. -/
theorem trimEnd_serialize {path : List Segment} (hfree : ∀ segment ∈ path, '/' ∉ segment) :
    (serialize path).rdropWhile (· = '/') = serialize (path.rdropWhile (· = [])) := by
  induction path using List.reverseRecOn with
  | nil => rfl
  | append_singleton path segment ih =>
    have hpath := ih fun s hs => hfree s (List.mem_append_left _ hs)
    rcases List.eq_nil_or_concat' segment with rfl | ⟨front, last, rfl⟩
    · rw [serialize_append, List.rdropWhile_concat_pos _ _ _ (by simp)]
      have hslash : serialize path ++ serialize [[]] = serialize path ++ ['/'] := rfl
      rw [hslash, List.rdropWhile_concat_pos _ _ _ (by simp), hpath]
    · have hlast : last ≠ '/' := by
        rintro rfl
        exact hfree _ (List.mem_append_right _ List.mem_cons_self) (by simp)
      rw [List.rdropWhile_concat_neg _ _ _ (by simp)]
      have hwritten : serialize (path ++ [front ++ [last]]) =
          (serialize path ++ '/' :: front) ++ [last] := by
        simp
      rw [hwritten, List.rdropWhile_concat_neg _ _ _ (by simpa using hlast)]

end Lib.UrlPath
